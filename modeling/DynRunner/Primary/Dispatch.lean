import DynRunner.Primary.Commands

/-!
# Giving tasks to workers and executors

Work is handed to the idle slots of the fleet, and so are the imports that some of it needs on each
secondary. A setup task runs in the process of one member: of
the primary itself, which settles it at once, or of the member that owns its source, which reports
back. When a secondary dies, the work it ran is queued again; a setup task it ran has failed.
-/

namespace DynRunner

variable {I : Type}

/-- How a setup task ended. -/
inductive SetupOutcome
  | success
  | failure (reason : String)
  deriving DecidableEq, Repr

namespace Coordinator

section Slots

/-- `commit_assignment`: an idle slot takes a task and the in-flight ledger records it. Nothing
happens if the slot is busy. -/
def commitAssignment (c : Coordinator I) (workerIdx : ℕ) (task : TaskInfo I) (hash : TaskHash) :
    Option (Coordinator I) :=
  match c.workers[workerIdx]? with
  | none => none
  | some w =>
    match w.assign hash task .dispatched with
    | (_, false) => none
    | (w', true) => some { c with
        workers := c.workers.set workerIdx w'
        inFlight := c.inFlight.insert hash
          ⟨task.phaseId, w.secondaryId, some (c.localWorkerIdInSecondary workerIdx w.secondaryId),
            task⟩ }

/-- The slots of a secondary that is gone are dropped. -/
def evictSecondary (c : Coordinator I) (secondary : String) : Coordinator I :=
  { c with
    workers := c.workers.filter fun w => w.secondaryId ≠ secondary
    pool := ((c.workers.filter fun w => w.secondaryId = secondary).map
      RemoteWorkerState.workerId).foldl PendingPool.releaseWorker c.pool }

end Slots

variable [DefaultHasher] [Identifier I] [RecordCodec I] [DonePayloadCodec] (c : Coordinator I)

/-- `dispatch_one_assignment`: a task is assigned and sent. Returns whether it got there; the
assignment is undone if it was not sent. -/
def dispatchOneAssignment (workerIdx : ℕ) (task : TaskInfo I)
    (delivered : Bool) : Coordinator I × Bool :=
  let hash := computeTaskHash task
  match c.commitAssignment workerIdx task hash with
  | none => (c, false)
  | some committed =>
    if delivered then
      match committed.inFlight.lookup hash with
      | some entry =>
        (committed.applyAndBroadcast
          [.taskAssigned hash entry.secondaryId (entry.localWorkerId.getD 0) .default 0], true)
      | none => (committed, true)
    else ((committed.vacate workerIdx).dropInFlight hash, false)

/-- A task that was taken out of the queue and counted is dispatched, or comes back. -/
def dispatchOrRequeue (workerIdx : ℕ) (task : TaskInfo I) (delivered : Bool) : Coordinator I :=
  match c.dispatchOneAssignment workerIdx task delivered with
  | (c, true) => c
  | (c, false) => { c with pool := c.pool.requeue task }

/-- The dispatch of an item that the scheduler has selected. -/
def dispatchSelected (workerIdx : ℕ) (worker : WorkerId) (key : BucketKey)
    (index : ℕ) (delivered : Bool) : Coordinator I :=
  match c.pool.takeSelected key index worker with
  | (pool, none) => { c with pool }
  | (pool, some task) => { c with pool }.dispatchOrRequeue workerIdx task delivered

/-- `secondary_has_slot_holding_hash`, for the secondary of a slot. -/
def siblingHolds (workerIdx : ℕ) (hash : TaskHash) : Bool :=
  (c.workers[workerIdx]?).any fun w => c.workers.any fun w' =>
    w'.secondaryId = w.secondaryId && w'.state.holds = some hash

/-- `dispatch_affine_unit` of work whose imports are done on the secondary: the task that the
ledger has leaves the queue and is counted. -/
def dispatchAffineWork (workerIdx : ℕ) (hash : TaskHash) (delivered : Bool) : Coordinator I :=
  match c.cluster.tasks.lookup hash with
  | none => c
  | some st =>
    let task := c.cluster.taskToInfo st
    match c.pool.takeFirstMatch fun t => computeTaskHash t = hash with
    | none => c
    | some (_, pool) =>
      { c with pool := pool.markInFlight task.phaseId }.dispatchOrRequeue workerIdx task delivered

/-- `dispatch_affine_unit` of an import, or the dispatch of an eager preparation: nothing is
counted, and the token of an import stays in the queue until the import is done. -/
def dispatchCell (workerIdx : ℕ) (hash : TaskHash) (delivered : Bool) : Coordinator I :=
  match c.cluster.tasks.lookup hash with
  | none => c
  | some st =>
    if c.siblingHolds workerIdx hash then c
    else (c.dispatchOneAssignment workerIdx (c.cluster.taskToInfo st) delivered).1

/-- `settle_setup_terminal`. -/
def settleSetupTerminal (hash : TaskHash) (phaseId : PhaseId)
    (taskId : String) : SetupOutcome → Coordinator I
  | .success => (c.applyAndBroadcast [.setupCompleted hash]).noteItemCompleted phaseId (some taskId)
  | .failure reason => (c.applyFailPermanent hash .nonRecoverable reason).1

/-- Take a setup task out of the queue. -/
def takeSetupTask (hash : TaskHash) : Option (TaskInfo I × PendingPool I) :=
  if c.pool.queued.any fun task => task.kind.isSetup && computeTaskHash task = hash then
    c.pool.takeFirstMatch fun task => computeTaskHash task = hash
  else none

/-- `execute_setup_locally`: the task runs to its end before anything else is handled. -/
def executeSetupLocally (hash : TaskHash) (outcome : SetupOutcome) : Coordinator I :=
  match c.takeSetupTask hash with
  | none => c
  | some (task, pool) =>
    { c with pool := pool.markInFlight task.phaseId }.settleSetupTerminal hash task.phaseId
      task.taskId outcome

/-- `assign_setup_off_primary`: the task goes to a member, but to none of its workers. -/
def assignSetupOffPrimary (hash : TaskHash) (member : String) (delivered : Bool) : Coordinator I :=
  match c.takeSetupTask hash with
  | none => c
  | some (task, pool) =>
    let c := { c with
      pool := pool.markInFlight task.phaseId
      inFlight := c.inFlight.insert hash ⟨task.phaseId, member, none, task⟩ }
    let c := c.applyAndBroadcast [.taskAssigned hash member 0 .default 0]
    if delivered then c
    else
      let c := (c.dropInFlight hash).applyAndBroadcast [.taskRequeued hash .default]
      { c with pool := c.pool.requeue task }

/-- `handle_setup_terminal`. -/
def handleSetupTerminal (hash : TaskHash) (outcome : SetupOutcome) : Coordinator I :=
  match c.inFlight.lookup hash with
  | none => c
  | some entry =>
    (c.dropInFlight hash).settleSetupTerminal hash entry.phase entry.task.taskId outcome

/-- What the death of its secondary does to one task in flight. Returns the mutation to
originate. -/
def recoverInFlight (hash : TaskHash) (entry : InFlightEntry I) :
    Coordinator I × List (ClusterMutation I) :=
  let c := c.dropInFlight hash
  if entry.task.kind.hasSecondaryCell then (c, [])
  else if entry.task.kind.isReassignable then
    if c.cluster.viewIsTerminal hash then
      ({ c with pool := c.pool.onItemFinished entry.task.phaseId (some entry.task.taskId) }, [])
    else ({ c with pool := c.pool.requeue entry.task }, [.taskRequeued hash .default])
  else
    (c, [.taskFailed hash .nonRecoverable
      ("setup-task executor (its source-owning member) died; " ++
        "setup tasks are non-reassignable — terminal unrecoverable") .default 0])

/-- `recover_inflight_for_dead_secondary`. -/
def recoverInFlightForDeadSecondary (secondary : String) :
    Coordinator I × List (ClusterMutation I) :=
  (c.inFlight.entries.filter fun e => e.2.secondaryId = secondary).foldl
    (fun (c, mutations) e =>
      let (c, new) := c.recoverInFlight e.1 e.2
      (c, mutations ++ new)) (c, [])

/-- The imports that a secondary runs, with the worker of each. -/
def affineLegs (secondary : String) : List (TaskHash × ℕ) :=
  c.inFlight.entries.filterMap fun e =>
    if e.2.secondaryId = secondary && e.2.task.kind.isSecondaryAffine &&
        (c.cluster.affineIdForHash e.1).isSome then
      e.2.localWorkerId.map fun workerId => (e.1, workerId)
    else none

/-- The slots of a secondary become idle. -/
def vacateAll (secondary : String) : Coordinator I :=
  { c with
    workers := c.workers.map fun w =>
      if w.secondaryId = secondary then { w with state := .idle } else w
    pool := ((c.workers.filter fun w => w.secondaryId = secondary && w.state.holds.isSome).map
      RemoteWorkerState.workerId).foldl PendingPool.releaseWorker c.pool }

/-- `requeue_silent_held_work_locally`: the work of a silent secondary is taken back while the
secondary stays. -/
def requeueSilentHeldWork (secondary : String) : Coordinator I :=
  let legs := c.affineLegs secondary
  let c := legs.foldl (fun c (hash, workerId) =>
    c.freeAffineSlotOnTerminal secondary workerId hash) c
  let (c, mutations) := c.recoverInFlightForDeadSecondary secondary
  if mutations.isEmpty && legs.isEmpty then c
  else (c.vacateAll secondary).applyAndBroadcast mutations

/-- `requeue_dead_secondary`. -/
def requeueDeadSecondary (secondary : String) : Coordinator I :=
  let (c, mutations) := c.recoverInFlightForDeadSecondary secondary
  (c.evictSecondary secondary).applyAndBroadcast mutations

end Coordinator

end DynRunner
