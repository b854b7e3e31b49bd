import DynRunner.Primary.Slots

/-!
# Terminals of dispatched tasks

A terminal report frees the slot and the entry of its task; a report about a task that was queued
again meanwhile takes it out of the queue. Then the pool is told what became of the task. An import
has a terminal on every secondary, so its reports take a way of their own, on which no phase is
counted. The pass over the phases that follows every report is a transition of its own.
-/

namespace DynRunner

variable {I : Type}

/-- What may follow a failure. -/
inductive RetryClass
  | retryable
  | permanent
  | reinjectable
  deriving DecidableEq, Repr

/-- `retry_class`. -/
def ErrorType.retryClass : ErrorType → RetryClass
  | .recoverable => .retryable
  | .resourceExhausted kind => if kind = "memory" then .retryable else .permanent
  | .nonRecoverable | .invalidTask _ => .permanent
  | .unfulfillable _ => .reinjectable

namespace TaskKind

/-- Only work can be given to another worker. -/
def isReassignable : TaskKind → Bool
  | .work => true
  | _ => false

def isSetup : TaskKind → Bool
  | .setup => true
  | _ => false

end TaskKind

/-- Whether the ledger has a terminal for a task, fat or settled. -/
def ClusterState.viewIsTerminal (s : ClusterState I) (hash : TaskHash) : Bool :=
  match s.tasks.lookup hash with
  | some st => st.status.isTerminal
  | none => s.settledContains hash

/-- `affine_id_for_hash`: the cell of an import. -/
def ClusterState.affineIdForHash (s : ClusterState I) (hash : TaskHash) : Option SecondaryCellId :=
  s.definitions.cellHashToId.lookup hash

/-- `has_secondary_cell_hash`: whether the definition of a task is of a kind that has cells. -/
def ClusterState.hasSecondaryCellHash (s : ClusterState I) (hash : TaskHash) : Bool :=
  ((s.definitions.hashToId.lookup hash).bind s.definitions.resolve).any fun definition =>
    definition.kind.hasSecondaryCell

/-- `is_backpressure_shaped`: reports that return the task instead of failing it. -/
def isBackpressureShaped (errorMessage : String) : Bool :=
  errorMessage = "No idle worker available" ||
  errorMessage = "worker pipe broken; respawning" ||
  errorMessage = "worker no-fault preempt; resource stealing" ||
  errorMessage = "reconciliation probe: holder denies holding task" ||
  errorMessage = "task assignment names a stale incarnation of this secondary; rejecting (#530b)"

/-- `TASK_ALREADY_HELD_WIRE_MESSAGE`: the secondary runs the task already. -/
def taskAlreadyHeldWireMessage : String :=
  "task already held by this secondary; assignment is a duplicate"

/-- `TASK_SUPPLANTED_BY_LIVE_HOLDER_WIRE_MESSAGE`: an earlier holder of the task is alive again. -/
def taskSupplantedByLiveHolderWireMessage : String :=
  "task supplanted holder is alive again at gen >= supplanted gen; " ++
    "refusing to start a duplicate (#530a)"

namespace Coordinator

variable [DefaultHasher] [Identifier I] [RecordCodec I] [DonePayloadCodec] (c : Coordinator I)

/-- `reclaim_requeued_on_terminal`: take a task that was queued again out of the queue, as if it
had been dispatched. -/
def reclaimRequeuedOnTerminal (hash : TaskHash) : Option (TaskInfo I × Coordinator I) :=
  (c.pool.takeFirstMatch fun task => computeTaskHash task = hash).map fun (task, pool) =>
    (task, { c with pool := pool.markInFlight task.phaseId })

/-- Recover a task that a terminal names, from its slot or from the queue. -/
def recoverOnTerminal (hash : TaskHash) : Option (TaskInfo I × Coordinator I) :=
  match c.freeSlotOnTerminal hash with
  | some (entry, c) => some (entry.task, c)
  | none => c.reclaimRequeuedOnTerminal hash

/-- `build_cascade_terminal_mutations`: record the tasks that failed with another one. -/
def buildCascadeTerminalMutations (rootId : String)
    (cascaded : List (TaskInfo I)) : Coordinator I × List (ClusterMutation I) :=
  cascaded.foldl (fun (c, mutations) dep =>
    let depHash := computeTaskHash dep
    if depHash ∈ c.completedTasks ∨ depHash ∈ c.failedTasks then (c, mutations)
    else
      ({ c with failedTasks := c.failedTasks.insert depHash .nonRecoverable },
        mutations ++ [.taskFailed depHash .nonRecoverable
          ("upstream-failed: dependency '" ++ rootId ++
            "' terminally failed with no retry path") .default 0]))
    (c, [])

/-- The bookkeeping of `note_item_completed`. -/
def noteItemCompleted (phaseId : PhaseId) (taskId : Option String) : Coordinator I :=
  { c with pool := c.pool.onItemFinished phaseId taskId }

/-- `cascade_fail_dependents_terminal`. -/
def cascadeFailDependentsTerminal (rootId : String)
    (cascaded : List (TaskInfo I)) : Coordinator I :=
  let (c, mutations) := c.buildCascadeTerminalMutations rootId cascaded
  c.applyAndBroadcast mutations

/-- The bookkeeping of `note_item_failed`. -/
def noteItemFailed (phaseId : PhaseId) (taskId : Option String)
    (kind : Option ErrorType) : Coordinator I :=
  match taskId, kind.map ErrorType.retryClass with
  | some id, some .retryable => { c with pool := c.pool.onItemFailedPendingRetry phaseId id }
  | some id, some .permanent =>
    let (pool, cascaded) := c.pool.onItemFailedPermanent phaseId id
    { c with pool }.cascadeFailDependentsTerminal id cascaded
  | _, _ => { c with pool := c.pool.onItemFinished phaseId none }

/-- The ledger and the pool are told that an import has run somewhere. Its first completion is its
terminal in the ledger. -/
def recordImport (hash : TaskHash) : Coordinator I :=
  match c.cluster.tasks.lookup hash with
  | none => c
  | some st =>
    let c := if st.status.isTerminal then c else c.applyAndBroadcast [.taskCompleted hash none 0]
    if (c.cluster.tasks.lookup hash).any fun st => st.status.isTerminal then
      { c with pool := c.pool.noteAffineTerminal st.definition.phaseId st.definition.taskId }
    else c

/-- `handle_affine_task_complete`, beside the cells. -/
def handleAffineTaskComplete (secondary : String) (workerId : ℕ)
    (hash : TaskHash) : Coordinator I :=
  (c.recordImport hash).freeAffineSlotOnTerminal secondary workerId hash

/-- `handle_task_complete`. Repeated reports are ignored, and a completion supersedes an earlier
failure. -/
def handleTaskComplete (secondary : String) (workerId : ℕ) (hash : TaskHash)
    (resultData : Option (List ℕ)) : Coordinator I :=
  if (c.cluster.affineIdForHash hash).isSome then c.handleAffineTaskComplete secondary workerId hash
  else if hash ∈ c.completedTasks then c
  else
    let c := { c with
      failedTasks := c.failedTasks.erase hash
      completedTasks := insert hash c.completedTasks }
    let c := c.applyAndBroadcast [.taskCompleted hash resultData 0]
    match c.freeSlotOnTerminal hash with
    | some (entry, c) => c.noteItemCompleted entry.phase (some entry.task.taskId)
    | none =>
      match c.reclaimRequeuedOnTerminal hash with
      | some (task, c) => c.noteItemCompleted task.phaseId (some task.taskId)
      | none => c

/-- The accounting of a task that the ledger knows to have ended: among the completed tasks, or
among the failed ones if it was not completed before and has no cells. -/
def recordTerminal (hash : TaskHash) (counterCompleted : Bool)
    (failedKind : Option ErrorType) : Coordinator I :=
  if counterCompleted then
    { c with
      failedTasks := c.failedTasks.erase hash
      completedTasks := insert hash c.completedTasks }
  else match failedKind with
    | some kind =>
      if hash ∈ c.completedTasks ∨ c.cluster.hasSecondaryCellHash hash then c
      else { c with failedTasks := c.failedTasks.insert hash kind }
    | none => c

/-- What is left of a task, in its slot or in the queue: its phase and its id. -/
def recoverResidue (hash : TaskHash) : Option ((PhaseId × String) × Coordinator I) :=
  match c.freeSlotOnTerminal hash with
  | some (entry, c) => some ((entry.phase, entry.task.taskId), c)
  | none => (c.reclaimRequeuedOnTerminal hash).map fun (task, c) =>
    ((task.phaseId, task.taskId), c)

/-- Account for an ended task, and tell the pool if something of it is left. -/
def settleResidue (hash : TaskHash) (counterCompleted : Bool)
    (failedKind : Option ErrorType) (successLike : Bool) : Coordinator I :=
  match c.recoverResidue hash with
  | none => c.recordTerminal hash counterCompleted failedKind
  | some ((phaseId, taskId), c) =>
    let c := c.recordTerminal hash counterCompleted failedKind
    if successLike then c.noteItemCompleted phaseId (some taskId)
    else c.noteItemFailed phaseId (some taskId) failedKind

/-- `settle_local_state_on_crdt_terminal`: free what is left of a task that the ledger knows to
have ended. -/
def settleLocalState (hash : TaskHash) : Coordinator I :=
  match c.cluster.tasks.lookup hash with
  | some st =>
    match st.status with
    | .completed | .skippedAlreadyDone | .setupCompleted => c.settleResidue hash true none true
    | .failed kind _ _ => c.settleResidue hash false (some kind) false
    | .unfulfillable .. | .invalidTask .. => c.settleResidue hash true none false
    | .pending .. | .inFlight .. | .blocked .. => c
  | none =>
    match c.cluster.settledEntry hash with
    | some entry =>
      match entry.settledClass with
      | .completed | .skippedAlreadyDone | .setupCompleted => c.settleResidue hash true none true
      | .failedFinal kind => c.settleResidue hash false (some kind) false
      | .invalidTask => c.settleResidue hash true none false
    | none => c

/-- The pool is told that an import can run on no secondary any more. -/
def recordImportFailure (hash : TaskHash) : Coordinator I :=
  match c.cluster.tasks.lookup hash with
  | none => c
  | some st =>
    { c with pool := c.pool.noteAffineFailed st.definition.phaseId st.definition.taskId }

/-- `handle_affine_task_failed`, beside the cells and the tasks that wait for the import. -/
def handleAffineTaskFailed (secondary : String) (workerId : ℕ) (hash : TaskHash)
    (errorMessage : String) (globallyFailed : Bool) : Coordinator I :=
  let c := if isBackpressureShaped errorMessage || !globallyFailed then c
    else c.recordImportFailure hash
  c.freeAffineSlotOnTerminal secondary workerId hash

/-- The report of a failure. The primary looks up beside it which member held the task before its
present holder was given it, and whether an import has failed on every secondary. -/
structure FailureReport where
  /-- The secondary that reports. -/
  secondaryId : String
  /-- Its worker. -/
  workerId : ℕ
  /-- The task of the report. -/
  taskHash : TaskHash
  /-- How the task failed. -/
  errorType : ErrorType
  /-- The text of the report. -/
  errorMessage : String
  /-- Who held the task before its present holder was given it. -/
  supplantedHolder : Option String
  /-- Whether the import has failed on every secondary. -/
  globallyFailed : Bool
  deriving DecidableEq, Repr

/-- Take what is left of a task and record its failure. Returns the task, if something was left. -/
def recordFailure (hash : TaskHash) (errorType : ErrorType)
    (errorMessage : String) : Option (TaskInfo I) × Coordinator I :=
  let recovered := c.recoverOnTerminal hash
  let c := (recovered.map Prod.snd).getD c
  let c := { c with failedTasks := c.failedTasks.insert hash errorType }
  (recovered.map Prod.fst,
    c.applyAndBroadcast [.taskFailed hash errorType errorMessage .default 0])

/-- The generic part of `handle_task_failed`. A secondary that had no room returns the task to the
queue; any other report is the task's terminal. -/
def failDispatched (hash : TaskHash) (errorType : ErrorType)
    (errorMessage : String) : Coordinator I :=
  if isBackpressureShaped errorMessage then
    match c.freeSlotOnTerminal hash with
    | none => if c.cluster.viewIsTerminal hash then c.settleLocalState hash else c
    | some (entry, c) =>
      if c.cluster.viewIsTerminal hash then c.settleLocalState hash
      else
        { c with pool := c.pool.requeue entry.task }.applyAndBroadcast [.taskRequeued hash .default]
  else if hash ∈ c.completedTasks ∨ hash ∈ c.failedTasks then c
  else
    match c.recordFailure hash errorType errorMessage with
    | (some task, c) => c.noteItemFailed task.phaseId (some task.taskId) (some errorType)
    | (none, c) => c

/-- `handle_task_failed`. Two reports fail nothing: the member runs the task already, or an earlier
holder of it is alive again. -/
def handleTaskFailed [DecidableEq I] (report : FailureReport) : Coordinator I :=
  let hash := report.taskHash
  if report.errorMessage = taskAlreadyHeldWireMessage then
    c.noteTaskAlreadyHeld report.secondaryId report.workerId hash
  else if report.errorMessage = taskSupplantedByLiveHolderWireMessage then
    match report.supplantedHolder with
    | some holder => c.noteTaskAlreadyHeld holder 0 hash
    | none => c
  else if (c.cluster.affineIdForHash hash).isSome then
    c.handleAffineTaskFailed report.secondaryId report.workerId hash report.errorMessage
      report.globallyFailed
  else c.failDispatched hash report.errorType report.errorMessage

end Coordinator

end DynRunner
