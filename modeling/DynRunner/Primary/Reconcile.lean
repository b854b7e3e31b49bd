import DynRunner.Primary.Dispatch
import DynRunner.Primary.Escalation
import DynRunner.Primary.Hydrate

/-!
# Reconciling with the members and with other writers

The view of a primary can be wrong. A secondary reports that the worker it was to give a task to is
busy, an idle worker asks for work although its slot is occupied by a task of an earlier primary, or
a member that is back lists what it has been running all along. The ledger changes as well: the
mutations of other writers settle tasks and bring new ones.
-/

namespace DynRunner

variable {I : Type}

/-- `has_queued_dispatchable`: something is queued in an active phase. -/
def PendingPool.hasQueuedDispatchable (pool : PendingPool I) : Bool :=
  pool.buckets.entries.any fun (key, bucket) =>
    !bucket.items.isEmpty && pool.phaseState.lookup key.phaseId = some .active

/-- The rounds of `cascade_drain_done`. A round that finds a drained phase marks it as done. -/
def PendingPool.cascadeDrainDone (pool : PendingPool I) : ℕ → PendingPool I
  | 0 => pool
  | rounds + 1 =>
    let (pool, drained) := pool.drainEmptyActivePhases.pollDrainTransitions
    if drained.isEmpty then pool
    else (drained.foldl PendingPool.markPhaseDone pool).cascadeDrainDone rounds

namespace Coordinator

section Slots

variable (c : Coordinator I)

/-- `recover_work_on_illegal_bounce`. -/
def recoverWorkOnIllegalBounce (hash : TaskHash) : Option (InFlightEntry I × Coordinator I) :=
  (c.inFlight.lookup hash).map fun entry =>
    (entry, (c.vacateHolding (c.slotOf entry) hash).dropInFlight hash)

/-- The task that a secondary really runs takes the slot, if the ledger has it there. -/
def seatIncumbent (secondary : String) (workerId : ℕ) (hash : TaskHash) : Coordinator I :=
  match c.inFlight.lookup hash with
  | some entry =>
    if entry.secondaryId = secondary then c.seatInherited hash secondary workerId entry.task else c
  | none => c

/-- `handle_inflight_roster`. A roster is taken from a live member in its present incarnation
only. -/
def handleInflightRoster [DecidableEq I] (secondary : String) (current : Bool)
    (entries : List (TaskHash × ℕ)) : Coordinator I :=
  if current then
    entries.foldl (fun c (hash, workerId) =>
      c.reconcileAuthoritativeHolder secondary workerId hash) c
  else c

end Slots

variable [DefaultHasher] [Identifier I] [RecordCodec I] [DonePayloadCodec] (c : Coordinator I)

/-- `handle_illegally_assigned`: the bounced task comes back to the queue, and its slot is given to
the task that the worker runs. -/
def handleIllegallyAssigned (secondary : String) (workerId : ℕ) (assigned : TaskHash)
    (incumbent : Option TaskHash) : Coordinator I :=
  let c :=
    if (c.cluster.affineIdForHash assigned).isSome then
      c.freeAffineSlotOnTerminal secondary workerId assigned
    else match c.recoverWorkOnIllegalBounce assigned with
      | some (entry, c) =>
        { c with pool := c.pool.requeue entry.task }.applyAndBroadcast
          [.taskRequeued assigned .default]
      | none => c
  match incumbent with
  | some hash => c.seatIncumbent secondary workerId hash
  | none => c

/-- `reconcile_inherited_slot` with what its caller does. A worker that asks for work does not run
the task of an earlier primary that its slot holds. -/
def reconcileInheritedSlot (workerIdx : ℕ) : Coordinator I :=
  match (c.workers[workerIdx]?).map RemoteWorkerState.state with
  | some (.assigned hash task .inherited) =>
    if c.cluster.viewIsTerminal hash then c.settleLocalState hash
    else
      let c := (c.vacate workerIdx).dropInFlight hash
      { c with pool := c.pool.requeue task }.applyAndBroadcast [.taskRequeued hash .default]
  | _ => c

/-- The recovery of the orphans among the blocked tasks: they are queued in front. -/
def requeueOrphans (depAlive : String → Bool) : Coordinator I :=
  let (pool, orphans) := c.pool.reconcileBlocked depAlive
  { c with pool := orphans.foldl PendingPool.pushToQueueHead pool }

/-- The mutation is a completion or a failure, of the given task. -/
def terminalHash : ClusterMutation I → Option TaskHash
  | .taskCompleted hash _ _ | .taskFailed hash _ _ _ _ => some hash
  | _ => none

/-- The mutations of a message are applied in their order. Returns the tasks that became pending
and the terminals that were applied. -/
def applyInbound (c : Coordinator I) : List (ClusterMutation I) →
    Coordinator I × List (TaskInfo I) × List TaskHash
  | [] => (c, [], [])
  | m :: ms =>
    let result := c.cluster.apply m
    let (c, newlyPending, terminals) := { c with cluster := result.state }.applyInbound ms
    (c, result.newlyPending ++ newlyPending,
      (if result.outcome = .applied then (terminalHash m).toList else []) ++ terminals)

/-- Whether a message brings discovered tasks. -/
def carriesTaskAdded (ms : List (ClusterMutation I)) : Bool :=
  ms.any fun
    | .taskAdded .. => true
    | _ => false

/-- Whether a message brings tasks. -/
def bringsTasks (ms : List (ClusterMutation I)) : Bool :=
  ms.any fun
    | .taskAdded .. | .tasksSpawned .. => true
    | _ => false

/-- What the mutations that were applied have done to the local state: the terminals are settled and
the slots of the members that left are dropped. -/
def settleInbound (terminals : List TaskHash) (departed : List String) : Coordinator I :=
  departed.foldl evictSecondary (terminals.foldl settleLocalState c)

/-- The new tasks of a message enter the pool: discovered ones by a rebuild of a pool that has
nothing to dispatch, any other ones by themselves. A rebuild that fails leaves no pool and ends the
run. -/
def admitInbound (fleet : Fleet I) (discovered : Bool)
    (newlyPending : List (TaskInfo I)) : Except PendingPoolError (Coordinator I) :=
  if discovered && !c.pool.hasQueuedDispatchable then
    (hydrateFromClusterState fleet c).map fun c =>
      { c with pool := c.pool.cascadeDrainDone (c.pool.phaseState.entries.length + 1) }
  else .ok { c with pool := newlyPending.foldl PendingPool.reinject c.pool }

/-- `handle_cluster_mutation`. The members that left and the growth of the fleet are read off the
mutations about members, which this ledger does not have. -/
def handleClusterMutation (fleet : Fleet I) (departed : List String) (capacityGrew : Bool)
    (ms : List (ClusterMutation I)) : Coordinator I :=
  let (c, newlyPending, terminals) := c.applyInbound ms
  let c := c.settleInbound terminals departed
  match c.admitInbound fleet (carriesTaskAdded ms) newlyPending with
  | .error _ => c
  | .ok c =>
    let c := if bringsTasks ms then { c with totalTasks := c.cluster.taskCount } else c
    if capacityGrew then reconstructWorkers fleet c else c

end Coordinator

end DynRunner
