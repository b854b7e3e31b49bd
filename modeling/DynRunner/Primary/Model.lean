import DynRunner.Primary.Origination
import DynRunner.Primary.SpawnQueue
import DynRunner.Pool.Dispatch

/-!
# The primary coordinator

A primary holds a replica of the ledger and drives the run from it: the pending pool has the tasks
to dispatch, the in-flight ledger the tasks that were dispatched and have not come back, the
worker slots which worker runs which task. Beside this it keeps the hashes of the tasks that
completed and failed, for the accounting of the run.

This file has the data and the one way in which the primary changes the ledger.
-/

namespace DynRunner

variable {I : Type}

/-- How a slot came to hold its task. -/
inductive SlotProvenance
  | dispatched
  | inherited
  deriving DecidableEq, Repr

/-- What a worker slot holds. -/
inductive SlotState (I : Type)
  | idle
  | assigned (taskHash : TaskHash) (task : TaskInfo I) (provenance : SlotProvenance)

/-- The hash of the task a slot holds. -/
def SlotState.holds : SlotState I → Option TaskHash
  | .idle => none
  | .assigned hash _ _ => some hash

/-- A worker of a secondary, as the primary knows it. -/
structure RemoteWorkerState (I : Type) where
  /-- The worker, as the pool knows it. -/
  workerId : ℕ
  /-- The secondary of the slot. -/
  secondaryId : String
  /-- What the slot is doing. -/
  state : SlotState I

/-- An idle slot takes a task; a busy one refuses. -/
def RemoteWorkerState.assign (w : RemoteWorkerState I) (hash : TaskHash) (task : TaskInfo I)
    (provenance : SlotProvenance) : RemoteWorkerState I × Bool :=
  match w.state with
  | .idle => ({ w with state := .assigned hash task provenance }, true)
  | .assigned .. => (w, false)

/-- A dispatched task. A setup task runs on no worker, so it has no local worker id. -/
structure InFlightEntry (I : Type) where
  /-- The phase that the task is counted for. -/
  phase : PhaseId
  /-- The secondary that runs the task. -/
  secondaryId : String
  /-- The worker of that secondary, unless the secondary runs the task itself. -/
  localWorkerId : Option ℕ
  /-- The task. -/
  task : TaskInfo I

/-- A batch of spawned tasks that is being applied chunk by chunk. -/
structure SpawnContinuation (I : Type) where
  remaining : List (TaskInfo I)
  nextBaseIndex : ℕ

/-- The coordinator. -/
structure Coordinator (I : Type) extends Originator I where
  /-- The work that is queued or blocked. -/
  pool : PendingPool I
  /-- The tasks that have been dispatched. -/
  inFlight : HashMap TaskHash (InFlightEntry I)
  /-- The slots of all secondaries. -/
  workers : List (RemoteWorkerState I)
  /-- The tasks that have completed. -/
  completedTasks : Finset TaskHash
  /-- The tasks that have failed, and how. -/
  failedTasks : HashMap TaskHash ErrorType
  /-- The number of tasks that the ledger knows. -/
  totalTasks : ℕ
  /-- The tasks of the start, from which retries are taken. -/
  allBinaries : List (TaskInfo I)
  /-- The spawned tasks that wait for their dependencies to be known. -/
  spawnQueue : PendingSpawnQueue I
  /-- The batches that are published chunk by chunk. -/
  spawnContinuationQueue : List (SpawnContinuation I)
  /-- The ids that were refused. -/
  spawnRejectedTaskIds : List String

/-- A coordinator that has dispatched nothing yet. -/
def Coordinator.start (cluster : ClusterState I) (pool : PendingPool I) : Coordinator I :=
  { cluster, taskSeq := ∅, pool, inFlight := ∅, workers := [], completedTasks := ∅
    failedTasks := ∅, totalTasks := cluster.tasks.entries.length, allBinaries := []
    spawnQueue := .empty, spawnContinuationQueue := [], spawnRejectedTaskIds := [] }

/-- `task_count`: fat and settled entries. -/
def ClusterState.taskCount (s : ClusterState I) : ℕ :=
  s.tasks.entries.length + s.settled.index.entries.length

namespace Coordinator

/-- Queue every resumed descriptor, except for affine imports, which are no pool items. -/
def reinjectResumed (pool : PendingPool I) (resumed : List (TaskInfo I)) : PendingPool I :=
  (resumed.filter fun task => !task.kind.isSecondaryAffine).foldl PendingPool.reinject pool

variable [DefaultHasher] [Identifier I] [RecordCodec I] [DonePayloadCodec]

/-- `apply_and_broadcast_cluster_mutations`. What reaches the other nodes is left to them. -/
def applyAndBroadcast (c : Coordinator I) (ms : List (ClusterMutation I)) : Coordinator I :=
  if ms.isEmpty then c
  else
    let batch := c.toOriginator.applyLocallyForBroadcast ms
    { c with
      toOriginator := batch.originator
      pool := reinjectResumed c.pool batch.resumedForDispatch }

end Coordinator

end DynRunner
