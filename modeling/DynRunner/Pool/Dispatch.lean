import DynRunner.Pool.Lifecycle

/-!
# Dispatch, reservations and runs of the pool

A worker is given an item of the bucket it is pinned to, then of an unpinned bucket, then of a
bucket without affinity, then of any. An item that turns out not to be ready is blocked instead of
dispatched. While the fleet forms, tasks can be reserved for members. The last section collects
the operations that change a pool and the pools that they can reach.
-/

namespace DynRunner

variable {I : Type}

namespace PendingPool

variable (pool : PendingPool I)

/-- Whether an item depends on an affine import. -/
def hasAffineDep (item : TaskInfo I) : Bool :=
  item.taskDependsOn.any fun dep => dep.taskId ∈ pool.affinePrereqIds

/-- Whether an item may be given to a worker. -/
def dispatchEligible (item : TaskInfo I) : Bool :=
  item.kind.isWorkerAssignable && !pool.hasAffineDep item

/-- The position of the first eligible item of a bucket. -/
def firstEligibleIndex (bucket : Bucket I) : Option ℕ :=
  bucket.items.findIdx? pool.dispatchEligible

/-- The first bucket of an active phase with an eligible item that satisfies a condition. -/
def firstActiveBucket (cond : BucketKey → Bucket I → Bool) : Option BucketKey :=
  (pool.buckets.entries.find? fun (key, bucket) =>
    (pool.firstEligibleIndex bucket).isSome && cond key bucket &&
      pool.phaseState.lookup key.phaseId = some .active).map Prod.fst

/-- The pinned bucket of a worker, if it has something for it. -/
def pinnedBucket (worker : WorkerId) : Option BucketKey :=
  match pool.workerAffinity.lookup worker with
  | some (some key) =>
    match pool.buckets.get? key with
    | some bucket =>
      if pool.phaseActiveOrDraining key.phaseId && (pool.firstEligibleIndex bucket).isSome then
        some key
      else none
    | none => none
  | _ => none

/-- The bucket that a worker takes from. -/
def chooseBucketFor (worker : WorkerId) : Option BucketKey :=
  pool.pinnedBucket worker <|>
  pool.firstActiveBucket (fun key bucket =>
    key.affinityId ≠ noAffinity && bucket.pinnedWorkers.isEmpty) <|>
  pool.firstActiveBucket (fun key _ => key.affinityId = noAffinity) <|>
  pool.firstActiveBucket (fun _ _ => true)

/-- A worker that takes from a bucket with affinity is pinned to it. -/
def pinWorker (key : BucketKey) (worker : WorkerId) : PendingPool I :=
  if key.affinityId ≠ noAffinity then
    { pool with
      buckets := pool.buckets.modify key fun bucket =>
        { bucket with pinnedWorkers := if worker ∈ bucket.pinnedWorkers then bucket.pinnedWorkers
            else bucket.pinnedWorkers ++ [worker] }
      workerAffinity := pool.workerAffinity.insert worker (some key) }
  else if worker ∈ pool.workerAffinity then pool
  else { pool with workerAffinity := pool.workerAffinity.insert worker none }

/-- What goes with handing out an item that has left its bucket. -/
def handOut (key : BucketKey) (item : TaskInfo I) (worker : WorkerId) : PendingPool I :=
  let pool := { pool with reservation := pool.reservation.noteTaken item.identity }
  let pool := (pool.pinWorker key worker).markInFlight key.phaseId
  let drained := match pool.buckets.get? key with
    | some bucket => bucket.items.isEmpty
    | none => false
  if drained then (pool.clearDrainedPins key).maybeTransitionDrain key.phaseId else pool

/-- Hand out the item at a position of a bucket. -/
def takeAt (key : BucketKey) (index : ℕ) (worker : WorkerId) :
    Option (TaskInfo I × PendingPool I) :=
  (pool.removeAt key index).map fun (item, pool) => (item, pool.handOut key item worker)

/-- Hand out the item at a position of a bucket if it waits for nothing, and block it if it
does. -/
def takeAtIfReady (key : BucketKey) (index : ℕ) (worker : WorkerId) :
    PendingPool I × Option (TaskInfo I) :=
  match pool.removeAt key index with
  | none => (pool, none)
  | some (item, evicted) =>
    if (pool.unresolvedDeps item).isEmpty then
      match pool.takeAt key index worker with
      | none => (pool, none)
      | some (item, pool) => (pool, some item)
    else (evicted.commitItem item, none)

/-- The next item for a worker. -/
def popForWorker (worker : WorkerId) : PendingPool I × Option (TaskInfo I) :=
  match pool.chooseBucketFor worker with
  | none => (pool, none)
  | some key =>
    match (pool.buckets.get? key).bind pool.firstEligibleIndex with
    | none => (pool, none)
    | some index => pool.takeAtIfReady key index worker

/-- The item that was selected from the view of a worker. -/
def takeSelected (key : BucketKey) (index : ℕ) (worker : WorkerId) :
    PendingPool I × Option (TaskInfo I) := pool.takeAtIfReady key index worker

/-- Reserve tasks for members. -/
def openReservation (plan : List (TaskIdentity × String)) : PendingPool I :=
  let holder : HashMap TaskIdentity String := plan.foldl (fun m e => m.insert e.1 e.2) ∅
  { pool with reservation := ⟨holder, !holder.entries.isEmpty⟩ }

/-- The reservations of a member that is gone go round the others. -/
def redistributeMember (member : String) (fallbacks : List String) : PendingPool I :=
  if pool.reservation.active then
    let queuedKeys := pool.queued.map TaskInfo.identity
    let toMove := queuedKeys.filter fun key => pool.reservation.holder.lookup key = some member
    let moved := toMove.zipIdx.foldl (fun holder (key, i) =>
      match fallbacks[i % fallbacks.length]? with
      | none => holder.erase key
      | some pick => holder.insert key pick) pool.reservation.holder
    let holder := HashMap.retain (fun key h => h ≠ member || key ∈ queuedKeys) moved
    { pool with reservation := ⟨holder, !holder.entries.isEmpty⟩ }
  else pool

end PendingPool

/-- The operations that change a pool. -/
inductive PoolOperation (I : Type)
  | setNoBarrierPhases (phases : List PhaseId)
  | markTasksCompleted (ids : List String)
  | markTasksFailed (ids : List String)
  | markTasksFailedPendingRetry (items : List (String × PhaseId))
  | markTasksDormant (ids : List String)
  | markAffinePrereqs (ids : List String)
  | markTasksInFlight (items : List (String × PhaseId))
  | extend (batch : List (TaskInfo I))
  | popForWorker (worker : WorkerId)
  | takeSelected (key : BucketKey) (index : ℕ) (worker : WorkerId)
  | onItemFinished (phaseId : PhaseId) (taskId : Option String)
  | noteAffineTerminal (phaseId : PhaseId) (taskId : String)
  | noteAffineFailed (phaseId : PhaseId) (taskId : String)
  | onItemFailedPermanent (phaseId : PhaseId) (taskId : String)
  | onItemFailedPendingRetry (phaseId : PhaseId) (taskId : String)
  | finalizeSoftFailures (phaseId : PhaseId)
  | markInFlight (phaseId : PhaseId)
  | requeue (item : TaskInfo I)
  | pushToQueueHead (item : TaskInfo I)
  | reinject (item : TaskInfo I)
  | drainQueued
  | releaseWorker (worker : WorkerId)
  | reconcileBlocked (depAlive : String → Bool)
  | pollDrainTransitions
  | resurfaceDrainedPending
  | markPhaseDone (phaseId : PhaseId)
  | seedCompletedPhases (phases : List PhaseId)
  | drainEmptyActivePhases
  | retain (pred : TaskInfo I → Bool)
  | updateFirstMatchInPlace (pred : TaskInfo I → Bool) (update : TaskInfo I → TaskInfo I)
  | takeFirstMatch (pred : TaskInfo I → Bool)
  | openReservation (plan : List (TaskIdentity × String))
  | redistributeMember (member : String) (fallbacks : List String)

namespace PendingPool

/-- What an operation leaves of the pool. A refused batch leaves it as it was. -/
def step (pool : PendingPool I) : PoolOperation I → PendingPool I
  | .setNoBarrierPhases phases => pool.setNoBarrierPhases phases
  | .markTasksCompleted ids => pool.markTasksCompleted ids
  | .markTasksFailed ids => pool.markTasksFailed ids
  | .markTasksFailedPendingRetry items => pool.markTasksFailedPendingRetry items
  | .markTasksDormant ids => pool.markTasksDormant ids
  | .markAffinePrereqs ids => pool.markAffinePrereqs ids
  | .markTasksInFlight items => pool.markTasksInFlight items
  | .extend batch =>
    match pool.extend batch with
    | .ok pool => pool
    | .error _ => pool
  | .popForWorker worker => (pool.popForWorker worker).1
  | .takeSelected key index worker => (pool.takeSelected key index worker).1
  | .onItemFinished phaseId taskId => pool.onItemFinished phaseId taskId
  | .noteAffineTerminal phaseId taskId => pool.noteAffineTerminal phaseId taskId
  | .noteAffineFailed phaseId taskId => pool.noteAffineFailed phaseId taskId
  | .onItemFailedPermanent phaseId taskId => (pool.onItemFailedPermanent phaseId taskId).1
  | .onItemFailedPendingRetry phaseId taskId => pool.onItemFailedPendingRetry phaseId taskId
  | .finalizeSoftFailures phaseId => (pool.finalizeSoftFailures phaseId).1
  | .markInFlight phaseId => pool.markInFlight phaseId
  | .requeue item => pool.requeue item
  | .pushToQueueHead item => pool.pushToQueueHead item
  | .reinject item => pool.reinject item
  | .drainQueued => pool.drainQueued.1
  | .releaseWorker worker => pool.releaseWorker worker
  | .reconcileBlocked depAlive => (pool.reconcileBlocked depAlive).1
  | .pollDrainTransitions => pool.pollDrainTransitions.1
  | .resurfaceDrainedPending => pool.resurfaceDrainedPending
  | .markPhaseDone phaseId => pool.markPhaseDone phaseId
  | .seedCompletedPhases phases => pool.seedCompletedPhases phases
  | .drainEmptyActivePhases => pool.drainEmptyActivePhases
  | .retain pred => pool.retain pred
  | .updateFirstMatchInPlace pred update => pool.updateFirstMatchInPlace pred update
  | .takeFirstMatch pred => ((pool.takeFirstMatch pred).map Prod.snd).getD pool
  | .openReservation plan => pool.openReservation plan
  | .redistributeMember member fallbacks => pool.redistributeMember member fallbacks

/-- Two pools that differ at most in the order in which their maps are iterated. -/
structure Rehashed (pool pool' : PendingPool I) : Prop where
  buckets : pool'.buckets = pool.buckets
  phaseState : pool'.phaseState.entries.Perm pool.phaseState.entries
  phaseDeps : pool'.phaseDeps.entries.Perm pool.phaseDeps.entries
  inFlightPerPhase : pool'.inFlightPerPhase.entries.Perm pool.inFlightPerPhase.entries
  workerAffinity : pool'.workerAffinity.entries.Perm pool.workerAffinity.entries
  drainedPending : pool'.drainedPending = pool.drainedPending
  taskDeps : pool'.taskDeps.entries.Perm pool.taskDeps.entries
  blocked : pool'.blocked.entries.Perm pool.blocked.entries
  dependentsOf : pool'.dependentsOf.entries.Perm pool.dependentsOf.entries
  completedTasks : pool'.completedTasks = pool.completedTasks
  failedTasks : pool'.failedTasks = pool.failedTasks
  softFailed : pool'.softFailed.entries.Perm pool.softFailed.entries
  dormantTasks : pool'.dormantTasks = pool.dormantTasks
  affinePrereqIds : pool'.affinePrereqIds = pool.affinePrereqIds
  inFlightTasks : pool'.inFlightTasks = pool.inFlightTasks
  blockedPerPhase : pool'.blockedPerPhase.entries.Perm pool.blockedPerPhase.entries
  holder : pool'.reservation.holder.entries.Perm pool.reservation.holder.entries
  active : pool'.reservation.active = pool.reservation.active

/-- The pools that a run whose operations meet `cond` can reach. The flag tells whether a batch
has been offered yet. -/
inductive Reached (cond : Bool → PendingPool I → PoolOperation I → Prop) :
    Bool → PendingPool I → Prop
  | new {phases : List PhaseId} {deps : HashMap PhaseId (List PhaseId)} {pool : PendingPool I}
      (hnew : new phases deps = .ok pool) : Reached cond false pool
  | step {extended : Bool} {pool : PendingPool I} (operation : PoolOperation I)
      (hpool : Reached cond extended pool) (hcond : cond extended pool operation) :
      Reached cond (extended || operation matches .extend _) (pool.step operation)
  | rehashed {extended : Bool} {pool pool' : PendingPool I} (hpool : Reached cond extended pool)
      (hsame : pool.Rehashed pool') : Reached cond extended pool'

end PendingPool

end DynRunner
