import DynRunner.Pool.Queue

/-!
# Terminals, retries and the dependents of a task

When a task completes, the tasks that waited only for it are queued. When it fails for good, the
tasks that wait for it, directly or through others, fail with it. When a completed task is run
again, its dependents that have not been dispatched wait for it again.
-/

namespace DynRunner.PendingPool

variable {I : Type} (pool : PendingPool I)

/-- Take an item out of the blocked map. -/
def unblock (id : String) (item : TaskInfo I) : PendingPool I :=
  { pool with
    blocked := pool.blocked.erase id
    blockedPerPhase := pool.blockedPerPhase.adjust (· - 1) item.phaseId }

/-- Take an item out of the blocked map together with its edges. -/
def detach (id : String) (item : TaskInfo I) : PendingPool I :=
  let pool := pool.unblock id item
  match pool.taskDeps.lookup id with
  | none => pool
  | some deps =>
    { pool with
      taskDeps := pool.taskDeps.erase id
      dependentsOf := pool.dependentsOf.unlink deps id }

/-- Queue an item that waits for nothing any more. -/
def release (id : String) (item : TaskInfo I) : PendingPool I :=
  let pool := ((pool.unblock id item).pushFront item).reactivate item.phaseId
  { pool with drainedPending := pool.drainedPending.filter (· ≠ item.phaseId) }

/-- A dependent learns that `id` is complete. -/
def resolveDependent (id : String) (pool : PendingPool I) (depId : String) : PendingPool I :=
  match pool.taskDeps.lookup depId with
  | none => pool
  | some deps =>
    let remaining := deps.filter (· ≠ id)
    if remaining.isEmpty then
      let pool := { pool with taskDeps := pool.taskDeps.erase depId }
      match pool.blocked.lookup depId with
      | none => pool
      | some item => pool.release depId item
    else { pool with taskDeps := pool.taskDeps.insert depId remaining }

/-- Record a completion and tell the dependents. -/
def resolveCompletedDependents (id : String) : PendingPool I :=
  let dependents := (pool.dependentsOf.lookup id).getD []
  dependents.foldl (resolveDependent id)
    { pool with
      completedTasks := insert id pool.completedTasks
      dependentsOf := pool.dependentsOf.erase id }

/-- An item has finished, with its id if it succeeded. -/
def onItemFinished (phaseId : PhaseId) (taskId : Option String) : PendingPool I :=
  let pool := pool.decrementInFlight phaseId
  let pool := match taskId with
    | none => pool
    | some id =>
      ({ pool with inFlightTasks := pool.inFlightTasks.erase id }).resolveCompletedDependents id
  pool.maybeTransitionDrain phaseId

/-- An affine import has run on some secondary. -/
def noteAffineTerminal (phaseId : PhaseId) (taskId : String) : PendingPool I :=
  ({ pool with completedTasks := insert taskId pool.completedTasks }).maybeTransitionDrain phaseId

/-- An affine import can run nowhere any more. -/
def noteAffineFailed (phaseId : PhaseId) (taskId : String) : PendingPool I :=
  ({ pool with failedTasks := insert taskId pool.failedTasks }).maybeTransitionDrain phaseId

/-- The ids of the queued and blocked items that declare a dependency on a task. -/
def rerouteIds (id : String) : List String :=
  ((pool.queued ++ pool.blocked.entries.map fun e => e.2).filter fun item => item.Names id).map
    TaskInfo.taskId

/-- Take a dependent out of the bucket or the blocked map where it stands. -/
def extractLiveDependent (depId : String) : Option (TaskInfo I × PendingPool I) :=
  match pool.takeFirstMatch fun item => item.taskId = depId with
  | some taken => some taken
  | none => (pool.blocked.lookup depId).map fun item => (item, pool.detach depId item)

/-- Commit a dependent anew, and note its phase. -/
def rerouteDependent (acc : PendingPool I × List PhaseId) (depId : String) :
    PendingPool I × List PhaseId :=
  match acc.1.extractLiveDependent depId with
  | none => acc
  | some (item, pool) => (pool.commitItem item, acc.2.insert item.phaseId)

/-- A completed task is no longer complete: its dependents wait for it again. The terminal of an
affine import stays. -/
def reblockDependentsOnUncompleted (id : String) : PendingPool I :=
  if id ∈ pool.affinePrereqIds then pool
  else if id ∈ pool.completedTasks then
    let pool := { pool with completedTasks := pool.completedTasks.erase id }
    let (pool, affectedPhases) := (pool.rerouteIds id).foldl rerouteDependent (pool, [])
    affectedPhases.foldl maybeTransitionDrain pool
  else pool

/-- A phase that is past active is active again, and a notification about it is void. -/
def rearm (phaseId : PhaseId) : PendingPool I :=
  match pool.phaseState.lookup phaseId with
  | some .draining | some .drained | some .done =>
    { pool with
      phaseState := pool.phaseState.insert phaseId .active
      drainedPending := pool.drainedPending.filter (· ≠ phaseId) }
  | _ => pool

/-- A task whose last attempt is over is queued again. -/
def reinject (item : TaskInfo I) : PendingPool I :=
  let pool := { pool with
    softFailed := pool.softFailed.erase item.taskId
    dormantTasks := pool.dormantTasks.erase item.taskId }
  ((pool.reblockDependentsOnUncompleted item.taskId).pushBack item).rearm item.phaseId

/-- The walk that fails the dependents of a failed task. -/
structure CascadeWalk (I : Type) where
  pool : PendingPool I
  cascaded : List (TaskInfo I)
  affectedPhases : List PhaseId
  frontier : List String

/-- Record the failure of a dependent and forget what it waits for. -/
def recordCascaded (depId : String) : PendingPool I :=
  { pool with
    failedTasks := insert depId pool.failedTasks
    softFailed := pool.softFailed.erase depId
    taskDeps := pool.taskDeps.erase depId }

/-- Fail a dependent, unless it has failed already. -/
def cascadeFailDependent (w : CascadeWalk I) (depId : String) : CascadeWalk I :=
  if depId ∈ w.pool.failedTasks then w
  else
    match w.pool.blocked.lookup depId with
    | none =>
      { w with pool := w.pool.recordCascaded depId, frontier := w.frontier ++ [depId] }
    | some item =>
      { pool := (w.pool.recordCascaded depId).unblock depId item
        cascaded := w.cascaded ++ [item]
        affectedPhases := w.affectedPhases.insert item.phaseId
        frontier := w.frontier ++ [depId] }

/-- Walk until the frontier is empty. -/
def cascadeRounds : ℕ → CascadeWalk I → CascadeWalk I
  | 0, w => w
  | rounds + 1, w =>
    match w.frontier with
    | [] => w
    | failedId :: frontier =>
      let dependents := (w.pool.dependentsOf.lookup failedId).getD []
      cascadeRounds rounds (dependents.foldl cascadeFailDependent
        { w with
          pool := { w.pool with dependentsOf := w.pool.dependentsOf.erase failedId }
          frontier := frontier })

/-- The number of dependents that the index lists. -/
def listedDependents : ℕ :=
  (pool.dependentsOf.entries.map fun e => e.2.length).sum

/-- Fail everything that waits for a failed task. A round takes a task from the frontier and adds
at most the dependents that it takes from the index, which bounds the number of rounds. -/
def cascadeFailDependentsOf (taskId : String) (affectedPhases : List PhaseId) : CascadeWalk I :=
  cascadeRounds (pool.listedDependents + 1) ⟨pool, [], affectedPhases, [taskId]⟩

/-- A task has failed for good. Returns the items that failed with it. -/
def onItemFailedPermanent (phaseId : PhaseId) (taskId : String) :
    PendingPool I × List (TaskInfo I) :=
  let pool := pool.decrementInFlight phaseId
  let pool := { pool with
    inFlightTasks := pool.inFlightTasks.erase taskId
    softFailed := pool.softFailed.erase taskId
    failedTasks := insert taskId pool.failedTasks }
  let walk := pool.cascadeFailDependentsOf taskId [phaseId]
  (walk.affectedPhases.foldl maybeTransitionDrain walk.pool, walk.cascaded)

/-- A task has failed and its phase has yet to decide about a retry. -/
def onItemFailedPendingRetry (phaseId : PhaseId) (taskId : String) : PendingPool I :=
  let pool := pool.decrementInFlight phaseId
  let pool := { pool with
    inFlightTasks := pool.inFlightTasks.erase taskId
    softFailed := if taskId ∈ pool.failedTasks then pool.softFailed
      else pool.softFailed.insert taskId phaseId }
  pool.maybeTransitionDrain phaseId

/-- The tasks of a phase whose retry is still undecided. -/
def softFailedRoots (phaseId : PhaseId) : List String :=
  (pool.softFailed.entries.filter fun e => e.2 = phaseId).map Sigma.fst

/-- One undecided failure becomes final. -/
def finalizeRoot (acc : PendingPool I × List PhaseId × List (String × List (TaskInfo I)))
    (root : String) : PendingPool I × List PhaseId × List (String × List (TaskInfo I)) :=
  let (pool, affectedPhases, out) := acc
  let pool := { pool with
    softFailed := pool.softFailed.erase root
    failedTasks := insert root pool.failedTasks }
  let walk := pool.cascadeFailDependentsOf root affectedPhases
  (walk.pool, walk.affectedPhases, out ++ [(root, walk.cascaded)])

/-- The undecided failures of a phase become final. Returns the items that failed with each. -/
def finalizeSoftFailures (phaseId : PhaseId) : PendingPool I × List (String × List (TaskInfo I)) :=
  let (pool, affectedPhases, out) :=
    (pool.softFailedRoots phaseId).foldl finalizeRoot (pool, [], [])
  (affectedPhases.foldl maybeTransitionDrain pool, out)

/-- The blocked tasks that wait for a task that is neither complete nor alive. -/
def orphanedIds (depAlive : String → Bool) : List String :=
  pool.blocked.keys.filter fun id =>
    ((pool.taskDeps.lookup id).getD []).any fun dep => dep ∉ pool.completedTasks && !depAlive dep

/-- Take an orphan out of the blocked map. -/
def removeOrphan (acc : PendingPool I × List (TaskInfo I)) (id : String) :
    PendingPool I × List (TaskInfo I) :=
  match acc.1.blocked.lookup id with
  | none => acc
  | some item => (acc.1.detach id item, acc.2 ++ [item])

/-- Take the orphans out of the blocked map and return them. -/
def reconcileBlocked (depAlive : String → Bool) : PendingPool I × List (TaskInfo I) :=
  (pool.orphanedIds depAlive).foldl removeOrphan (pool, [])

end DynRunner.PendingPool
