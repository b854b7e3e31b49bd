import DynRunner.Pool.Model

/-!
# Phase lifecycle

A phase is active while it has items to dispatch and draining while its queue is empty and other
work of it is outstanding. When nothing is left it is drained, and its manager is told once.
Marking it done activates the phases that waited for it. The queued, in-flight and blocked counts
decide the transitions, with two exceptions: blocked items that can never run do not hold a phase
open, and an affine import that has not run does.
-/

namespace DynRunner.PendingPool

variable {I : Type} (pool : PendingPool I)

/-- The number of items of a phase in flight. -/
def inFlight (phaseId : PhaseId) : ℕ :=
  (pool.inFlightPerPhase.lookup phaseId).getD 0

/-- The items queued in the buckets of a phase. -/
def queuedIn (phaseId : PhaseId) : List (TaskInfo I) :=
  (pool.buckets.entries.filter fun e => e.1.phaseId = phaseId).flatMap fun e => e.2.items

/-- The number of queued items that hold a phase open. -/
def queuedCount (phaseId : PhaseId) : ℕ :=
  (pool.queuedIn phaseId).countP fun item => item.kind.countsForPhaseDrain

/-- Whether a phase still holds an affine import that has not reached its terminal. -/
def phaseHasLiveAffinePrereq (phaseId : PhaseId) : Bool :=
  (pool.queuedIn phaseId).any fun item =>
    item.kind.isSecondaryAffine && item.taskId ∈ pool.affinePrereqIds &&
      item.taskId ∉ pool.completedTasks && item.taskId ∉ pool.failedTasks

/-- A task that has failed for good is never run again. -/
def isDeadEnded (id : String) : Bool := id ∈ pool.failedTasks

/-- Whether a prerequisite is dead for the drain edge of a phase: it failed for good, or its
retry is decided at this edge. -/
def isDead (phaseId : PhaseId) (id : String) : Bool :=
  pool.isDeadEnded id || pool.softFailed.lookup id = some phaseId

/-- One pass over the blocked tasks. A task with a dead or doomed dependency is doomed. -/
def doomRound (phaseId : PhaseId) (doomed : List String) : List String :=
  pool.blocked.keys.foldl (fun doomed id =>
    if id ∈ doomed then doomed
    else
      match pool.taskDeps.lookup id with
      | none => doomed
      | some deps =>
        if deps.any (fun d => pool.isDead phaseId d || d ∈ doomed) then id :: doomed else doomed)
    doomed

/-- Passes until nothing changes. A pass that changes something dooms a further task, so one
pass for each blocked task and a last one are enough. -/
def doomLoop (pool : PendingPool I) (phaseId : PhaseId) : ℕ → List String → List String
  | 0, doomed => doomed
  | rounds + 1, doomed =>
    let next := pool.doomRound phaseId doomed
    if next.length = doomed.length then doomed else pool.doomLoop phaseId rounds next

/-- The number of blocked items of a phase that may still run. -/
def liveBlockedCount (phaseId : PhaseId) : ℕ :=
  let doomed := pool.doomLoop phaseId (pool.blocked.keys.length + 1) []
  pool.blocked.count fun _ item => item.phaseId = phaseId ∧ item.taskId ∉ doomed

/-- Whether every phase that a phase depends on is done. -/
def predecessorsDone (phaseId : PhaseId) : Bool :=
  ((pool.phaseDeps.lookup phaseId).getD []).all fun d => pool.phaseState.lookup d = some .done

/-- The state that the counts ask for in an active or draining phase. -/
def nextPhaseState (phaseId : PhaseId) (current : PhaseState) : PhaseState :=
  let drainedEligible := !pool.phaseHasLiveAffinePrereq phaseId
  match pool.queuedCount phaseId, pool.inFlight phaseId,
      (pool.blockedPerPhase.lookup phaseId).getD 0 with
  | 0, 0, 0 => if pool.predecessorsDone phaseId && drainedEligible then .drained else current
  | 0, 0, _ =>
    if drainedEligible && pool.liveBlockedCount phaseId == 0 then .drained else .draining
  | 0, _, _ => .draining
  | _, _, _ => .active

/-- Move a phase, and queue a notification when it becomes drained. -/
def setPhaseState (phaseId : PhaseId) (next : PhaseState) : PendingPool I :=
  { pool with
    phaseState := pool.phaseState.insert phaseId next
    drainedPending :=
      if next = .drained ∧ phaseId ∉ pool.drainedPending then pool.drainedPending ++ [phaseId]
      else pool.drainedPending }

/-- Let the counts decide between active, draining and drained. -/
def maybeTransitionDrain (phaseId : PhaseId) : PendingPool I :=
  match pool.phaseState.lookup phaseId with
  | none => pool
  | some current =>
    if current = .active ∨ current = .draining then
      let next := pool.nextPhaseState phaseId current
      if next = current then pool else pool.setPhaseState phaseId next
    else pool

/-- The phases in a state that satisfies a predicate. -/
def phasesIn (p : PhaseState → Bool) : List PhaseId :=
  (pool.phaseState.entries.filter fun e => p e.2).map Sigma.fst

/-- Let the counts decide for every active or draining phase. -/
def drainEmptyActivePhases : PendingPool I :=
  (pool.phasesIn fun s => s = .active ∨ s = .draining).foldl maybeTransitionDrain pool

/-- Activate the blocked phases whose predecessors are done, and say whether there were any. -/
def activatePhasesWithAllDepsDone : PendingPool I × Bool :=
  (pool.phasesIn (· = .blocked)).foldl (fun (pool, flipped) p =>
    if pool.predecessorsDone p then
      ({ pool with phaseState := pool.phaseState.insert p .active }, true)
    else (pool, flipped)) (pool, false)

/-- Drop the affine tokens that are left in the buckets of a phase. -/
def dropAffineItems (phaseId : PhaseId) : PendingPool I :=
  { pool with
    buckets := pool.buckets.mapWithKey fun key bucket =>
      if key.phaseId = phaseId then
        { bucket with items := bucket.items.filter fun item => !item.kind.isSecondaryAffine }
      else bucket }

/-- A phase is done: its manager has fired the end of it. -/
def markPhaseDone (phaseId : PhaseId) : PendingPool I :=
  let pool := { pool with phaseState := pool.phaseState.insert phaseId .done }
  (pool.dropAffineItems phaseId).activatePhasesWithAllDepsDone.1

/-- Activation passes until nothing changes. A pass that changes something leaves fewer phases
blocked, so one pass for each phase and a last one are enough. -/
def settleActivation : ℕ → PendingPool I → PendingPool I
  | 0, pool => pool
  | rounds + 1, pool =>
    match pool.activatePhasesWithAllDepsDone with
    | (pool, true) => settleActivation rounds pool
    | (pool, false) => pool

/-- The listed phases ended under an earlier primary. -/
def seedCompletedPhases (phases : List PhaseId) : PendingPool I :=
  let pool := { pool with
    phaseState := phases.foldl (fun states p => states.adjust (fun _ => .done) p) pool.phaseState }
  settleActivation (pool.phaseState.keys.length + 1) pool

/-- Hand out the notifications and forget them. -/
def pollDrainTransitions : PendingPool I × List PhaseId :=
  ({ pool with drainedPending := [] }, pool.drainedPending)

/-- Queue a notification again for the drained phases that have none. -/
def resurfaceDrainedPending : PendingPool I :=
  { pool with
    drainedPending := pool.drainedPending ++
      (pool.phasesIn (· = .drained)).filter (· ∉ pool.drainedPending) }

end DynRunner.PendingPool
