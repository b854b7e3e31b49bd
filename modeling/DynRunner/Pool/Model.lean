import DynRunner.Core.Task
import DynRunner.Lib.BTreeMap
import DynRunner.Lib.Topology
import Mathlib.Algebra.GroupWithZero.Nat

/-!
# The pending pool

A manager keeps the tasks it has not dispatched yet in a pending pool. Queued items stand in
buckets by phase, type and affinity. An item that waits for other tasks is blocked: it stands in
the blocked map with the set of tasks it still waits for, and a reverse index lists it under
each of them. Beside this the pool remembers which tasks have finished or failed, and runs the
phases through their lifecycle.

This file has the data, the construction of a pool and the ways to seed it.
-/

namespace DynRunner

abbrev WorkerId := ℕ

namespace TaskKind

/-- Only work is dispatched to a worker. -/
def isWorkerAssignable : TaskKind → Bool
  | .work => true
  | _ => false

/-- Whether a queued task of this kind holds its phase open. -/
def countsForPhaseDrain : TaskKind → Bool
  | .secondaryAffine | .secondaryEagerPrep => false
  | _ => true

def isSecondaryAffine : TaskKind → Bool
  | .secondaryAffine => true
  | _ => false

end TaskKind

/-- A task is told apart by its phase and its id. -/
abbrev TaskIdentity := PhaseId ×ₗ String

instance : LawfulBEq TaskIdentity := inferInstance

def TaskDep.identity (dep : TaskDep) : TaskIdentity := toLex (dep.phaseId, dep.taskId)

/-- Lifecycle of a phase. -/
inductive PhaseState
  | blocked
  | active
  | draining
  | drained
  | done
  deriving DecidableEq, Repr

/-- The affinity of items without one. -/
def noAffinity : String := ""

/-- Where an item is queued. -/
structure BucketKey where
  /-- The phase of the items. -/
  phaseId : PhaseId
  /-- Their type. -/
  typeId : String
  /-- Their group. -/
  affinityId : String
  deriving Repr

namespace BucketKey

/-- The key as a lexicographic triple. -/
def toTriple (k : BucketKey) : String ×ₗ String ×ₗ String :=
  toLex (k.phaseId, toLex (k.typeId, k.affinityId))

/-- A bucket key is determined by its parts. -/
theorem toTriple_injective : Function.Injective toTriple := by
  rintro ⟨p, t, a⟩ ⟨p', t', a'⟩ h
  simpa [toTriple] using h

instance : LinearOrder BucketKey := LinearOrder.lift' toTriple toTriple_injective

end BucketKey

namespace TaskInfo

variable {I : Type} (item : TaskInfo I)

def identity : TaskIdentity := toLex (item.phaseId, item.taskId)

/-- The affinity of an item, or the sentinel. -/
def affinityKey : String := item.affinityId.getD noAffinity

def bucketKey : BucketKey := ⟨item.phaseId, item.typeId, item.affinityKey⟩

/-- Whether an item declares a dependency on a task id. -/
def Names (id : String) : Prop := id ∈ item.taskDependsOn.map TaskDep.taskId

instance (item : TaskInfo I) (id : String) : Decidable (item.Names id) :=
  inferInstanceAs (Decidable (id ∈ item.taskDependsOn.map TaskDep.taskId))

end TaskInfo

/-- One bucket: queued items in order, and the workers pinned to it. -/
structure Bucket (I : Type) where
  items : List (TaskInfo I)
  pinnedWorkers : List WorkerId

def Bucket.new {I : Type} : Bucket I := ⟨[], []⟩

/-- Why a pool was not built or a batch was not accepted. -/
inductive PendingPoolError
  | dependencyCycle (phase : PhaseId)
  | unknownDependency (phase : PhaseId)
  | duplicateTaskId (taskId : String)
  | unknownTaskDep (task referencedBy : String)
  | taskDepCycle (walk : List String)
  deriving DecidableEq, Repr

/-- The tasks that are reserved for a member while the fleet forms. -/
structure TaskReservation where
  holder : HashMap TaskIdentity String
  active : Bool

namespace TaskReservation

/-- A reserved task has left the queue. -/
def noteTaken (r : TaskReservation) (key : TaskIdentity) : TaskReservation :=
  if r.active then
    let holder := r.holder.erase key
    ⟨holder, !holder.entries.isEmpty⟩
  else r

end TaskReservation

/-- The pool. Sets that are only asked for membership are finite sets; the unmet dependencies
of a task, which are iterated, are a list. -/
structure PendingPool (I : Type) where
  /-- The queued items. -/
  buckets : BTreeMap BucketKey (Bucket I)
  /-- How far every phase has come. -/
  phaseState : HashMap PhaseId PhaseState
  /-- The phases that a phase waits for. -/
  phaseDeps : HashMap PhaseId (List PhaseId)
  /-- How many counted items of a phase are in flight. -/
  inFlightPerPhase : HashMap PhaseId ℕ
  /-- The bucket that a worker is pinned to. -/
  workerAffinity : HashMap WorkerId (Option BucketKey)
  /-- The drained phases that nobody has been told of. -/
  drainedPending : List PhaseId
  /-- What every blocked item still waits for. -/
  taskDeps : HashMap String (List String)
  /-- The items that wait for others. -/
  blocked : HashMap String (TaskInfo I)
  /-- Who waits for an id. -/
  dependentsOf : ReverseIndex String
  /-- The ids that have finished. -/
  completedTasks : Finset String
  /-- The ids that have failed for good. -/
  failedTasks : Finset String
  /-- The failures that may still be tried again, with their phase. -/
  softFailed : HashMap String PhaseId
  /-- The ids that are parked in the ledger. -/
  dormantTasks : Finset String
  /-- The imports, which are not waited for by id. -/
  affinePrereqIds : Finset String
  /-- The ids of the inherited items that are in flight. -/
  inFlightTasks : Finset String
  /-- How many blocked items a phase has. -/
  blockedPerPhase : HashMap PhaseId ℕ
  /-- The items that are kept for a member. -/
  reservation : TaskReservation

namespace PendingPool

variable {I : Type}

/-- The number of parents of each phase. -/
def phaseIndegree (phaseSet : List PhaseId) (deps : HashMap PhaseId (List PhaseId)) :
    HashMap PhaseId ℕ :=
  deps.entries.foldl (fun m e => m.insert e.1 ((m.lookup e.1).getD 0 + e.2.length))
    (phaseSet.foldr (fun p m => m.insert p 0) ∅)

/-- The children of each phase. -/
def phaseChildren (deps : HashMap PhaseId (List PhaseId)) : ReverseIndex PhaseId :=
  deps.entries.foldl (fun index e => index.link e.2 e.1) ∅

/-- A pool without items. Phases without dependencies are active, the others blocked. -/
def fresh (phaseSet : List PhaseId) (deps : HashMap PhaseId (List PhaseId)) : PendingPool I where
  buckets := ∅
  phaseState := phaseSet.foldr (fun p m =>
    m.insert p (if ((deps.lookup p).getD []).isEmpty then .active else .blocked)) ∅
  phaseDeps := deps
  inFlightPerPhase := phaseSet.foldr (fun p m => m.insert p 0) ∅
  workerAffinity := ∅
  drainedPending := []
  taskDeps := ∅
  blocked := ∅
  dependentsOf := ∅
  completedTasks := ∅
  failedTasks := ∅
  softFailed := ∅
  dormantTasks := ∅
  affinePrereqIds := ∅
  inFlightTasks := ∅
  blockedPerPhase := ∅
  reservation := ⟨∅, false⟩

/-- Build a pool, after checking the graph of the phases. -/
def new (phases : List PhaseId) (deps : HashMap PhaseId (List PhaseId)) :
    Except PendingPoolError (PendingPool I) :=
  let phaseSet := phases.dedup
  match (deps.entries.flatMap (·.2)).find? (· ∉ phaseSet) with
  | some parent => .error (.unknownDependency parent)
  | none =>
    match deps.keys.find? (· ∉ phaseSet) with
    | some child => .error (.unknownDependency child)
    | none =>
      let indegree := phaseIndegree phaseSet deps
      let (visited, residual) := topologicalWalk (phaseChildren deps) id phaseSet.length
        (nodesWith (· = 0) indegree) indegree
      if visited = phaseSet.length then .ok (fresh phaseSet deps)
      -- Some phase is left, since not all of them were visited.
      else .error (.dependencyCycle ((nodesWith (· ≠ 0) residual ++ phaseSet).headD ""))

variable (pool : PendingPool I)

/-- Let the listed phases dispatch without waiting for the phases they depend on. -/
def setNoBarrierPhases (phases : List PhaseId) : PendingPool I :=
  { pool with
    phaseState := phases.foldl (fun states phaseId =>
      states.adjust (fun state => if state = .blocked then .active else state) phaseId)
      pool.phaseState }

def markTasksCompleted (ids : List String) : PendingPool I :=
  { pool with completedTasks := pool.completedTasks ∪ ids.toFinset }

def markTasksFailed (ids : List String) : PendingPool I :=
  { pool with failedTasks := pool.failedTasks ∪ ids.toFinset }

/-- An id that has failed for good gets no marker. -/
def markTasksFailedPendingRetry (items : List (String × PhaseId)) : PendingPool I :=
  { pool with
    softFailed := items.foldl (fun marked (taskId, phaseId) =>
      if taskId ∈ pool.failedTasks then marked else marked.insert taskId phaseId)
      pool.softFailed }

def markTasksDormant (ids : List String) : PendingPool I :=
  { pool with dormantTasks := pool.dormantTasks ∪ ids.toFinset }

def markAffinePrereqs (ids : List String) : PendingPool I :=
  { pool with affinePrereqIds := pool.affinePrereqIds ∪ ids.toFinset }

/-- Count one more item of a phase in flight. -/
def markInFlight (phaseId : PhaseId) : PendingPool I :=
  { pool with
    inFlightPerPhase := pool.inFlightPerPhase.insert phaseId
      ((pool.inFlightPerPhase.lookup phaseId).getD 0 + 1) }

def markTasksInFlight (items : List (String × PhaseId)) : PendingPool I :=
  items.foldl (fun pool (taskId, phaseId) =>
    if taskId ∈ pool.inFlightTasks then pool
    else ({ pool with inFlightTasks := insert taskId pool.inFlightTasks }).markInFlight phaseId)
    pool

/-- Count one item of a phase less in flight, down to zero. -/
def decrementInFlight (phaseId : PhaseId) : PendingPool I :=
  { pool with inFlightPerPhase := pool.inFlightPerPhase.adjust (· - 1) phaseId }

/-- The queued items, in bucket order and first in first out within a bucket. -/
def queued : List (TaskInfo I) := pool.buckets.contents Bucket.items

/-- Queue an item at the back of its bucket. -/
def pushBack (item : TaskInfo I) : PendingPool I :=
  { pool with
    buckets := pool.buckets.upsert item.bucketKey Bucket.new
      fun bucket => { bucket with items := bucket.items ++ [item] } }

/-- Queue an item at the front of its bucket. -/
def pushFront (item : TaskInfo I) : PendingPool I :=
  { pool with
    buckets := pool.buckets.upsert item.bucketKey Bucket.new
      fun bucket => { bucket with items := item :: bucket.items } }

/-- The queue after an item is pushed. -/
theorem queued_pushBack (item : TaskInfo I) :
    (pool.pushBack item).queued.Perm ([item] ++ pool.queued) :=
  BTreeMap.contents_upsert rfl fun _ => List.perm_append_comm

/-- The queue after an item is put in front. -/
theorem queued_pushFront (item : TaskInfo I) :
    (pool.pushFront item).queued.Perm ([item] ++ pool.queued) :=
  BTreeMap.contents_upsert rfl fun bucket => List.Perm.refl (item :: bucket.items)

/-- A draining phase is active again. -/
def reactivate (phaseId : PhaseId) : PendingPool I :=
  if pool.phaseState.lookup phaseId = some .draining then
    { pool with phaseState := pool.phaseState.insert phaseId .active }
  else pool

end PendingPool

end DynRunner
