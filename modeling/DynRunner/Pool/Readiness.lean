import DynRunner.Pool.Outcomes
import DynRunner.Pool.ConsistentRuns

/-!
# What a dispatched item depends on

An item is given to a worker only when every dependency that it declares is complete or an affine
import. The pool remembers completions by the id of the task alone, and a dependency names a task
of a phase. The results are about runs in which each id belongs to one phase, so that the two
agree. The history of a run keeps the tasks that are complete with their phases.
-/

namespace DynRunner

open List

namespace PendingPool

variable {I : Type} {pool pool' pool'' : PendingPool I}

section Record

/-- The record of completed tasks and of affine imports is the same. -/
structure SameRecord (pool pool' : PendingPool I) : Prop where
  completedTasks : pool'.completedTasks = pool.completedTasks
  affinePrereqIds : pool'.affinePrereqIds = pool.affinePrereqIds

theorem SameRecord.refl (pool : PendingPool I) : pool.SameRecord pool := ⟨rfl, rfl⟩

theorem SameRecord.trans (h : pool.SameRecord pool') (h' : pool'.SameRecord pool'') :
    pool.SameRecord pool'' :=
  ⟨h'.completedTasks.trans h.completedTasks, h'.affinePrereqIds.trans h.affinePrereqIds⟩

/-- The record is part of the maps. -/
theorem SameMaps.sameRecord (h : pool.SameMaps pool') : pool.SameRecord pool' :=
  ⟨h.completedTasks, h.affinePrereqIds⟩

/-- A decision leaves the record. -/
theorem Decided.sameRecord (h : pool.Decided pool') : pool.SameRecord pool' := by
  rw [h.same]
  exact ⟨rfl, rfl⟩

variable {item : TaskInfo I} {id depId : String} {worker : WorkerId} {phaseId : PhaseId}

/-- Committing an item leaves the record. -/
theorem sameRecord_commitItem : pool.SameRecord (pool.commitItem item) :=
  ⟨commitItem_ready.1, commitItem_ready.2.1⟩

/-- Detaching an item leaves the record. -/
theorem sameRecord_detach : pool.SameRecord (pool.detach id item) := by
  unfold detach
  dsimp only
  split <;> exact ⟨rfl, rfl⟩

/-- Ingestion leaves the record. -/
theorem sameRecord_extend {batch : List (TaskInfo I)} :
    pool.SameRecord (pool.step (.extend batch)) := by
  rw [step]
  cases hok : pool.extend batch with
  | error => exact .refl pool
  | ok =>
    obtain ⟨-, -, rfl⟩ := extend_eq_ok hok
    exact foldlRecOn batch commitItem (SameRecord.refl pool)
      fun _ h item _ => h.trans sameRecord_commitItem

/-- A hand-out leaves the record. -/
theorem sameRecord_takeAtIfReady {key : BucketKey} {index : ℕ} :
    pool.SameRecord (pool.takeAtIfReady key index worker).1 := by
  unfold takeAtIfReady takeAt
  cases hremove : pool.removeAt key index with
  | none => exact .refl pool
  | some taken =>
    obtain ⟨item, evicted⟩ := taken
    have hevicted := (takes_removeAt hremove).toSameMaps.sameRecord
    dsimp only
    split_ifs
    · exact hevicted.trans (queueShrinks_handOut evicted key item worker).toSameMaps.sameRecord
    · exact hevicted.trans sameRecord_commitItem

/-- So does a hand-out to a worker that asks. -/
theorem sameRecord_popForWorker : pool.SameRecord (pool.popForWorker worker).1 := by
  unfold popForWorker
  split
  · exact .refl pool
  · split
    · exact .refl pool
    · exact sameRecord_takeAtIfReady

/-- Reactivating leaves the record. -/
theorem sameRecord_reactivate (pool : PendingPool I) (phaseId : PhaseId) :
    pool.SameRecord (pool.reactivate phaseId) :=
  (phasesMoved_reactivate pool phaseId).queueShrinks.toSameMaps.sameRecord

/-- Releasing an item leaves the record. -/
theorem sameRecord_release : pool.SameRecord (pool.release id item) :=
  have hactive := sameRecord_reactivate ((pool.unblock id item).pushFront item) item.phaseId
  ⟨hactive.completedTasks, hactive.affinePrereqIds⟩

/-- Telling a dependent leaves the record. -/
theorem sameRecord_resolveDependent : pool.SameRecord (pool.resolveDependent id depId) := by
  unfold resolveDependent
  split
  · exact .refl pool
  · dsimp only
    split_ifs
    · split
      · exact ⟨rfl, rfl⟩
      · have herased : pool.SameRecord { pool with taskDeps := pool.taskDeps.erase depId } :=
          ⟨rfl, rfl⟩
        exact herased.trans sameRecord_release
    · exact ⟨rfl, rfl⟩

/-- A cascade leaves the record. -/
theorem sameRecord_cascadeRounds (rounds : ℕ) (w : CascadeWalk I) :
    w.pool.SameRecord (cascadeRounds rounds w).pool := by
  have hfail : ∀ (w : CascadeWalk I) depId,
    w.pool.SameRecord (cascadeFailDependent w depId).pool := by
    intro w depId
    unfold cascadeFailDependent
    split_ifs
    · exact .refl _
    · split <;> exact ⟨rfl, rfl⟩
  refine cascadeRounds_induction (P := fun w' => w.pool.SameRecord w'.pool)
    (fun _ _ _ h => h.trans ⟨rfl, rfl⟩) (fun w' depId h => h.trans (hfail w' depId)) rounds w ?_
  exact .refl w.pool

/-- A failure for good leaves the record of the finished tasks. -/
theorem sameRecord_onItemFailedPermanent
    {taskId : String} : pool.SameRecord (pool.onItemFailedPermanent phaseId taskId).1 := by
  refine SameRecord.trans ?_ (decided_foldl _ _).sameRecord
  refine SameRecord.trans ?_ (sameRecord_cascadeRounds _ _)
  exact ⟨rfl, rfl⟩

/-- So does finalizing the failures of a phase. -/
theorem sameRecord_finalizeSoftFailures :
    pool.SameRecord (pool.finalizeSoftFailures phaseId).1 := by
  refine SameRecord.trans ?_ (decided_foldl _ _).sameRecord
  refine foldlRecOn (motive := fun acc : PendingPool I × List PhaseId ×
    List (String × List (TaskInfo I)) => pool.SameRecord acc.1) _ _ (.refl pool) ?_
  rintro ⟨acc, affectedPhases, out⟩ h root -
  refine h.trans (SameRecord.trans ?_ (sameRecord_cascadeRounds _ _))
  exact ⟨rfl, rfl⟩

/-- Finding the orphans leaves the record. -/
theorem sameRecord_reconcileBlocked {depAlive : String → Bool} :
    pool.SameRecord (pool.reconcileBlocked depAlive).1 := by
  refine foldlRecOn (motive := fun acc : PendingPool I × List (TaskInfo I) =>
    pool.SameRecord acc.1) _ _ (.refl pool) ?_
  intro acc h id _
  unfold removeOrphan
  split
  · exact h
  · exact h.trans sameRecord_detach

/-- Rerouting a dependent leaves the record. -/
theorem sameRecord_rerouteDependent {acc : PendingPool I × List PhaseId} :
    acc.1.SameRecord (rerouteDependent acc depId).1 := by
  unfold rerouteDependent
  split
  · exact .refl acc.1
  next item rest hextract =>
    refine SameRecord.trans ?_ sameRecord_commitItem
    unfold extractLiveDependent at hextract
    split at hextract
    next taken htake =>
      cases hextract
      exact (takes_takeFirstMatch htake).1.toSameMaps.sameRecord
    next =>
      obtain ⟨found, -, heq⟩ := Option.map_eq_some_iff.mp hextract
      cases heq
      exact sameRecord_detach

/-- Taking a completed task back erases it, unless it is an affine import. -/
theorem reblock_record (pool : PendingPool I) (id : String) :
    (pool.reblockDependentsOnUncompleted id).affinePrereqIds = pool.affinePrereqIds ∧
      ∀ x ∈ (pool.reblockDependentsOnUncompleted id).completedTasks,
        x ∈ pool.completedTasks ∧ (x = id → id ∈ pool.affinePrereqIds) := by
  unfold reblockDependentsOnUncompleted
  split_ifs with haffine hcompleted
  · exact ⟨rfl, fun x hx => ⟨hx, fun _ => haffine⟩⟩
  · let uncompleted := { pool with completedTasks := pool.completedTasks.erase id }
    let rerouted := (uncompleted.rerouteIds id).foldl rerouteDependent (uncompleted, [])
    have hfold : uncompleted.SameRecord rerouted.1 :=
      foldlRecOn (motive := fun acc : PendingPool I × List PhaseId =>
        uncompleted.SameRecord acc.1) _ rerouteDependent (.refl uncompleted)
        fun acc h depId _ => h.trans sameRecord_rerouteDependent
    have hrecord := hfold.trans (decided_foldl rerouted.2 rerouted.1).sameRecord
    refine ⟨hrecord.affinePrereqIds, fun x hx => ?_⟩
    rw [show _ = _ from hrecord.completedTasks] at hx
    obtain ⟨hne, hx⟩ := Finset.mem_erase.mp hx
    exact ⟨hx, fun hxid => absurd hxid hne⟩
  · exact ⟨rfl, fun x hx => ⟨hx, fun hxid => absurd (hxid ▸ hx) hcompleted⟩⟩

/-- A task that is queued again is not complete, unless it is an affine import. -/
theorem reinject_record : (pool.reinject item).affinePrereqIds = pool.affinePrereqIds ∧
      ∀ x ∈ (pool.reinject item).completedTasks,
        x ∈ pool.completedTasks ∧ (x = item.taskId → item.taskId ∈ pool.affinePrereqIds) := by
  unfold reinject
  rw [(rearmed_pushBack _ item).rest]
  exact reblock_record { pool with
    softFailed := pool.softFailed.erase item.taskId
    dormantTasks := pool.dormantTasks.erase item.taskId } item.taskId

end Record

section Step

/-- The ids that an operation reports as complete. -/
def finishedBy : PoolOperation I → List String
  | .markTasksCompleted ids => ids
  | .onItemFinished _ (some id) | .noteAffineTerminal _ id => [id]
  | _ => []

/-- Whether an operation queues a task again that has been run. -/
def runsAgain : PoolOperation I → Bool
  | .reinject _ => true
  | _ => false

/-- **What an operation records as complete.** -/
structure Records (pool : PendingPool I) (operation : PoolOperation I) (pool' : PendingPool I) :
    Prop where
  completed : ∀ id ∈ pool'.completedTasks, id ∈ pool.completedTasks ∨ id ∈ finishedBy operation
  reopened : ∀ item, operation = .reinject item → item.taskId ∈ pool'.completedTasks →
    item.taskId ∈ pool'.affinePrereqIds
  affine : pool.affinePrereqIds ⊆ pool'.affinePrereqIds

variable {operation : PoolOperation I}

/-- An operation that leaves the record records nothing wrong. -/
theorem SameRecord.records (h : pool.SameRecord pool')
    (hreinject : runsAgain operation = false) : pool.Records operation pool' where
  completed := fun id hid => .inl (h.completedTasks ▸ hid)
  reopened := fun item heq => by
    subst heq
    cases hreinject
  affine := by rw [h.affinePrereqIds]

/-- A completed task is recorded and the rest of the operation leaves the record alone. -/
theorem SameRecord.records_insert {start : PendingPool I} {id : String}
    (h : start.SameRecord pool') (hcompleted : start.completedTasks = insert id pool.completedTasks)
    (haffine : start.affinePrereqIds = pool.affinePrereqIds) (hid : id ∈ finishedBy operation)
    (hreinject : runsAgain operation = false) : pool.Records operation pool' where
  completed := fun x hx => by
    rw [h.completedTasks, hcompleted] at hx
    rcases Finset.mem_insert.mp hx with rfl | hx
    · exact .inr hid
    · exact .inl hx
  reopened := fun item heq => by
    subst heq
    cases hreinject
  affine := by rw [h.affinePrereqIds, haffine]

/-- A finished item enters the record. -/
theorem records_onItemFinished {phaseId : PhaseId} {taskId : Option String} :
    pool.Records (.onItemFinished phaseId taskId) (pool.onItemFinished phaseId taskId) := by
  cases taskId with
  | none =>
    have hless : pool.SameRecord (pool.decrementInFlight phaseId) := ⟨rfl, rfl⟩
    exact (hless.trans decided_maybeTransitionDrain.sameRecord).records rfl
  | some id =>
    let start := { pool.decrementInFlight phaseId with
      inFlightTasks := (pool.decrementInFlight phaseId).inFlightTasks.erase id
      completedTasks := insert id pool.completedTasks
      dependentsOf := pool.dependentsOf.erase id }
    have hfold : start.SameRecord (((pool.dependentsOf.lookup id).getD []).foldl
        (resolveDependent id) start) :=
      foldlRecOn _ (resolveDependent id) (.refl start)
        fun acc h depId _ => h.trans sameRecord_resolveDependent
    exact (hfold.trans decided_maybeTransitionDrain.sameRecord).records_insert rfl rfl
      mem_cons_self rfl

/-- One operation. -/
theorem step_records (pool : PendingPool I) (operation : PoolOperation I) :
    pool.Records operation (pool.step operation) := by
  by_cases htakes : onlyTakes operation = true
  · refine (step_queueShrinks pool htakes).toSameMaps.sameRecord.records ?_
    cases operation <;> first | rfl | cases htakes
  cases operation with
  | markTasksCompleted =>
    refine ⟨fun id hid => ?_, nofun, Finset.Subset.refl _⟩
    exact (Finset.mem_union.mp hid).imp_right mem_toFinset.mp
  | markAffinePrereqs => exact ⟨fun id hid => .inl hid, nofun, Finset.subset_union_left⟩
  | extend => exact sameRecord_extend.records rfl
  | popForWorker => exact sameRecord_popForWorker.records rfl
  | takeSelected => exact sameRecord_takeAtIfReady.records rfl
  | onItemFinished => exact records_onItemFinished
  | noteAffineTerminal =>
    exact decided_maybeTransitionDrain.sameRecord.records_insert rfl rfl mem_cons_self rfl
  | onItemFailedPermanent => exact sameRecord_onItemFailedPermanent.records rfl
  | finalizeSoftFailures => exact sameRecord_finalizeSoftFailures.records rfl
  | requeue item | pushToQueueHead item =>
    refine SameRecord.records (SameRecord.trans ?_ (sameRecord_reactivate _ item.phaseId)) rfl
    exact ⟨rfl, rfl⟩
  | reinject item =>
    obtain ⟨haffine, hcompleted⟩ := reinject_record
    refine ⟨fun id hid => .inl (hcompleted id hid).1, fun item' heq hid => ?_, ?_⟩
    · cases heq
      change item.taskId ∈ (pool.reinject item).affinePrereqIds
      rw [haffine]
      exact (hcompleted item.taskId hid).2 rfl
    · change pool.affinePrereqIds ⊆ (pool.reinject item).affinePrereqIds
      rw [haffine]
  | reconcileBlocked => exact sameRecord_reconcileBlocked.records rfl
  | updateFirstMatchInPlace pred update =>
    refine SameRecord.records ?_ rfl
    change pool.SameRecord (pool.updateFirstMatchInPlace pred update)
    rw [updateFirstMatchInPlace_eq]
    exact ⟨rfl, rfl⟩
  | _ => exact absurd rfl htakes

end Step

section Runs

/-- The tasks that an operation reports as complete. Completions are seeded by id; the seeded ids
are those of tasks of the phase that the id belongs to. -/
def completes (phaseOf : String → PhaseId) : PoolOperation I → Set TaskIdentity
  | .markTasksCompleted ids => {identity | ∃ id ∈ ids, identity = toLex (phaseOf id, id)}
  | .onItemFinished phaseId (some id) | .noteAffineTerminal phaseId id => {toLex (phaseId, id)}
  | _ => ∅

/-- The tasks that an operation runs again. -/
def reopens : PoolOperation I → Set TaskIdentity
  | .reinject item => {item.identity}
  | _ => ∅

/-- A run of a pool, with the tasks that are complete. -/
inductive History (phaseOf : String → PhaseId) (cond : PoolOperation I → Prop) :
    Set TaskIdentity → PendingPool I → Prop
  | new {phases : List PhaseId} {deps : HashMap PhaseId (List PhaseId)} {pool : PendingPool I}
      (hnew : new phases deps = .ok pool) : History phaseOf cond ∅ pool
  | step {complete : Set TaskIdentity} {pool : PendingPool I} (operation : PoolOperation I)
      (hpool : History phaseOf cond complete pool) (hcond : cond operation) :
      History phaseOf cond (complete \ reopens operation ∪ completes phaseOf operation)
        (pool.step operation)
  | rehashed {complete : Set TaskIdentity} {pool pool' : PendingPool I}
      (hpool : History phaseOf cond complete pool) (hsame : pool.Rehashed pool') :
      History phaseOf cond complete pool'

/-- A task is reported as complete in the phase that its id belongs to. -/
def ReportedInPhase (phaseOf : String → PhaseId) : PoolOperation I → Prop
  | .onItemFinished phaseId (some id) | .noteAffineTerminal phaseId id => phaseId = phaseOf id
  | _ => True

variable {phaseOf : String → PhaseId} {complete : Set TaskIdentity}

/-- What is reported as complete is a task of the phase that its id belongs to. -/
theorem mem_completes {operation : PoolOperation I} (hcond : ReportedInPhase phaseOf operation)
    {id : String} (hid : id ∈ finishedBy operation) :
    (toLex (phaseOf id, id) : TaskIdentity) ∈ completes phaseOf operation := by
  cases operation with
  | markTasksCompleted => exact ⟨id, hid, rfl⟩
  | onItemFinished phaseId taskId =>
    cases taskId with
    | none => cases hid
    | some =>
      cases mem_singleton.mp hid
      exact hcond ▸ rfl
  | noteAffineTerminal =>
    cases mem_singleton.mp hid
    exact hcond ▸ rfl
  | _ => cases hid

/-- Along every run, an id is recorded as complete only if the task of its phase is complete, or
the id is that of an affine import. -/
theorem History.recorded (h : History phaseOf (ReportedInPhase phaseOf) complete pool) :
    ∀ id ∈ pool.completedTasks,
      (toLex (phaseOf id, id) : TaskIdentity) ∈ complete ∨ id ∈ pool.affinePrereqIds := by
  induction h with
  | new hnew =>
    rw [eq_fresh_of_new hnew]
    exact fun id hid => absurd hid (Finset.notMem_empty id)
  | @step complete pool operation _ hcond ih =>
    intro id hid
    have hrecords := step_records pool operation
    rcases hrecords.completed id hid with hbefore | hfinished
    · rcases ih id hbefore with hcomplete | haffine
      · by_cases hreopened : (toLex (phaseOf id, id) : TaskIdentity) ∈ reopens operation
        · -- The task runs again, so it stays recorded only as an affine import.
          cases operation with
          | reinject item =>
            have hitem : id = item.taskId := congrArg (fun key => (ofLex key).2) hreopened
            subst hitem
            exact .inr (hrecords.reopened item rfl hid)
          | _ => cases hreopened
        · exact .inl (.inl ⟨hcomplete, hreopened⟩)
      · exact .inr (hrecords.affine haffine)
    · exact .inl (.inr (mem_completes hcond hfinished))
  | rehashed _ hsame ih =>
    rw [hsame.completedTasks, hsame.affinePrereqIds]
    exact ih

variable {worker : WorkerId} {item : TaskInfo I}

/-- An item is handed out only when it waits for nothing. -/
theorem unresolvedDeps_of_takeAtIfReady {key : BucketKey} {index : ℕ}
    (h : (pool.takeAtIfReady key index worker).2 = some item) : pool.unresolvedDeps item = [] := by
  unfold takeAtIfReady takeAt at h
  cases hremove : pool.removeAt key index with
  | none => simp [hremove] at h
  | some taken =>
    obtain ⟨taken, evicted⟩ := taken
    simp only [hremove, Option.map_some] at h
    split_ifs at h with hready
    cases h
    exact isEmpty_iff.mp hready

/-- What is handed out has no unresolved dependency. -/
theorem unresolvedDeps_of_popForWorker
    (h : (pool.popForWorker worker).2 = some item) : pool.unresolvedDeps item = [] := by
  unfold popForWorker at h
  split at h
  · cases h
  · split at h
    · cases h
    · exact unresolvedDeps_of_takeAtIfReady h

/-- What waits for nothing has its dependencies recorded as complete, or they are affine
imports. -/
theorem mem_of_unresolvedDeps_nil (h : pool.unresolvedDeps item = [])
    {dep : TaskDep} (hdep : dep ∈ item.taskDependsOn) :
    dep.taskId ∈ pool.completedTasks ∨ dep.taskId ∈ pool.affinePrereqIds := by
  by_contra hnot
  rw [not_or] at hnot
  have hawaits : dep.taskId ∈ pool.unresolvedDeps item :=
    mem_unresolvedDeps.mpr ⟨mem_map_of_mem hdep, hnot⟩
  rw [h] at hawaits
  cases hawaits

/-- **Dependency safety of dispatch.** In a run in which tasks are reported as complete in the
phase that their id belongs to, an item that is given to a worker and whose dependencies name that
phase has every dependency complete, or it is an affine import. -/
theorem dispatched_dependencies_complete
    (h : History phaseOf (ReportedInPhase phaseOf) complete pool) {worker : WorkerId}
    {item : TaskInfo I} (hgiven : (pool.popForWorker worker).2 = some item ∨
      ∃ key index, (pool.takeSelected key index worker).2 = some item)
    (hphase : ∀ dep ∈ item.taskDependsOn, dep.phaseId = phaseOf dep.taskId) :
    ∀ dep ∈ item.taskDependsOn, dep.identity ∈ complete ∨ dep.taskId ∈ pool.affinePrereqIds := by
  intro dep hdep
  have hready : pool.unresolvedDeps item = [] := by
    rcases hgiven with hpopped | ⟨key, index, htaken⟩
    · exact unresolvedDeps_of_popForWorker hpopped
    · exact unresolvedDeps_of_takeAtIfReady htaken
  rcases mem_of_unresolvedDeps_nil hready hdep with hcompleted | haffine
  · rw [TaskDep.identity, hphase dep hdep]
    exact h.recorded dep.taskId hcompleted
  · exact .inr haffine

end Runs

section Failures

variable {item : TaskInfo I} {id depId : String} {worker : WorkerId} {key : BucketKey}
  {phaseId : PhaseId}

/-- Moving phases leaves the failures. -/
theorem PhasesMoved.failedTasks (h : pool.PhasesMoved pool') :
    pool'.failedTasks = pool.failedTasks := by
  obtain ⟨_, _, rfl⟩ := h
  rfl

/-- What is failed before phases move is failed after it. -/
theorem PhasesMoved.subset_failedTasks {ids : Finset String} (h : pool.PhasesMoved pool')
    (hids : ids ⊆ pool.failedTasks) : ids ⊆ pool'.failedTasks :=
  h.failedTasks.symm ▸ hids

/-- Moving pins leaves the failures. -/
theorem PinsMoved.failedTasks (h : pool.PinsMoved pool') :
    pool'.failedTasks = pool.failedTasks := by
  obtain ⟨_, _, -, rfl⟩ := h
  rfl

/-- A hand-out leaves the failures. -/
theorem failedTasks_handOut : (pool.handOut key item worker).failedTasks = pool.failedTasks := by
  have hpinned := (pinsMoved_pinWorker
    { pool with reservation := pool.reservation.noteTaken item.identity } key worker).failedTasks
  unfold handOut
  dsimp only
  split_ifs
  · rw [(phasesMoved_maybeTransitionDrain _ _).failedTasks,
      (pinsMoved_clearDrainedPins _ key).failedTasks]
    exact hpinned
  · exact hpinned

/-- An item that is not ready to be handed out may fail, and nothing else changes. -/
theorem failedTasks_subset_takeAtIfReady {index : ℕ} :
    pool.failedTasks ⊆ (pool.takeAtIfReady key index worker).1.failedTasks := by
  unfold takeAtIfReady takeAt
  cases hremove : pool.removeAt key index with
  | none => exact Finset.Subset.refl _
  | some taken =>
    obtain ⟨item, evicted⟩ := taken
    have hevict : evicted.failedTasks = pool.failedTasks := by
      obtain ⟨_, -, -, rfl⟩ := removeAt_eq_some hremove
      rfl
    dsimp only [Option.map_some]
    rw [← hevict]
    split_ifs
    · exact failedTasks_handOut.ge
    · exact commitItem_ready.2.2

/-- A cascade only adds failures. -/
theorem failedTasks_subset_cascadeRounds (rounds : ℕ) (w : CascadeWalk I) :
    w.pool.failedTasks ⊆ (cascadeRounds rounds w).pool.failedTasks := by
  have hfail : ∀ (w : CascadeWalk I) depId,
      w.pool.failedTasks ⊆ (cascadeFailDependent w depId).pool.failedTasks := by
    intro w depId
    unfold cascadeFailDependent
    split_ifs
    · exact Finset.Subset.refl _
    · split <;> exact Finset.subset_insert _ _
  exact cascadeRounds_induction (P := fun w' => w.pool.failedTasks ⊆ w'.pool.failedTasks)
    (fun _ _ _ h => h) (fun w' depId h => h.trans (hfail w' depId)) rounds w
    (Finset.Subset.refl _)

/-- The cascade from a task that has just failed only adds failures. -/
theorem failedTasks_subset_cascadeFailDependentsOf {failed : PendingPool I} {phases : List PhaseId}
    (h : failed.failedTasks = insert id pool.failedTasks) :
    pool.failedTasks ⊆ (failed.cascadeFailDependentsOf id phases).pool.failedTasks := by
  refine (Finset.subset_insert id _).trans ?_
  rw [← h]
  exact failedTasks_subset_cascadeRounds _ ⟨failed, [], phases, [id]⟩

/-- Detaching an item leaves the failures. -/
theorem failedTasks_detach : (pool.detach id item).failedTasks = pool.failedTasks := by
  unfold detach
  dsimp only
  split <;> rfl

/-- Taking an item leaves the failures. -/
theorem failedTasks_takeFirstMatch {pred : TaskInfo I → Bool}
    (h : pool.takeFirstMatch pred = some (item, pool')) :
    pool'.failedTasks = pool.failedTasks := by
  unfold takeFirstMatch at h
  dsimp only at h
  split at h
  · cases h
  · obtain ⟨⟨item', evicted⟩, hremove, heq⟩ := Option.map_eq_some_iff.mp h
    cases heq
    obtain ⟨_, -, -, rfl⟩ := removeAt_eq_some hremove
    exact (pinsMoved_clearDrainedPins _ _).failedTasks

/-- Rerouting a dependent only adds failures. -/
theorem failedTasks_subset_rerouteDependent {acc : PendingPool I × List PhaseId} :
    acc.1.failedTasks ⊆ (rerouteDependent acc depId).1.failedTasks := by
  unfold rerouteDependent
  split
  · exact Finset.Subset.refl _
  next item rest hextract =>
    have hrest : rest.failedTasks = acc.1.failedTasks := by
      unfold extractLiveDependent at hextract
      split at hextract
      next taken htake =>
        cases hextract
        exact failedTasks_takeFirstMatch htake
      next =>
        obtain ⟨found, -, heq⟩ := Option.map_eq_some_iff.mp hextract
        cases heq
        exact failedTasks_detach
    rw [← hrest]
    exact commitItem_ready.2.2

/-- A task that is queued again stays failed. -/
theorem failedTasks_subset_reinject : pool.failedTasks ⊆ (pool.reinject item).failedTasks := by
  unfold reinject
  dsimp only
  rw [(phasesMoved_rearm _ _).failedTasks]
  change _ ⊆ (reblockDependentsOnUncompleted _ item.taskId).failedTasks
  unfold reblockDependentsOnUncompleted
  split_ifs
  · exact Finset.Subset.refl _
  · dsimp only
    rw [(phasesMoved_foldl _ _).failedTasks]
    exact foldlRecOn (motive := fun acc : PendingPool I × List PhaseId =>
      pool.failedTasks ⊆ acc.1.failedTasks) _ rerouteDependent (Finset.Subset.refl _)
      fun acc h depId _ => h.trans failedTasks_subset_rerouteDependent
  · exact Finset.Subset.refl _

/-- A success is recorded beside the failures. -/
theorem record_onItemFinished :
    (pool.onItemFinished phaseId (some t)).completedTasks = insert t pool.completedTasks ∧
      (pool.onItemFinished phaseId (some t)).failedTasks = pool.failedTasks := by
  have hdependent (acc : PendingPool I) (depId : String) :
      (acc.resolveDependent t depId).failedTasks = acc.failedTasks := by
    unfold resolveDependent release reactivate
    dsimp only
    repeat' split
    all_goals rfl
  have hfold (l : List String) (start : PendingPool I) :
      (l.foldl (resolveDependent t) start).completedTasks = start.completedTasks ∧
        (l.foldl (resolveDependent t) start).failedTasks = start.failedTasks := by
    induction l generalizing start with
    | nil => exact ⟨rfl, rfl⟩
    | cons depId l ih =>
      obtain ⟨hcompleted, hfailed⟩ := ih (start.resolveDependent t depId)
      exact ⟨hcompleted.trans sameRecord_resolveDependent.completedTasks,
        hfailed.trans (hdependent start depId)⟩
  rw [onItemFinished, decided_maybeTransitionDrain.same]
  exact hfold _ _

/-- **No failure is forgotten.** -/
theorem failedTasks_subset_step (pool : PendingPool I) (operation : PoolOperation I) :
    pool.failedTasks ⊆ (pool.step operation).failedTasks := by
  cases operation with
  | markTasksFailed => exact Finset.subset_union_left
  | markTasksInFlight items =>
    refine foldlRecOn (motive := fun acc : PendingPool I => pool.failedTasks ⊆ acc.failedTasks)
      items _ (Finset.Subset.refl _) fun acc h item _ => ?_
    dsimp only
    split_ifs
    · exact h
    · exact h
  | extend batch =>
    rw [step]
    cases hok : pool.extend batch with
    | error => exact Finset.Subset.refl _
    | ok =>
      obtain ⟨-, -, rfl⟩ := extend_eq_ok hok
      exact foldlRecOn (motive := fun acc : PendingPool I => pool.failedTasks ⊆ acc.failedTasks)
        batch commitItem (Finset.Subset.refl _) fun _ h item _ => h.trans commitItem_ready.2.2
  | popForWorker worker =>
    change _ ⊆ (pool.popForWorker worker).1.failedTasks
    unfold popForWorker
    split
    · exact Finset.Subset.refl _
    · split
      · exact Finset.Subset.refl _
      · exact failedTasks_subset_takeAtIfReady
  | takeSelected => exact failedTasks_subset_takeAtIfReady
  | onItemFinished phaseId taskId =>
    cases taskId with
    | none =>
      exact (phasesMoved_maybeTransitionDrain _ _).subset_failedTasks (Finset.Subset.refl _)
    | some t => exact record_onItemFinished.2.ge
  | noteAffineTerminal | onItemFailedPendingRetry =>
    exact (phasesMoved_maybeTransitionDrain _ _).subset_failedTasks (Finset.Subset.refl _)
  | noteAffineFailed =>
    exact (phasesMoved_maybeTransitionDrain _ _).subset_failedTasks (Finset.subset_insert _ _)
  | onItemFailedPermanent phaseId taskId =>
    refine (phasesMoved_foldl _ _).subset_failedTasks ?_
    exact failedTasks_subset_cascadeFailDependentsOf rfl
  | finalizeSoftFailures phaseId =>
    refine (phasesMoved_foldl _ _).subset_failedTasks ?_
    refine foldlRecOn (motive := fun acc : PendingPool I × List PhaseId ×
      List (String × List (TaskInfo I)) => pool.failedTasks ⊆ acc.1.failedTasks) _ _
      (Finset.Subset.refl _) ?_
    rintro ⟨acc, affectedPhases, out⟩ h root -
    exact h.trans (failedTasks_subset_cascadeFailDependentsOf rfl)
  | requeue | pushToQueueHead =>
    exact (phasesMoved_reactivate _ _).subset_failedTasks (Finset.Subset.refl _)
  | reinject => exact failedTasks_subset_reinject
  | releaseWorker => exact pinsMoved_releaseWorker.failedTasks.ge
  | reconcileBlocked depAlive =>
    refine foldlRecOn (motive := fun acc : PendingPool I × List (TaskInfo I) =>
      pool.failedTasks ⊆ acc.1.failedTasks) _ _ (Finset.Subset.refl _) ?_
    intro acc h id _
    unfold removeOrphan
    split
    · exact h
    · exact h.trans failedTasks_detach.ge
  | markPhaseDone phaseId =>
    exact (activated_activatePhases _).phasesMoved.subset_failedTasks (Finset.Subset.refl _)
  | seedCompletedPhases => exact phasesMoved_seedCompletedPhases.failedTasks.ge
  | drainEmptyActivePhases => exact (phasesMoved_foldl _ pool).failedTasks.ge
  | updateFirstMatchInPlace pred update =>
    change _ ⊆ (pool.updateFirstMatchInPlace pred update).failedTasks
    rw [updateFirstMatchInPlace_eq]
  | takeFirstMatch pred =>
    change _ ⊆ (((pool.takeFirstMatch pred).map Prod.snd).getD pool).failedTasks
    cases htake : pool.takeFirstMatch pred with
    | none => exact Finset.Subset.refl _
    | some taken =>
      obtain ⟨item, rest⟩ := taken
      exact (failedTasks_takeFirstMatch htake).ge
  | redistributeMember member fallbacks =>
    change _ ⊆ (pool.redistributeMember member fallbacks).failedTasks
    unfold redistributeMember
    split_ifs <;> exact Finset.Subset.refl _
  | _ => exact Finset.Subset.refl _

end Failures

section Revived

variable {phaseId : PhaseId} {t : String}

/-- An item that depends only on one task is doomed if that task is recorded as failed. -/
theorem anyFailedDep_iff {item : TaskInfo I} (hsome : item.taskDependsOn ≠ [])
    (hdeps : ∀ dep ∈ item.taskDependsOn, dep.taskId = t) :
    pool.anyFailedDep item ↔ t ∈ pool.failedTasks := by
  obtain ⟨dep, hdep⟩ := exists_mem_of_ne_nil _ hsome
  simp only [anyFailedDep, any_eq_true, decide_eq_true_eq]
  exact ⟨fun ⟨other, hother, hmem⟩ => hdeps other hother ▸ hmem,
    fun hmem => ⟨dep, hdep, (hdeps dep hdep).symm ▸ hmem⟩⟩

/-- An item that depends on a failed task is not queued when it is ingested. -/
theorem not_queued_after_failed {item : TaskInfo I} (hfailed : t ∈ pool.failedTasks)
    (hsome : item.taskDependsOn ≠ []) (hdeps : ∀ dep ∈ item.taskDependsOn, dep.taskId = t)
    (h : pool.extend [item] = .ok pool') : item ∉ pool'.queued := by
  obtain ⟨-, hnew, rfl⟩ := extend_eq_ok h
  obtain ⟨-, -, hqueued, -⟩ := unknown_of_not_duplicate (hnew item mem_cons_self)
  rw [foldl_cons, foldl_nil, commitItem, if_pos ((anyFailedDep_iff hsome hdeps).mpr hfailed)]
  exact fun hmem => hqueued (mem_map_of_mem hmem)

/-- After the ingestion of an item that depends only on a completed task, the item is queued and no
blocked task counts as failed because of that task, exactly if it is not recorded as failed. -/
theorem ingested_after_completed_iff {item : TaskInfo I} (hcompleted : t ∈ pool.completedTasks)
    (hsome : item.taskDependsOn ≠ []) (hdeps : ∀ dep ∈ item.taskDependsOn, dep.taskId = t)
    (h : pool.extend [item] = .ok pool') :
    (item ∈ pool'.queued ∧ ∀ b deps, b ∈ pool'.blocked → pool'.taskDeps.lookup b = some deps →
      t ∈ deps → pool'.isDeadEnded t = false) ↔ t ∉ pool.failedTasks := by
  by_cases hdead : t ∈ pool.failedTasks
  · exact iff_of_false (fun hall => not_queued_after_failed hdead hsome hdeps h hall.1)
      (not_not_intro hdead)
  · obtain ⟨-, -, rfl⟩ := extend_eq_ok h
    have hmet : pool.unresolvedDeps item = [] := by
      refine (dedup_eq_nil _).mpr (filter_eq_nil_iff.mpr fun id hid => ?_)
      obtain ⟨dep, hdep, rfl⟩ := mem_map.mp hid
      simp [hdeps dep hdep, hcompleted]
    rw [foldl_cons, foldl_nil, commitItem, if_neg (mt (anyFailedDep_iff hsome hdeps).mp hdead),
      hmet]
    refine iff_of_true ⟨?_, fun b deps _ _ _ => decide_eq_false hdead⟩ hdead
    exact (pool.queued_pushBack item).mem_iff.mpr mem_cons_self

/-- **A task that succeeds after a failure.** An item that depends only on a finished task is
queued, and no blocked task counts as failed because of that task, exactly if it is not recorded as
failed. A task that is recorded as failed stays so: whatever is done after it has finished, no such
item is queued. -/
theorem finished_task_counts_iff {item : TaskInfo I} (hsome : item.taskDependsOn ≠ [])
    (hdeps : ∀ dep ∈ item.taskDependsOn, dep.taskId = t)
    (h : (pool.onItemFinished phaseId (some t)).extend [item] = .ok pool') :
    ((item ∈ pool'.queued ∧ ∀ b deps, b ∈ pool'.blocked → pool'.taskDeps.lookup b = some deps →
      t ∈ deps → pool'.isDeadEnded t = false) ↔ t ∉ pool.failedTasks) ∧
    ∀ (operations : List (PoolOperation I)) later, t ∈ pool.failedTasks →
      (operations.foldl step (pool.onItemFinished phaseId (some t))).extend [item] = .ok later →
      item ∉ later.queued := by
  obtain ⟨hcompleted, hfailed⟩ := @record_onItemFinished I pool phaseId t
  refine ⟨?_, fun operations later hmem hlater => ?_⟩
  · rw [← hfailed]
    exact ingested_after_completed_iff (by rw [hcompleted]; exact Finset.mem_insert_self t _) hsome
      hdeps h
  · refine not_queued_after_failed ?_ hsome hdeps hlater
    exact foldlRecOn (motive := fun acc : PendingPool I => t ∈ acc.failedTasks) operations step
      (hfailed ▸ hmem) fun acc hacc operation _ => failedTasks_subset_step acc operation hacc

end Revived

end PendingPool

namespace Sample

open PendingPool

/-- A task of phase `"p"` that depends on a task `"x"` of phase `"q"`. -/
def crossPhase : TaskInfo String :=
  { task "y" [] with taskDependsOn := [⟨"x", "q", false, none⟩] }

/-- What operations leave of an empty pool with the unrelated phases `"p"` and `"q"`. -/
def ranPair (operations : List (PoolOperation String)) : PendingPool String :=
  operations.foldl PendingPool.step (fresh ["p", "q"] ∅)

/-- A dependency on task `"x"` of phase `"q"`, which does not exist, is taken to be met when task
`"x"` of phase `"p"` completes. -/
theorem dispatched_on_other_phase : ∃ (complete : Set TaskIdentity) (pool : PendingPool String),
    History (fun _ => "p") (fun _ => True) complete pool ∧
      (pool.popForWorker 0).2 = some crossPhase ∧
      ∀ dep ∈ crossPhase.taskDependsOn,
        dep.identity ∉ complete ∧ dep.taskId ∉ pool.affinePrereqIds := by
  have hnew : History (fun _ => "p") (fun _ => True) ∅ (ranPair []) :=
    .new (rfl : PendingPool.new ["p", "q"] ∅ = .ok (ranPair []))
  have hfirst := hnew.step (.extend [task "x" []]) trivial
  have hsecond := hfirst.step (.extend [crossPhase]) trivial
  have hpopped := hsecond.step (.popForWorker 0) trivial
  have hfinished := hpopped.step (.onItemFinished "p" (some "x")) trivial
  refine ⟨_, _, hfinished, by decide, fun dep hdep => ?_⟩
  cases mem_singleton.mp hdep
  refine ⟨?_, Finset.notMem_empty "x"⟩
  simp [reopens, completes, TaskDep.identity]

/-- A dependent is given out once its prerequisite is complete. -/
theorem dependent_dispatched_after_prerequisite :
    ∃ (complete : Set TaskIdentity) (pool : PendingPool String),
      (pool.popForWorker 0).2 = some (task "b" ["a"]) ∧ pool.affinePrereqIds = ∅ ∧
      ∀ dep ∈ (task "b" ["a"]).taskDependsOn,
        dep.identity ∈ complete ∨ dep.taskId ∈ pool.affinePrereqIds := by
  have hnew : History (fun _ => "p") (ReportedInPhase fun _ => "p") ∅ (ran []) := .new new_ran
  have hextended := hnew.step (.extend [task "a" [], task "b" ["a"]]) trivial
  have hpopped := hextended.step (.popForWorker 0) trivial
  have hfinished := hpopped.step (.onItemFinished "p" (some "a")) rfl
  have hgiven : ((ran [.extend [task "a" [], task "b" ["a"]], .popForWorker 0,
      .onItemFinished "p" (some "a")]).popForWorker 0).2 = some (task "b" ["a"]) := by decide
  exact ⟨_, _, hgiven, by decide,
    dispatched_dependencies_complete hfinished (.inl hgiven) (by decide)⟩

/-- Once a task has finished that never failed, its dependents are ready. -/
theorem finished_task_counts : task "b" ["a"] ∈ (ran [.extend [task "a" []], .popForWorker 0,
    .onItemFinished "p" (some "a"), .extend [task "b" ["a"]]]).queued := by
  have hok : ((ran [.extend [task "a" []], .popForWorker 0]).onItemFinished "p"
      (some "a")).extend [task "b" ["a"]] = .ok (ran [.extend [task "a" []], .popForWorker 0,
        .onItemFinished "p" (some "a"), .extend [task "b" ["a"]]]) := rfl
  exact ((finished_task_counts_iff (by decide) (by decide) hok).1.mpr (by decide)).1

/-- A task fails for good, is run again and finishes. Its dependents still fail with it. -/
theorem revived_task_dooms : let pool := ran [.extend [task "a" []], .popForWorker 0,
      .onItemFailedPermanent "p" "a", .reinject (task "a" []), .popForWorker 0,
      .onItemFinished "p" (some "a"), .extend [task "b" ["a"]]]
    "a" ∈ pool.completedTasks ∧ pool.queued = [] ∧ "b" ∈ pool.failedTasks := by decide

end Sample

end DynRunner
