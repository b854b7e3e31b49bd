import DynRunner.Pool.Phases

/-!
# The operations, as they concern the phases

Most operations move items and then let the counts decide about some phases; `step_outcome` says
so for all of them at once. The rest is described one by one: phases that are activated, a phase
that is marked as done, and a task that is queued again after its dependents have been taken back.
-/

namespace DynRunner.PendingPool

open BTreeMap HashMap SameCourse Prepares List

variable {I : Type} {pool pool' : PendingPool I} {pushed : List (TaskInfo I)}

/-- What the operations that do not move phases by themselves can do. -/
inductive Outcome (pool : PendingPool I) (pushed : List (TaskInfo I)) (pool' : PendingPool I) : Prop
  | quiet (hprepares : pool.Prepares pushed pool')
  | decided (middle : PendingPool I) (hprepares : pool.Prepares pushed middle)
      (hdecided : middle.Decided pool')

/-- A preparation is an outcome. -/
theorem Prepares.outcome (h : pool.Prepares pushed pool') : pool.Outcome pushed pool' :=
  .quiet h

/-- The items that an operation may queue, other than a reinjected one. A batch that is rejected
queues nothing. -/
def queuedBy (pool : PendingPool I) : PoolOperation I → List (TaskInfo I)
  | .extend batch =>
    match pool.extend batch with
    | .ok _ => batch.filter fun item =>
        !pool.anyFailedDep item && (pool.unresolvedDeps item).isEmpty
    | .error _ => []
  | .onItemFinished _ (some id) => ((pool.dependentsOf.lookup id).getD []).filterMap fun depId =>
      if ((pool.taskDeps.lookup depId).getD []).all (· = id) then pool.blocked.lookup depId
      else none
  | .requeue item | .pushToQueueHead item => [item]
  | _ => []

variable {key : BucketKey} {index : ℕ} {item : TaskInfo I} {worker : WorkerId}
  {batch : List (TaskInfo I)} {phaseId : PhaseId} {taskId : String}

/-- Counting down prepares. -/
theorem prepares_decrementInFlight {p : PhaseId} :
    pool.Prepares pushed (pool.decrementInFlight p) :=
  prepares_of_eq (.of_eq rfl) rfl

/-- Counting inherited items prepares. -/
theorem prepares_markTasksInFlight {items : List (String × PhaseId)} :
    pool.Prepares pushed (pool.markTasksInFlight items) := by
  refine List.foldlRecOn items _ (.refl pool) fun pool h e _ => h.trans ?_
  dsimp only
  split_ifs
  · exact .refl pool
  · exact prepares_of_eq (.of_eq rfl) rfl

/-- Moving pins prepares. -/
theorem PinsMoved.prepares (h : pool.PinsMoved pool') : pool.Prepares pushed pool' := by
  obtain ⟨f, _, hf, rfl⟩ := h
  refine prepares_mapWithKey f (.of_eq rfl) rfl fun key bucket => ?_
  rw [hf]
  exact Subset.refl _

variable {id : String}

/-- Removing an item prepares. -/
theorem prepares_removeAt
    (h : pool.removeAt key index = some (item, pool')) : pool.Prepares pushed pool' := by
  obtain ⟨bucket, -, -, rfl⟩ := removeAt_eq_some h
  exact prepares_modify (fun bucket => { bucket with items := bucket.items.eraseIdx index })
    (.of_eq rfl) rfl fun bucket => eraseIdx_subset

/-- Taking an item prepares. -/
theorem prepares_takeFirstMatch {pred : TaskInfo I → Bool}
    (h : pool.takeFirstMatch pred = some (item, pool')) : pool.Prepares pushed pool' := by
  obtain ⟨key, index, rest, hremove, hpins, -⟩ := takeFirstMatch_eq_some h
  exact (prepares_removeAt hremove).trans hpins.prepares

/-- Handing out an item lets the counts decide when the bucket is empty. -/
theorem outcome_handOut :
    ∃ middle, pool.Prepares pushed middle ∧ middle.Decided (pool.handOut key item worker) := by
  let noted := { pool with reservation := pool.reservation.noteTaken item.identity }
  have hnoted : pool.Prepares pushed noted := prepares_of_eq (.of_eq rfl) rfl
  have hpinned := hnoted.trans (pinsMoved_pinWorker noted key worker).prepares
  have hmarked : pool.Prepares pushed ((noted.pinWorker key worker).markInFlight key.phaseId) :=
    hpinned.trans (prepares_of_eq (.of_eq rfl) rfl)
  unfold handOut
  dsimp only
  split_ifs
  · exact ⟨_, hmarked.trans (pinsMoved_clearDrainedPins _ key).prepares,
      decided_maybeTransitionDrain⟩
  · exact ⟨_, hmarked, .refl _⟩

/-- What is unresolved is a matter of the finished tasks and imports. -/
theorem unresolvedDeps_congr (hcompleted : pool'.completedTasks = pool.completedTasks)
    (haffine : pool'.affinePrereqIds = pool.affinePrereqIds) :
    pool'.unresolvedDeps item = pool.unresolvedDeps item := by
  unfold unresolvedDeps
  rw [hcompleted, haffine]

/-- A worker takes an item, or the item is blocked. -/
theorem outcome_takeAtIfReady : pool.Outcome pushed (pool.takeAtIfReady key index worker).1 := by
  unfold takeAtIfReady
  cases hremove : pool.removeAt key index with
  | none => exact (refl pool).outcome
  | some taken =>
    obtain ⟨item, evicted⟩ := taken
    have hevicted : pool.Prepares pushed evicted := prepares_removeAt hremove
    dsimp only
    split_ifs with hready
    · obtain ⟨middle, hmiddle, hdecided⟩ := outcome_handOut
      simp only [takeAt, hremove, Option.map_some]
      exact .decided middle (hevicted.trans hmiddle) hdecided
    · -- The item waits for something, so that committing it does not queue it.
      refine .quiet (hevicted.trans (prepares_commitItem fun _ hnil => absurd ?_ hready))
      have hmaps := (takes_removeAt hremove).toSameMaps
      rw [← unresolvedDeps_congr hmaps.completedTasks hmaps.affinePrereqIds, hnil]
      rfl

/-- What a hand-out leads to. -/
theorem outcome_popForWorker : pool.Outcome pushed (pool.popForWorker worker).1 := by
  unfold popForWorker
  split
  · exact (refl pool).outcome
  · split
    · exact (refl pool).outcome
    · exact outcome_takeAtIfReady

/-- Committing a batch leaves alone what readiness depends on. -/
theorem commitItem_ready : (pool.commitItem item).completedTasks = pool.completedTasks ∧
      (pool.commitItem item).affinePrereqIds = pool.affinePrereqIds ∧
      pool.failedTasks ⊆ (pool.commitItem item).failedTasks := by
  unfold commitItem
  split_ifs
  · exact ⟨rfl, rfl, Finset.subset_insert _ _⟩
  · split
    all_goals exact ⟨rfl, rfl, Finset.Subset.refl _⟩

/-- Fewer failures make fewer dependencies fail. -/
theorem anyFailedDep_mono (hfailed : pool.failedTasks ⊆ pool'.failedTasks)
    (h : pool'.anyFailedDep item = false) : pool.anyFailedDep item = false := by
  unfold anyFailedDep at h ⊢
  rw [any_eq_false] at h ⊢
  intro dep hdep hmem
  exact h dep hdep (decide_eq_true (hfailed (of_decide_eq_true hmem)))

/-- Committing a batch pushes its ready items. -/
theorem prepares_commitAll
    (hpushed : ∀ item ∈ batch, pool.anyFailedDep item = false → pool.unresolvedDeps item = [] →
      item ∈ pushed) : pool.Prepares pushed (batch.foldl commitItem pool) := by
  induction batch generalizing pool with
  | nil => exact refl pool
  | cons item batch ih =>
    obtain ⟨hcompleted, haffine, hfailed⟩ := commitItem_ready
    refine (prepares_commitItem (hpushed item mem_cons_self)).trans (ih fun item' hitem' => ?_)
    intro hnone hnil
    rw [unresolvedDeps_congr hcompleted haffine] at hnil
    exact hpushed item' (mem_cons_of_mem _ hitem') (anyFailedDep_mono hfailed hnone) hnil

/-- What the ingestion of a batch leads to. -/
theorem outcome_extend :
    pool.Outcome (pool.queuedBy (.extend batch)) (pool.step (.extend batch)) := by
  rw [step]
  cases hextend : pool.extend batch with
  | error => exact (refl pool).outcome
  | ok =>
    rw [queuedBy, hextend]
    obtain ⟨-, -, rfl⟩ := extend_eq_ok hextend
    refine .quiet (prepares_commitAll fun item hitem hnone hnil => ?_)
    exact mem_filter.mpr ⟨hitem, by simp [hnone, hnil]⟩

/-- Releasing an item prepares. -/
theorem prepares_release (hitem : pool.blocked.lookup id = some item) (hpushed : item ∈ pushed) :
    pool.Prepares pushed (pool.release id item) := by
  have hunblocked : pool.Prepares pushed (pool.unblock id item) := prepares_unblock hitem
  have hpush := hunblocked.trans (prepares_pushFront hpushed)
  have hactive := hpush.trans (prepares_reactivate _ item.phaseId)
  exact { hactive with pending := fun p hp => hactive.pending (mem_filter.mp hp).1 }

/-- What a dependent waits for besides a task, while the dependents of that task are told. -/
structure Telling (id : String) (pool acc : PendingPool I) : Prop where
  deps : ∀ depId deps, acc.taskDeps.lookup depId = some deps →
    ∃ old, pool.taskDeps.lookup depId = some old ∧ deps.filter (· ≠ id) = old.filter (· ≠ id)
  blocked : ∀ depId item, acc.blocked.lookup depId = some item →
    pool.blocked.lookup depId = some item

/-- Telling one dependent about a completion. -/
theorem Telling.resolveDependent {depId : String} {acc : PendingPool I} (h : Telling id pool acc)
    (hpushed : ∀ deps item, pool.taskDeps.lookup depId = some deps →
      deps.filter (· ≠ id) = [] → pool.blocked.lookup depId = some item → item ∈ pushed) :
    Telling id pool (acc.resolveDependent id depId) ∧
      acc.Prepares pushed (acc.resolveDependent id depId) := by
  unfold PendingPool.resolveDependent
  cases hdeps : acc.taskDeps.lookup depId with
  | none => exact ⟨h, .refl acc⟩
  | some deps =>
    obtain ⟨old, hold, hsame⟩ := h.deps depId deps hdeps
    dsimp only
    split_ifs with hempty
    · cases hitem : acc.blocked.lookup depId with
      | none =>
        exact ⟨⟨fun d deps' hd => h.deps d deps' (lookup_of_erase hd), h.blocked⟩,
          prepares_of_eq (.of_eq rfl) rfl⟩
      | some item =>
        have herased : acc.Prepares pushed { acc with taskDeps := acc.taskDeps.erase depId } :=
          prepares_of_eq (.of_eq rfl) rfl
        have hmem : item ∈ pushed := by
          refine hpushed old item hold ?_ (h.blocked depId item hitem)
          rw [← hsame]
          exact isEmpty_iff.mp hempty
        refine ⟨?_, herased.trans (prepares_release hitem hmem)⟩
        have hfields : (({ acc with taskDeps := acc.taskDeps.erase depId }).release depId
            item).taskDeps = acc.taskDeps.erase depId ∧
            (({ acc with taskDeps := acc.taskDeps.erase depId }).release depId item).blocked =
              acc.blocked.erase depId := by
          unfold release reactivate
          split_ifs <;> exact ⟨rfl, rfl⟩
        exact ⟨fun d deps' hd => h.deps d deps' (lookup_of_erase (hfields.1 ▸ hd)),
          fun d item' hd => h.blocked d item' (lookup_of_erase (hfields.2 ▸ hd))⟩
    · refine ⟨⟨fun d deps' hd => ?_, h.blocked⟩, prepares_of_eq (.of_eq rfl) rfl⟩
      rw [lookup_insert_eq] at hd
      split_ifs at hd with hown
      · subst hown
        cases hd
        refine ⟨old, hold, ?_⟩
        simpa using hsame
      · exact h.deps d deps' hd

/-- Telling all dependents about a completion. -/
theorem prepares_resolveCompletedDependents
    (hpushed : ∀ depId ∈ (pool.dependentsOf.lookup id).getD [], ∀ deps item,
      pool.taskDeps.lookup depId = some deps → deps.filter (· ≠ id) = [] →
      pool.blocked.lookup depId = some item → item ∈ pushed) :
    pool.Prepares pushed (pool.resolveCompletedDependents id) := by
  refine (foldlRecOn (motive := fun acc => Telling id pool acc ∧ pool.Prepares pushed acc) _ _
    ⟨?_, ?_⟩ ?_).2
  · exact ⟨fun _ deps hd => ⟨deps, hd, rfl⟩, fun _ _ hitem => hitem⟩
  · exact prepares_of_eq (.of_eq rfl) rfl
  · rintro acc ⟨hacc, hprepares⟩ depId hdepId
    obtain ⟨hnext, hstep⟩ := hacc.resolveDependent (hpushed depId hdepId)
    exact ⟨hnext, hprepares.trans hstep⟩

/-- What a finished item leads to. -/
theorem outcome_onItemFinished {taskId : Option String} :
    pool.Outcome (pool.queuedBy (.onItemFinished phaseId taskId))
      (pool.onItemFinished phaseId taskId) := by
  refine .decided _ ?_ decided_maybeTransitionDrain
  cases taskId with
  | none => exact prepares_decrementInFlight
  | some id =>
    refine Prepares.trans ?_ (prepares_resolveCompletedDependents ?_)
    · exact prepares_of_eq (.of_eq rfl) rfl
    intro depId hdepId deps item hdeps hempty hitem
    refine mem_filterMap.mpr ⟨depId, hdepId, ?_⟩
    have hdeps' : pool.taskDeps.lookup depId = some deps := hdeps
    rw [hdeps', Option.getD_some, if_pos]
    · exact hitem
    · rw [all_eq_true]
      intro d hd
      have hnot := filter_eq_nil_iff.mp hempty d hd
      simpa using hnot

/-- Failing one dependent prepares. -/
theorem prepares_cascadeFailDependent (w : CascadeWalk I) (depId : String) :
    w.pool.Prepares pushed (cascadeFailDependent w depId).pool := by
  have hrecorded : w.pool.Prepares pushed (w.pool.recordCascaded depId) :=
    prepares_of_eq (.of_eq rfl) rfl
  unfold cascadeFailDependent
  split_ifs
  · exact .refl w.pool
  · cases hitem : w.pool.blocked.lookup depId with
    | none => exact hrecorded
    | some => exact hrecorded.trans (prepares_unblock hitem)

/-- A cascade prepares. -/
theorem prepares_cascadeRounds (rounds : ℕ) (w : CascadeWalk I) :
    w.pool.Prepares pushed (cascadeRounds rounds w).pool :=
  cascadeRounds_induction (P := fun w' => w.pool.Prepares pushed w'.pool)
    (fun _ _ _ h => h.trans (prepares_of_eq (.of_eq rfl) rfl))
    (fun w' depId h => h.trans (prepares_cascadeFailDependent w' depId)) rounds w (.refl w.pool)

/-- What a failure for good leads to. -/
theorem outcome_onItemFailedPermanent :
    pool.Outcome pushed (pool.onItemFailedPermanent phaseId taskId).1 := by
  refine .decided _ ?_ (decided_foldl _ _)
  refine trans ?_ (prepares_cascadeRounds _ _)
  exact prepares_of_eq (.of_eq rfl) rfl

/-- What a failure that may be tried again leads to. -/
theorem outcome_onItemFailedPendingRetry :
    pool.Outcome pushed (pool.onItemFailedPendingRetry phaseId taskId) := by
  refine .decided _ ?_ decided_maybeTransitionDrain
  exact prepares_of_eq (.of_eq rfl) rfl

/-- What finalizing the failures of a phase leads to. -/
theorem outcome_finalizeSoftFailures :
    pool.Outcome pushed (pool.finalizeSoftFailures phaseId).1 := by
  refine .decided _ ?_ (decided_foldl _ _)
  refine foldlRecOn (motive := fun acc : PendingPool I × List PhaseId ×
    List (String × List (TaskInfo I)) => pool.Prepares pushed acc.1) _ _ (.refl pool) ?_
  rintro ⟨acc, affectedPhases, out⟩ h root -
  refine h.trans (trans ?_ (prepares_cascadeRounds _ _))
  exact prepares_of_eq (.of_eq rfl) rfl

/-- Finding the orphans prepares. -/
theorem prepares_reconcileBlocked {depAlive : String → Bool} :
    pool.Prepares pushed (pool.reconcileBlocked depAlive).1 := by
  refine foldlRecOn (motive := fun acc : PendingPool I × List (TaskInfo I) =>
    pool.Prepares pushed acc.1) _ _ (.refl pool) ?_
  intro acc h id _
  unfold removeOrphan
  cases hitem : acc.1.blocked.lookup id with
  | none => exact h
  | some => exact h.trans (prepares_detach hitem)

/-- The operations that move phases or notifications by themselves, or rewrite an item. -/
def movesPhases : PoolOperation I → Bool
  | .setNoBarrierPhases _ | .resurfaceDrainedPending | .markPhaseDone _ | .seedCompletedPhases _
  | .reinject _ | .updateFirstMatchInPlace _ _ => true
  | _ => false

/-- **Every other operation first moves items and then lets the counts decide.** -/
theorem step_outcome (pool : PendingPool I) {operation : PoolOperation I}
    (hplain : movesPhases operation = false) :
    pool.Outcome (pool.queuedBy operation) (pool.step operation) := by
  cases operation with
  | setNoBarrierPhases | resurfaceDrainedPending | markPhaseDone | seedCompletedPhases
  | reinject | updateFirstMatchInPlace => cases hplain
  | markTasksCompleted | markTasksFailed | markTasksFailedPendingRetry | markTasksDormant
  | markAffinePrereqs | markInFlight | openReservation =>
    refine outcome ?_
    exact prepares_of_eq (.of_eq rfl) rfl
  | markTasksInFlight => exact prepares_markTasksInFlight.outcome
  | extend => exact outcome_extend
  | popForWorker => exact outcome_popForWorker
  | takeSelected => exact outcome_takeAtIfReady
  | onItemFinished => exact outcome_onItemFinished
  | noteAffineTerminal phaseId taskId | noteAffineFailed phaseId taskId =>
    refine .decided _ ?_ decided_maybeTransitionDrain
    exact prepares_of_eq (.of_eq rfl) rfl
  | onItemFailedPermanent => exact outcome_onItemFailedPermanent
  | onItemFailedPendingRetry => exact outcome_onItemFailedPendingRetry
  | finalizeSoftFailures => exact outcome_finalizeSoftFailures
  | requeue item =>
    have hless : pool.Prepares [item] (pool.decrementInFlight item.phaseId) :=
      prepares_decrementInFlight
    have hpush := hless.trans (prepares_pushFront mem_cons_self)
    exact (hpush.trans (prepares_reactivate _ item.phaseId)).outcome
  | pushToQueueHead item =>
    have hpush : pool.Prepares [item] (pool.pushFront item) := prepares_pushFront mem_cons_self
    exact (hpush.trans (prepares_reactivate _ item.phaseId)).outcome
  | drainQueued =>
    have hsame : pool.SameCourse pool.drainQueued.1 := .of_eq rfl
    exact (prepares_mapWithKey (fun _ bucket => { bucket with items := [] }) hsame rfl
      fun _ _ => nil_subset _).outcome
  | releaseWorker => exact pinsMoved_releaseWorker.prepares.outcome
  | reconcileBlocked => exact prepares_reconcileBlocked.outcome
  | pollDrainTransitions =>
    have hrefl : pool.Prepares (pool.queuedBy .pollDrainTransitions) pool := .refl pool
    exact .quiet { hrefl with pending := nil_subset _ }
  | drainEmptyActivePhases => exact .decided pool (.refl pool) (decided_foldl _ pool)
  | retain pred =>
    have hsame : pool.SameCourse (pool.retain pred) := .of_eq rfl
    exact (prepares_mapWithKey (fun _ bucket => { bucket with items := bucket.items.filter pred })
      hsame rfl fun _ _ => filter_subset_self _).outcome
  | takeFirstMatch pred =>
    change pool.Outcome _ (((pool.takeFirstMatch pred).map Prod.snd).getD pool)
    cases htake : pool.takeFirstMatch pred with
    | none => exact (refl pool).outcome
    | some => exact (prepares_takeFirstMatch htake).outcome
  | redistributeMember member fallbacks =>
    refine outcome ?_
    change pool.Prepares _ (pool.redistributeMember member fallbacks)
    unfold redistributeMember
    split_ifs
    · exact prepares_of_eq (.of_eq rfl) rfl
    · exact .refl pool

section Activation

/-- Activation closes no phase. -/
theorem Activated.closed (h : pool.Activated pool') {p : PhaseId} (hclosed : pool'.Closed p) :
    pool.Closed p := by
  rcases h.phases p with hsame | ⟨-, hactive⟩
  · unfold Closed at hclosed ⊢
    rw [← hsame]
    exact hclosed
  · rw [Closed, hactive] at hclosed
    simp at hclosed

/-- Activating drains nothing. -/
theorem Activated.drained (h : pool.Activated pool') {p : PhaseId}
    (hdrained : pool'.phaseState.lookup p = some .drained) :
    pool.phaseState.lookup p = some .drained := by
  rcases h.phases p with hsame | ⟨-, hactive⟩
  · exact hsame ▸ hdrained
  · rw [hactive] at hdrained
    cases hdrained

variable (pool)

/-- Lifting barriers only activates. -/
theorem activated_setNoBarrierPhases (phases : List PhaseId) :
    pool.Activated (pool.setNoBarrierPhases phases) := by
  refine ⟨rfl, fun p => ?_⟩
  refine foldlRecOn (motive := fun states : HashMap PhaseId PhaseState =>
    states.lookup p = pool.phaseState.lookup p ∨
      pool.phaseState.lookup p = some .blocked ∧ states.lookup p = some .active)
    phases _ (.inl rfl) fun states h q _ => ?_
  rw [lookup_adjust]
  split_ifs with hp
  · subst hp
    rcases h with hsame | ⟨hblocked, hactive⟩
    · rw [hsame]
      cases hstate : pool.phaseState.lookup p with
      | none => exact .inl rfl
      | some state => cases state <;> simp
    · exact .inr ⟨hblocked, by simp [hactive]⟩
  · exact h

/-- Dropping imports prepares. -/
theorem prepares_dropAffineItems (phaseId : PhaseId) :
    pool.Prepares [] (pool.dropAffineItems phaseId) := by
  refine prepares_mapWithKey (fun key bucket => if key.phaseId = phaseId then
    { bucket with items := bucket.items.filter fun item => !item.kind.isSecondaryAffine }
    else bucket) (.of_eq rfl) rfl fun key bucket => ?_
  split_ifs
  · exact filter_subset_self _
  · exact Subset.refl _

/-- Seeding a list of phases as done. -/
theorem lookup_seeded (phases : List PhaseId) (states : HashMap PhaseId PhaseState) (p : PhaseId) :
    (phases.foldl (fun states p => states.adjust (fun _ => .done) p) states).lookup p =
        states.lookup p ∨
      p ∈ phases ∧
        (phases.foldl (fun states p => states.adjust (fun _ => .done) p) states).lookup p =
          some .done := by
  refine foldlRecOn (motive := fun acc : HashMap PhaseId PhaseState =>
    acc.lookup p = states.lookup p ∨ p ∈ phases ∧ acc.lookup p = some .done)
    phases _ (.inl rfl) fun acc h q hq => ?_
  rw [lookup_adjust]
  split_ifs with hp
  · subst hp
    cases hstate : acc.lookup p with
    | none =>
      rw [hstate] at h
      exact h.imp_right fun hdone => absurd hdone.2 (by simp)
    | some => exact .inr ⟨hq, rfl⟩
  · exact h

end Activation

section Reinject

/-- An item stands in the blocked map. -/
def IsBlocked (pool : PendingPool I) (item : TaskInfo I) : Prop :=
  ∃ id, pool.blocked.lookup id = some item

/-- What may be moved when dependents are committed anew: a blocked or a queued item. -/
def Reroutable (pool : PendingPool I) (item : TaskInfo I) : Prop :=
  pool.IsBlocked item ∨ item ∈ pool.queued

/-- While dependents are committed anew, what stands in the pool was in it before. -/
structure Rerouting (pool acc : PendingPool I) : Prop where
  queued : ∀ item ∈ acc.queued, pool.Reroutable item
  blocked : ∀ item, acc.IsBlocked item → pool.Reroutable item
  completedTasks : acc.completedTasks = pool.completedTasks
  affinePrereqIds : acc.affinePrereqIds = pool.affinePrereqIds

variable {acc acc' : PendingPool I}

/-- What is queued after a push. -/
theorem mem_queued_pushBack {other : TaskInfo I}
    (h : other ∈ (pool.pushBack item).queued) : other = item ∨ other ∈ pool.queued :=
  mem_cons.mp ((pool.queued_pushBack item).subset h)

/-- Committing an item that may be moved. -/
theorem Rerouting.commitItem (h : Rerouting pool acc) (hitem : pool.Reroutable item) :
    Rerouting pool (acc.commitItem item) := by
  unfold PendingPool.commitItem
  split_ifs
  · exact { h with }
  · split
    next =>
      refine { h with queued := fun other hother => ?_ }
      rcases mem_queued_pushBack hother with rfl | hother
      · exact hitem
      · exact h.queued other hother
    next =>
      refine { h with blocked := ?_ }
      rintro other ⟨b, hb⟩
      rw [lookup_blocked_block] at hb
      split_ifs at hb
      · cases hb
        exact hitem
      · exact h.blocked other ⟨b, hb⟩

/-- The queue is that of all phases. -/
theorem mem_queued_iff : item ∈ pool.queued ↔ ∃ p, item ∈ pool.queuedIn p := by
  simp only [queued, mem_contents, mem_queuedIn]
  constructor
  · rintro ⟨key, bucket, hbucket, hitem⟩
    exact ⟨key.phaseId, key, bucket, hbucket, rfl, hitem⟩
  · rintro ⟨-, key, bucket, hbucket, -, hitem⟩
    exact ⟨key, bucket, hbucket, hitem⟩

/-- A preparation that pushes nothing shrinks the queue. -/
theorem Prepares.queued_subset (h : pool.Prepares [] pool') : pool'.queued ⊆ pool.queued := by
  intro item hitem
  obtain ⟨p, hitem⟩ := mem_queued_iff.mp hitem
  exact mem_queued_iff.mpr ⟨p, h.queuedIn_subset p hitem⟩

/-- A preparation continues a rerouting. -/
theorem Rerouting.of_prepares (h : Rerouting pool acc) (hprepares : acc.Prepares [] acc')
    (hblocked : ∀ item, acc'.IsBlocked item → acc.IsBlocked item)
    (hcompleted : acc'.completedTasks = acc.completedTasks)
    (haffine : acc'.affinePrereqIds = acc.affinePrereqIds) : Rerouting pool acc' where
  queued := fun item hitem => h.queued item (hprepares.queued_subset hitem)
  blocked := fun item hitem => h.blocked item (hblocked item hitem)
  completedTasks := hcompleted.trans h.completedTasks
  affinePrereqIds := haffine.trans h.affinePrereqIds

/-- A taken item was queued. -/
theorem mem_queued_of_takeFirstMatch {pred : TaskInfo I → Bool}
    (h : pool.takeFirstMatch pred = some (item, pool')) : item ∈ pool.queued := by
  obtain ⟨key, index, rest, hremove, -, -⟩ := takeFirstMatch_eq_some h
  obtain ⟨bucket, hbucket, hfound, -⟩ := removeAt_eq_some hremove
  exact (mem_contents Bucket.items).mpr ⟨key, bucket, hbucket, mem_of_getElem? hfound⟩

/-- What is taken out of the pool to be committed anew. -/
theorem Rerouting.extract {depId : String}
    (h : Rerouting pool acc)
    (hextract : acc.extractLiveDependent depId = some (item, acc')) :
    Rerouting pool acc' ∧ pool.Reroutable item ∧ acc.Prepares pushed acc' := by
  unfold extractLiveDependent at hextract
  split at hextract
  next taken htake =>
    cases hextract
    have hmaps := (takes_takeFirstMatch htake).1.toSameMaps
    refine ⟨h.of_prepares (prepares_takeFirstMatch htake) (fun other => ?_) hmaps.completedTasks
      hmaps.affinePrereqIds, h.queued item (mem_queued_of_takeFirstMatch htake),
      prepares_takeFirstMatch htake⟩
    unfold IsBlocked
    rw [hmaps.blocked]
    exact fun hother => hother
  next =>
    obtain ⟨found, hfound, heq⟩ := Option.map_eq_some_iff.mp hextract
    cases heq
    have hfields : (acc.detach depId item).blocked = acc.blocked.erase depId ∧
        (acc.detach depId item).completedTasks = acc.completedTasks ∧
        (acc.detach depId item).affinePrereqIds = acc.affinePrereqIds := by
      unfold detach
      dsimp only
      split <;> exact ⟨rfl, rfl, rfl⟩
    refine ⟨h.of_prepares (prepares_detach hfound) ?_ hfields.2.1 hfields.2.2,
      h.blocked item ⟨depId, hfound⟩, prepares_detach hfound⟩
    exact fun other ⟨b, hb⟩ => ⟨b, lookup_of_erase (hfields.1 ▸ hb)⟩

/-- The items of the pool that wait for nothing once `id` is not complete. -/
def queuedAgain (pool : PendingPool I) (id : String) : List (TaskInfo I) :=
  (pool.queued ++ pool.blocked.entries.map fun e => e.2).filter fun item =>
    (unresolvedDeps { pool with completedTasks := pool.completedTasks.erase id } item).isEmpty

/-- A reroutable item whose dependencies are resolved is queued again. -/
theorem Reroutable.mem_queuedAgain (h : pool.Reroutable item)
    (hnil : unresolvedDeps { pool with completedTasks := pool.completedTasks.erase id } item = []) :
    item ∈ pool.queuedAgain id := by
  refine mem_filter.mpr ⟨?_, by rw [hnil]; rfl⟩
  rcases h with ⟨b, hb⟩ | hqueued
  · exact mem_append_right _ (mem_map.mpr ⟨⟨b, item⟩, mem_entries_iff.mpr hb, rfl⟩)
  · exact mem_append_left _ hqueued

variable {p : PhaseId}

/-- **A completed task is taken back.** Its dependents are committed anew, then the counts
decide. -/
theorem reblock_outcome {id : String} : ∃ middle, pool.Prepares (pool.queuedAgain id) middle ∧
      middle.Decided (pool.reblockDependentsOnUncompleted id) := by
  have hrefl : pool.Prepares (pool.queuedAgain id) pool := refl pool
  unfold reblockDependentsOnUncompleted
  split_ifs
  · exact ⟨pool, hrefl, .refl pool⟩
  · let uncompleted := { pool with completedTasks := pool.completedTasks.erase id }
    have hsame : pool.Prepares (pool.queuedAgain id) uncompleted := prepares_of_eq (.of_eq rfl) rfl
    have hstart : Rerouting uncompleted uncompleted :=
      ⟨fun _ hitem => .inr hitem, fun _ hitem => .inl hitem, rfl, rfl⟩
    have hfold : Rerouting uncompleted
          ((uncompleted.rerouteIds id).foldl rerouteDependent (uncompleted, [])).1 ∧
        pool.Prepares (pool.queuedAgain id)
          ((uncompleted.rerouteIds id).foldl rerouteDependent (uncompleted, [])).1 := by
      refine foldlRecOn (motive := fun acc : PendingPool I × List PhaseId =>
        Rerouting uncompleted acc.1 ∧ pool.Prepares (pool.queuedAgain id) acc.1) _ _
        ⟨hstart, hsame⟩ ?_
      rintro acc ⟨hacc, hbefore⟩ depId -
      unfold rerouteDependent
      split
      next => exact ⟨hacc, hbefore⟩
      next item acc' hextract =>
        obtain ⟨hacc', hitem, hprepares⟩ := hacc.extract hextract
        refine ⟨hacc'.commitItem hitem, hbefore.trans (hprepares.trans
          (prepares_commitItem fun _ hnil => ?_))⟩
        rw [unresolvedDeps_congr hacc'.completedTasks hacc'.affinePrereqIds] at hnil
        exact Reroutable.mem_queuedAgain hitem hnil
    exact ⟨_, hfold.2, decided_foldl _ _⟩
  · exact ⟨pool, hrefl, .refl pool⟩

/-- Putting an item at the back of its bucket and activating its phase. -/
structure Rearmed (pool : PendingPool I) (item : TaskInfo I) (pool' : PendingPool I) : Prop where
  phaseDeps : pool'.phaseDeps = pool.phaseDeps
  own : ¬ pool'.Closed item.phaseId
  phases : ∀ p, p ≠ item.phaseId → pool'.phaseState.lookup p = pool.phaseState.lookup p
  pending : ∀ p ∈ pool'.drainedPending, p ∈ pool.drainedPending ∧
    (p = item.phaseId → pool.phaseState.lookup p ≠ some .drained)
  queuedIn : ∀ p, p ≠ item.phaseId → pool'.queuedIn p = pool.queuedIn p
  queue : ∀ p, ∀ other ∈ pool'.queuedIn p, other ∈ pool.queuedIn p ∨ other = item ∧ item.phaseId = p
  rest : pool' = { pool with
    buckets := pool'.buckets
    phaseState := pool'.phaseState
    drainedPending := pool'.drainedPending }

/-- A push concerns its own phase. -/
theorem queuedIn_pushBack (hp : p ≠ item.phaseId) :
    (pool.pushBack item).queuedIn p = pool.queuedIn p := by
  have hown : decide (item.bucketKey.phaseId = p) = false := decide_eq_false (Ne.symm hp)
  unfold PendingPool.queuedIn pushBack
  rw [filter_upsert (p := fun key : BucketKey => decide (key.phaseId = p)) hown]

/-- A closed phase is rearmed. -/
theorem rearm_cases : pool.rearm p = pool ∧ ¬ pool.Closed p ∨ pool.rearm p = { pool with
        phaseState := pool.phaseState.insert p .active
        drainedPending := pool.drainedPending.filter (· ≠ p) } := by
  unfold rearm
  split
  next => exact .inr rfl
  next => exact .inr rfl
  next => exact .inr rfl
  next _ _ hdrained hdone => exact .inl ⟨rfl, fun hclosed => hclosed.elim hdrained hdone⟩

variable (pool)

/-- A pushed item rearms its phase. -/
theorem rearmed_pushBack (item : TaskInfo I) :
    pool.Rearmed item ((pool.pushBack item).rearm item.phaseId) := by
  have hqueue : ∀ p, ∀ other ∈ (pool.pushBack item).queuedIn p,
      other ∈ pool.queuedIn p ∨ other = item ∧ item.phaseId = p := by
    intro p other hother
    have hpushed : pool.Prepares [item] (pool.pushBack item) := prepares_pushBack mem_cons_self
    rcases hpushed.queue p other hother with hold | ⟨hnew, hp⟩
    · exact .inl hold
    · cases mem_singleton.mp hnew
      exact .inr ⟨rfl, hp⟩
  rcases rearm_cases with ⟨heq, hopen⟩ | heq
  · rw [heq]
    exact ⟨rfl, hopen, fun _ _ => rfl, fun p hp => ⟨hp, fun hown hdrained =>
      hopen (.inl (hown ▸ hdrained))⟩, fun p hp => queuedIn_pushBack hp, hqueue, rfl⟩
  · rw [heq]
    refine ⟨rfl, ?_, fun p hp => AList.lookup_insert_ne hp, fun p hp => ?_,
      fun p hp => queuedIn_pushBack hp, hqueue, rfl⟩
    · rw [Closed]
      simp [AList.lookup_insert]
    · obtain ⟨hp, hother⟩ := mem_filter.mp hp
      exact ⟨hp, fun hown => absurd hown (of_decide_eq_true hother)⟩

/-- **A task is queued again.** -/
theorem reinject_outcome (item : TaskInfo I) :
    ∃ middle next, pool.Prepares (pool.queuedAgain item.taskId) middle ∧
      middle.Decided next ∧ next.Rearmed item (pool.reinject item) := by
  let marked := { pool with
    softFailed := pool.softFailed.erase item.taskId
    dormantTasks := pool.dormantTasks.erase item.taskId }
  have hmarked : pool.Prepares (pool.queuedAgain item.taskId) marked :=
    prepares_of_eq (.of_eq rfl) rfl
  obtain ⟨middle, hprepares, hdecided⟩ := reblock_outcome
  exact ⟨middle, _, hmarked.trans hprepares, hdecided, rearmed_pushBack _ item⟩

end Reinject

end DynRunner.PendingPool
