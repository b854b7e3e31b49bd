import DynRunner.Pool.Consistency

/-!
# The dependency bookkeeping along every run

A run may use every operation of the pool, in any order. Three things break the bookkeeping, and
`Orderly` excludes them. An item that the pool still holds may come in a second time. A permanent
failure may cascade to a blocked task that is already recorded as failed: the walk takes the
record for proof that the task is gone and skips it, although a task that failed, was reinjected
and had to wait again is blocked. And an id may be recorded as complete, or an item be rewritten,
behind the back of the tasks that wait.
-/

namespace DynRunner

open HashMap List AList TaskInfo

variable {I : Type}

namespace PendingPool

variable {pool pool' : PendingPool I}

section Operations

variable {item : TaskInfo I}

/-- A hand-out keeps the books. -/
theorem Bookkept.takeAtIfReady (h : pool.Bookkept NoGap NoGap) (key : BucketKey) (index : ℕ)
    (worker : WorkerId) : (pool.takeAtIfReady key index worker).1.Bookkept NoGap NoGap := by
  unfold PendingPool.takeAtIfReady
  cases hremove : pool.removeAt key index with
  | none => exact h
  | some taken =>
    obtain ⟨item, rest⟩ := taken
    have htakes := takes_removeAt hremove
    dsimp only
    split_ifs
    · rw [takeAt, hremove]
      exact (h.of_queueShrinks htakes.queueShrinks).of_queueShrinks
        (queueShrinks_handOut rest key item worker)
    · exact (h.of_queueShrinks htakes.queueShrinks).commitItem (htakes.not_held h)

/-- A finished item keeps the books. -/
theorem Bookkept.onItemFinished (h : pool.Bookkept NoGap NoGap) (phaseId : PhaseId)
    (taskId : Option String) : (pool.onItemFinished phaseId taskId).Bookkept NoGap NoGap := by
  refine Bookkept.of_queueShrinks ?_ (phasesMoved_maybeTransitionDrain _ phaseId).queueShrinks
  cases taskId with
  | none => exact h.of_queueShrinks (SameMaps.queueShrinks (.of_eq rfl) rfl)
  | some id =>
    refine Bookkept.resolveCompletedDependents ?_ id
    exact h.of_queueShrinks (SameMaps.queueShrinks (.of_eq rfl) rfl)

variable {taskId x id : String} {w : CascadeWalk I} {update : TaskInfo I → TaskInfo I}

section

variable (h : pool.Bookkept NoGap NoGap)
include h

variable (phaseId : PhaseId)

/-- A finished import keeps the books, if nothing waits for it by its id alone. -/
theorem Bookkept.noteAffineTerminal (hid : taskId ∈ pool.affinePrereqIds ∨
      ∀ b ∈ pool.taskDeps.keys, taskId ∉ (pool.taskDeps.lookup b).getD []) :
    (pool.noteAffineTerminal phaseId taskId).Bookkept NoGap NoGap := by
  refine Bookkept.of_queueShrinks ?_ (phasesMoved_maybeTransitionDrain _ phaseId).queueShrinks
  exact
    { __ := h
      unmet := fun b item deps hitem hdeps d _ => by
        have hbefore := h.unmet b item deps hitem hdeps d not_noGap
        by_cases hd : d = taskId
        · -- Nobody waits for the import.
          subst hd
          refine ⟨fun hmem => absurd hmem ?_, fun hawaits =>
            absurd (Finset.mem_insert_self d pool.completedTasks) hawaits.2.1⟩
          rcases hid with haffine | hdeps'
          · exact fun hmem => (hbefore.mp hmem).2.2 haffine
          · have hnot := hdeps' b (lookup_isSome.mp (by rw [hdeps]; rfl))
            rw [hdeps] at hnot
            exact hnot
        · rw [hbefore]
          simp [Awaits, hd] }

/-- Queuing a new item keeps the books. -/
theorem Bookkept.reinject (hnot : ¬ pool.Holds item.taskId) :
    (pool.reinject item).Bookkept NoGap NoGap := by
  let cleared := { pool with
    softFailed := pool.softFailed.erase item.taskId
    dormantTasks := pool.dormantTasks.erase item.taskId }
  have hcleared : pool.QueueShrinks cleared := SameMaps.queueShrinks (.of_eq rfl) rfl
  obtain ⟨hreblocked, hheld⟩ := (h.of_queueShrinks hcleared).reblockDependents item.taskId
  have hpushed := hreblocked.pushBack fun hid => hnot (hcleared.holds (hheld _ hid))
  exact hpushed.of_queueShrinks (phasesMoved_rearm _ item.phaseId).queueShrinks

/-- Finding the orphans keeps the books. -/
theorem Bookkept.reconcileBlocked (depAlive : String → Bool) :
    (pool.reconcileBlocked depAlive).1.Bookkept NoGap NoGap := by
  refine foldlRecOn (motive := fun acc : PendingPool I × List (TaskInfo I) =>
    acc.1.Bookkept NoGap NoGap) _ _ h ?_
  rintro acc hacc id -
  unfold removeOrphan
  cases hitem : acc.1.blocked.lookup id with
  | none => exact hacc
  | some => exact (hacc.detach hitem).1

omit h in
/-- A cascade blocks nothing. -/
theorem blocked_cascadeFailDependent {b : String} (h : w.pool.blocked.lookup x = none) :
    (cascadeFailDependent w b).pool.blocked.lookup x = none := by
  unfold cascadeFailDependent
  split_ifs
  · exact h
  · split
    · exact h
    · change (w.pool.blocked.erase b).lookup x = none
      rw [lookup_erase_eq, h, ite_self]

omit h in
/-- A cascade blocks nothing. -/
theorem blocked_cascadeRounds {rounds : ℕ} (h : w.pool.blocked.lookup x = none) :
    (cascadeRounds rounds w).pool.blocked.lookup x = none :=
  cascadeRounds_induction (P := fun w => w.pool.blocked.lookup x = none) (fun _ _ _ h => h)
    (fun _ _ h => blocked_cascadeFailDependent h) rounds w h

omit h in
/-- A task that is not blocked fails for good while nothing that is recorded as failed is
blocked. -/
theorem Unfailed.cascade (h : pool.Unfailed NoGap) {softFailed : HashMap String PhaseId}
    {inFlightTasks : Finset String} (hid : pool.blocked.lookup id = none) (phases : List PhaseId) :
    (cascadeFailDependentsOf { pool with
      softFailed := softFailed
      inFlightTasks := inFlightTasks
      failedTasks := insert id pool.failedTasks } id phases).pool.Unfailed NoGap := by
  refine Unfailed.cascadeRounds ⟨h.bookkept.of_queueShrinks
    (SameMaps.queueShrinks (.of_eq rfl) rfl), ?_⟩ _
  exact (Finset.forall_mem_insert _ _ _).mpr ⟨hid, h.unfailed⟩

/-- A failure for good keeps the books, if no blocked item has failed. -/
theorem Bookkept.onItemFailedPermanent
    (hcond : ∀ b ∈ pool.blocked.keys, b ∉ pool.failedTasks ∧ b ≠ taskId) :
    (pool.onItemFailedPermanent phaseId taskId).1.Bookkept NoGap NoGap := by
  have hnone : ∀ b, b ∈ pool.failedTasks ∨ b = taskId → pool.blocked.lookup b = none := by
    intro b hb
    refine lookup_eq_none.mpr fun hmem => ?_
    exact hb.elim (hcond b hmem).1 (hcond b hmem).2
  have hstart : (pool.decrementInFlight phaseId).Unfailed NoGap :=
    ⟨h.of_queueShrinks (SameMaps.queueShrinks (.of_eq rfl) rfl), fun b hb => hnone b (Or.inl hb)⟩
  exact (hstart.cascade (hnone taskId (Or.inr rfl)) [phaseId]).bookkept.of_queueShrinks
    (phasesMoved_foldl _ _).queueShrinks

/-- So does finalizing the failures of a phase. -/
theorem Bookkept.finalizeSoftFailures (hcond : ∀ b ∈ pool.blocked.keys,
      b ∉ pool.failedTasks ∧ pool.softFailed.lookup b ≠ some phaseId) :
    (pool.finalizeSoftFailures phaseId).1.Bookkept NoGap NoGap := by
  -- The roots that are still to be finalized stay out of the blocked map.
  have hloop : ∀ (roots : List String)
      (acc : PendingPool I × List PhaseId × List (String × List (TaskInfo I))),
      acc.1.Unfailed NoGap → (∀ root ∈ roots, acc.1.blocked.lookup root = none) →
      (roots.foldl finalizeRoot acc).1.Unfailed NoGap := by
    intro roots
    induction roots with
    | nil => exact fun acc h _ => h
    | cons root roots ih =>
      intro acc h hroots
      refine ih _ (h.cascade (hroots root mem_cons_self) _) fun root' hroot' => ?_
      exact blocked_cascadeRounds (hroots root' (mem_cons_of_mem root hroot'))
  refine (hloop _ _ ⟨h, fun b hb => ?_⟩ fun root hroot => ?_).bookkept.of_queueShrinks
    (phasesMoved_foldl _ _).queueShrinks
  · exact lookup_eq_none.mpr fun hmem => (hcond b hmem).1 hb
  · refine lookup_eq_none.mpr fun hmem => (hcond root hmem).2 ?_
    obtain ⟨⟨root', phase⟩, hentry, rfl⟩ := mem_map.mp hroot
    obtain ⟨hentry, hphase⟩ := mem_filter.mp hentry
    rw [mem_entries_iff.mp hentry]
    exact congrArg some (of_decide_eq_true hphase)

end

/-- An update that keeps the id of an item, its phase and its dependencies. -/
def KeepsDependencies (update : TaskInfo I → TaskInfo I) : Prop :=
  ∀ item, (update item).taskId = item.taskId ∧ (update item).phaseId = item.phaseId ∧
    (update item).taskDependsOn = item.taskDependsOn

/-- Rewriting a queued item leaves the ids of the queue. -/
theorem queueShrinks_updateQueued (hupdate : KeepsDependencies update) {pred : TaskInfo I → Bool}
    {key : BucketKey} : pool.QueueShrinks { pool with
      buckets := pool.buckets.modify key fun bucket =>
        { bucket with items := updateFirst pred update bucket.items } } := by
  have hsame : (pool.buckets.modify key fun bucket =>
      { bucket with items := updateFirst pred update bucket.items }).contents
        (fun bucket => bucket.items.map taskId) =
      pool.buckets.contents fun bucket => bucket.items.map taskId := by
    refine BTreeMap.contents_mapWithKey (fun key' bucket => ?_)
    split_ifs
    · exact map_updateFirst (fun item => (hupdate item).1)
    · rfl
  refine ⟨.of_eq rfl, ?_⟩
  rw [queuedIds_eq, queuedIds_eq]
  exact (Perm.of_eq hsame).subperm

variable (h : pool.Bookkept NoGap NoGap)
include h

/-- Rewriting a blocked item keeps the bookkeeping. -/
theorem Bookkept.updateBlocked (hupdate : KeepsDependencies update)
    (hitem : pool.blocked.lookup id = some item) :
    ({ pool with blocked := pool.blocked.adjust update id }).Bookkept NoGap NoGap := by
  have hlookup : ∀ b item', (pool.blocked.adjust update id).lookup b = some item' →
      ∃ old, pool.blocked.lookup b = some old ∧ item'.taskId = old.taskId ∧
        item'.taskDependsOn = old.taskDependsOn := by
    intro b item' hb
    rw [lookup_adjust] at hb
    split_ifs at hb with hbid
    · rw [hitem, Option.map_some, Option.some.injEq] at hb
      exact ⟨item, hbid ▸ hitem, hb ▸ (hupdate item).1, hb ▸ (hupdate item).2.2⟩
    · exact ⟨item', hb, rfl, rfl⟩
  have hnone : ∀ b, (pool.blocked.adjust update id).lookup b = none ↔
      pool.blocked.lookup b = none := by
    intro b
    rw [lookup_adjust]
    split_ifs with hbid
    · rw [hbid, Option.map_eq_none_iff]
    · rfl
  exact
    { sameKeys := fun b => (hnone b).trans (h.sameKeys b)
      unmet := fun b item' deps hb hdeps d hd => by
        obtain ⟨old, hold, -, hsame⟩ := hlookup b item' hb
        rw [h.unmet b old deps hold hdeps d hd, Awaits, Awaits, Names, Names, hsame]
      __ := h
      counted := by
        rw [HashMap.adjust, hitem]
        exact h.counted.replace hitem (hupdate item).2.1
      ownId := fun b item' hb => by
        obtain ⟨old, hold, hsame, -⟩ := hlookup b item' hb
        rw [hsame, h.ownId b old hold]
      apart := fun x hx => (hnone x).mpr (h.apart x hx) }

/-- An update that keeps the dependencies keeps the books. -/
theorem Bookkept.updateFirstMatchInPlace (pred : TaskInfo I → Bool)
    (hupdate : KeepsDependencies update) :
    (pool.updateFirstMatchInPlace pred update).Bookkept NoGap NoGap := by
  unfold PendingPool.updateFirstMatchInPlace
  cases pool.buckets.entries.find? fun e => e.2.items.any pred with
  | some => exact h.of_queueShrinks (queueShrinks_updateQueued hupdate)
  | none =>
    cases hfind : pool.blocked.entries.find? fun e => pred e.2 with
    | none => exact h
    | some => exact h.updateBlocked hupdate (mem_entries_iff.mp (mem_of_find?_eq_some hfind))

/-- While nothing is blocked, nothing waits. -/
theorem Bookkept.of_nothing_blocked (hnone : pool.blocked = ∅)
    {completed affine : Finset String} : ({ pool with
      completedTasks := completed
      affinePrereqIds := affine }).Bookkept NoGap NoGap where
  __ := h
  unmet b item deps hitem := by
    rw [hnone] at hitem
    cases hitem

/-- The bookkeeping does not depend on the order in which a map is iterated. -/
theorem Bookkept.rehashed (hsame : pool.Rehashed pool') : pool'.Bookkept NoGap NoGap := by
  have hblocked : ∀ b, pool'.blocked.lookup b = pool.blocked.lookup b :=
    fun b => perm_lookup hsame.blocked
  have hdeps : ∀ b, pool'.taskDeps.lookup b = pool.taskDeps.lookup b :=
    fun b => perm_lookup hsame.taskDeps
  have hids : pool'.queuedIds = pool.queuedIds := by rw [queuedIds_eq, queuedIds_eq, hsame.buckets]
  exact
    { sameKeys := fun b => by rw [hblocked, hdeps]; exact h.sameKeys b
      unmet := fun b item deps hitem hdeps' d hd => by
        rw [hblocked] at hitem
        rw [hdeps] at hdeps'
        rw [h.unmet b item deps hitem hdeps' d hd, Awaits, Awaits, hsame.completedTasks,
          hsame.affinePrereqIds]
      listed := fun b deps hdeps' d hd hgap => by
        rw [hdeps] at hdeps'
        have hlists := h.listed b deps hdeps' d hd hgap
        rw [ReverseIndex.Lists, ← perm_lookup hsame.dependentsOf] at hlists
        exact hlists
      counted := fun phase => by
        rw [perm_lookup hsame.blockedPerPhase, h.counted phase, count_perm _ hsame.blocked]
      ownId := fun b item hitem => h.ownId b item (hblocked b ▸ hitem)
      distinct := hids ▸ h.distinct
      apart := fun id hid => by rw [hblocked]; exact h.apart id (hids ▸ hid) }

end Operations

section Runs

/-- The operations of a run in which each task id belongs to one phase, and in which the pool is
seeded only before the first batch. -/
def Allowed (phaseOf : String → PhaseId) (extended : Bool) : PoolOperation I → Prop
  | .markTasksCompleted _ | .markTasksFailed _ | .markTasksFailedPendingRetry _
  | .markTasksDormant _ | .markTasksInFlight _ | .markAffinePrereqs _ => extended = false
  | .extend batch => ∀ item ∈ batch, item.phaseId = phaseOf item.taskId
  | .requeue item | .pushToQueueHead item | .reinject item => item.phaseId = phaseOf item.taskId
  | .updateFirstMatchInPlace _ update => ∀ item, item.phaseId = phaseOf item.taskId →
      (update item).phaseId = phaseOf (update item).taskId
  | _ => True

/-- **The operations that keep the bookkeeping.** An item comes into the pool only if the pool
does not hold it. A permanent failure finds no blocked task that is recorded as failed, and the
failed task itself is not blocked. Completions and imports are seeded while nothing is blocked,
and the terminal of an import is noted only if nothing waits for it. An update leaves the id, the
phase and the dependencies. -/
def Orderly (pool : PendingPool I) : PoolOperation I → Prop
  | .markTasksCompleted _ | .markAffinePrereqs _ => pool.blocked = ∅
  | .noteAffineTerminal _ taskId => taskId ∈ pool.affinePrereqIds ∨
      ∀ b ∈ pool.taskDeps.keys, taskId ∉ (pool.taskDeps.lookup b).getD []
  | .onItemFailedPermanent _ taskId =>
    ∀ b ∈ pool.blocked.keys, b ∉ pool.failedTasks ∧ b ≠ taskId
  | .finalizeSoftFailures phaseId =>
    ∀ b ∈ pool.blocked.keys, b ∉ pool.failedTasks ∧ pool.softFailed.lookup b ≠ some phaseId
  | .requeue item | .pushToQueueHead item | .reinject item => ¬ pool.Holds item.taskId
  | .updateFirstMatchInPlace _ update => KeepsDependencies update
  | _ => True

/-- A pool that has just been built is empty. -/
theorem eq_fresh_of_new {phases : List PhaseId} {deps : HashMap PhaseId (List PhaseId)}
    (h : new phases deps = .ok pool) : pool = fresh phases.dedup deps := by
  unfold new at h
  dsimp only at h
  split at h
  · cases h
  · split at h
    · cases h
    · split_ifs at h
      exact (Except.ok.inj h).symm

variable {phaseOf : String → PhaseId}

/-- A batch of ids that belong to one phase each. -/
theorem Bookkept.extend (h : pool.Bookkept NoGap NoGap)
    {batch : List (TaskInfo I)} (hphase : ∀ item ∈ batch, item.phaseId = phaseOf item.taskId)
    (hok : pool.extend batch = .ok pool') : pool'.Bookkept NoGap NoGap := by
  obtain ⟨hidentity, hunknown, rfl⟩ := extend_eq_ok hok
  refine h.commitAll ?_ fun item hitem => (unknown_of_not_duplicate (hunknown item hitem)).1
  -- Two items with the same id have the same phase, so they have the same identity.
  refine Nodup.of_map (fun id => (toLex (phaseOf id, id) : TaskIdentity)) ?_
  rw [map_map]
  refine (map_congr_left fun item hitem => ?_) ▸ hidentity
  rw [identity, hphase item hitem]
  rfl

/-- The operations that leave the maps alone and at most take items out of the queues. -/
def onlyTakes : PoolOperation I → Bool
  | .setNoBarrierPhases _ | .markTasksFailed _ | .markTasksFailedPendingRetry _
  | .markTasksDormant _ | .markTasksInFlight _ | .noteAffineFailed _ _
  | .onItemFailedPendingRetry _ _ | .markInFlight _ | .drainQueued | .releaseWorker _
  | .pollDrainTransitions | .resurfaceDrainedPending | .markPhaseDone _ | .seedCompletedPhases _
  | .drainEmptyActivePhases | .retain _ | .takeFirstMatch _ | .openReservation _
  | .redistributeMember _ _ => true
  | _ => false

/-- An operation that only takes queues nothing. -/
theorem step_queueShrinks (pool : PendingPool I) {operation : PoolOperation I}
    (htakes : onlyTakes operation = true) : pool.QueueShrinks (pool.step operation) := by
  cases operation with
  | setNoBarrierPhases | markTasksFailed | markTasksFailedPendingRetry | markTasksDormant
  | pollDrainTransitions | resurfaceDrainedPending | openReservation =>
    exact SameMaps.queueShrinks (.of_eq rfl) rfl
  | markTasksInFlight items => exact queueShrinks_markTasksInFlight pool items
  | noteAffineFailed phaseId taskId => exact queueShrinks_noteAffineFailed pool phaseId taskId
  | onItemFailedPendingRetry phaseId taskId =>
    exact queueShrinks_onItemFailedPendingRetry pool phaseId taskId
  | markInFlight phaseId => exact queueShrinks_markInFlight pool phaseId
  | drainQueued =>
    exact queueShrinks_mapWithKey (fun _ bucket => { bucket with items := [] }) (.of_eq rfl) rfl
      fun _ bucket => nil_sublist bucket.items
  | releaseWorker => exact pinsMoved_releaseWorker.queueShrinks
  | markPhaseDone phaseId => exact queueShrinks_markPhaseDone pool phaseId
  | seedCompletedPhases => exact phasesMoved_seedCompletedPhases.queueShrinks
  | drainEmptyActivePhases => exact (phasesMoved_foldl _ pool).queueShrinks
  | retain pred =>
    exact queueShrinks_mapWithKey (fun _ bucket =>
      { bucket with items := bucket.items.filter pred })
      (.of_eq rfl) rfl fun _ _ => filter_sublist
  | takeFirstMatch pred =>
    change pool.QueueShrinks (((pool.takeFirstMatch pred).map Prod.snd).getD pool)
    cases htake : pool.takeFirstMatch pred with
    | none => exact .refl pool
    | some => exact (takes_takeFirstMatch htake).1.queueShrinks
  | redistributeMember member fallbacks =>
    exact queueShrinks_redistributeMember pool member fallbacks
  | _ => cases htakes

/-- One operation keeps the bookkeeping. -/
theorem Bookkept.step (h : pool.Bookkept NoGap NoGap)
    {extended : Bool} {operation : PoolOperation I} (hallowed : Allowed phaseOf extended operation)
    (horderly : pool.Orderly operation) : (pool.step operation).Bookkept NoGap NoGap := by
  by_cases htakes : onlyTakes operation = true
  · exact h.of_queueShrinks (step_queueShrinks pool htakes)
  cases operation with
  | markTasksCompleted | markAffinePrereqs => exact h.of_nothing_blocked horderly
  | extend batch =>
    rw [PendingPool.step]
    cases hok : pool.extend batch with
    | ok => exact h.extend hallowed hok
    | error => exact h
  | popForWorker worker =>
    change (pool.popForWorker worker).1.Bookkept NoGap NoGap
    unfold popForWorker
    split
    · exact h
    · split
      · exact h
      · exact h.takeAtIfReady _ _ worker
  | takeSelected key index worker => exact h.takeAtIfReady key index worker
  | onItemFinished phaseId taskId => exact h.onItemFinished phaseId taskId
  | noteAffineTerminal phaseId => exact h.noteAffineTerminal phaseId horderly
  | onItemFailedPermanent phaseId => exact h.onItemFailedPermanent phaseId horderly
  | finalizeSoftFailures phaseId => exact h.finalizeSoftFailures phaseId horderly
  | requeue item =>
    have hback := h.of_queueShrinks (queueShrinks_decrementInFlight pool item.phaseId)
    exact (hback.pushFront horderly).of_queueShrinks
      (phasesMoved_reactivate _ item.phaseId).queueShrinks
  | pushToQueueHead item =>
    exact (h.pushFront horderly).of_queueShrinks
      (phasesMoved_reactivate _ item.phaseId).queueShrinks
  | reinject => exact h.reinject horderly
  | reconcileBlocked depAlive => exact h.reconcileBlocked depAlive
  | updateFirstMatchInPlace pred => exact h.updateFirstMatchInPlace pred horderly
  | _ => exact absurd rfl htakes

/-- **The dependency bookkeeping along every run.** In every pool that orderly operations reach,
the blocked map and the unmet sets have the same keys, each unmet set holds exactly the declared
dependencies that are neither complete nor affine, the reverse index lists the task under each of
them, and the blocked tasks of each phase are counted. -/
theorem dependencies_consistent {phaseOf : String → PhaseId} {extended : Bool}
    (h : Reached (fun extended pool operation =>
      Allowed phaseOf extended operation ∧ pool.Orderly operation) extended pool) :
    pool.DependenciesConsistent := by
  refine Bookkept.dependenciesConsistent ?_
  induction h with
  | new hnew =>
    rw [eq_fresh_of_new hnew]
    exact bookkept_fresh _ _
  | step operation _ hcond ih => exact ih.step hcond.1 hcond.2
  | rehashed _ hsame ih => exact ih.rehashed hsame

end Runs

end PendingPool

namespace Sample

open PendingPool

/-- What operations leave of an empty pool with the one phase `"p"`. -/
def ran (operations : List (PoolOperation String)) : PendingPool String :=
  operations.foldl step (fresh ["p"] ∅)

/-- The sample pool is a new one. -/
theorem new_ran : new ["p"] ∅ = .ok (ran []) := rfl

/-- The sample has one phase. -/
theorem phaseId_eq : ∀ item ∈ [task "a" [], task "b" ["a"]], item.phaseId = "p" := by decide

/-- A dependent waits again when its prerequisite is injected once more, and fails with it. -/
theorem dependencies_consistent_reinjected :
    (ran [.extend [task "a" [], task "b" ["a"]], .popForWorker 0, .onItemFinished "p" (some "a"),
      .reinject (task "a" [])]).blocked.keys = ["b"] ∧
    (ran [.extend [task "a" [], task "b" ["a"]], .popForWorker 0, .onItemFinished "p" (some "a"),
      .reinject (task "a" []), .popForWorker 0,
      .onItemFailedPermanent "p" "a"]).DependenciesConsistent := by
  refine ⟨by decide, ?_⟩
  have hnew : Reached (fun extended pool operation =>
      Allowed (fun _ => "p") extended operation ∧ pool.Orderly operation) false (ran []) :=
    .new new_ran
  have hextended := hnew.step (.extend [task "a" [], task "b" ["a"]]) ⟨phaseId_eq, trivial⟩
  have hpopped := hextended.step (.popForWorker 0) ⟨trivial, trivial⟩
  have hfinished := hpopped.step (.onItemFinished "p" (some "a")) ⟨trivial, trivial⟩
  have hout : ¬ (ran [.extend [task "a" [], task "b" ["a"]], .popForWorker 0,
      .onItemFinished "p" (some "a")]).Holds "a" := by decide
  have hreinjected := hfinished.step (.reinject (task "a" [])) ⟨rfl, hout⟩
  have hagain := hreinjected.step (.popForWorker 0) ⟨trivial, trivial⟩
  have hblocked : ∀ b ∈ ["b"], b ∉ (∅ : Finset String) ∧ b ≠ "a" := by decide
  have hfailed := hagain.step (.onItemFailedPermanent "p" "a") ⟨trivial, hblocked⟩
  exact dependencies_consistent hfailed

/-- A task that failed permanently is injected again and waits for its prerequisite. The cascade
of the prerequisite passes it over, since it is still recorded as failed, and takes the reverse
index with it. The task stays blocked on a dependency that no longer lists it. -/
theorem unlisted_after_passed_over : ∃ pool : PendingPool String,
    Reached (fun extended _ operation => Allowed (fun _ => "p") extended operation) true pool ∧
      ¬ pool.DependenciesConsistent := by
  have hnew : Reached (fun extended _ operation => Allowed (fun _ => "p") extended operation)
      false (ran []) := .new new_ran
  have hextended := hnew.step (.extend [task "a" [], task "b" ["a"]]) phaseId_eq
  have hpopped := hextended.step (.popForWorker 0) trivial
  have hfinished := hpopped.step (.onItemFinished "p" (some "a")) trivial
  have hdependent := hfinished.step (.popForWorker 0) trivial
  have hfailed := hdependent.step (.onItemFailedPermanent "p" "b") trivial
  have hreinjected := hfailed.step (.reinject (task "b" ["a"])) rfl
  have hprerequisite := hreinjected.step (.reinject (task "a" [])) rfl
  have hagain := hprerequisite.step (.popForWorker 0) trivial
  have hended := hagain.step (.onItemFailedPermanent "p" "a") trivial
  refine ⟨_, hended, fun h => ?_⟩
  have hlisted := h.listed "b" ["a"] (by decide) "a" (by decide)
  revert hlisted
  decide

end Sample

end DynRunner
