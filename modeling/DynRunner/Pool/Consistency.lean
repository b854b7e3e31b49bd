import DynRunner.Pool.Bookkeeping
import DynRunner.Pool.Frame

/-!
# Every operation keeps the dependency bookkeeping

Most operations leave the dependency maps alone. The others are chains of the primitive changes:
a batch or an item that is not ready is committed, a completion is told to the dependents, a
failure cascades, a completed task that runs again has its dependents committed anew.
-/

namespace DynRunner.PendingPool

open BTreeMap HashMap ReverseIndex PendingPool SameMaps TaskInfo List Gap

variable {I : Type} {pool pool' : PendingPool I} {stale unlisted : String → String → Prop}

section Frame

/-- The queued ids, bucket by bucket. -/
theorem queuedIds_eq (pool : PendingPool I) :
    pool.queuedIds = pool.buckets.contents fun bucket => bucket.items.map taskId :=
  map_contents

/-- Where the maps and the buckets stay, nothing enters the queue. -/
theorem SameMaps.queueShrinks (h : pool.SameMaps pool')
    (hbuckets : pool'.buckets = pool.buckets) : pool.QueueShrinks pool' := by
  refine ⟨h, ?_⟩
  rw [queuedIds_eq, queuedIds_eq, hbuckets]

/-- Rewriting the buckets without adding an item. -/
theorem queueShrinks_mapWithKey (f : BucketKey → Bucket I → Bucket I) (h : pool.SameMaps pool')
    (hbuckets : pool'.buckets = pool.buckets.mapWithKey f)
    (hf : ∀ key bucket, (f key bucket).items.Sublist bucket.items) : pool.QueueShrinks pool' := by
  refine ⟨h, ?_⟩
  rw [queuedIds_eq, queuedIds_eq, hbuckets]
  exact (contents_mapWithKey_sublist (fun key bucket => (hf key bucket).map taskId)).subperm

/-- Moving phases queues nothing. -/
theorem PhasesMoved.queueShrinks (h : pool.PhasesMoved pool') : pool.QueueShrinks pool' := by
  obtain ⟨_, _, rfl⟩ := h
  exact queueShrinks (.of_eq rfl) rfl

/-- Moving pins queues nothing. -/
theorem PinsMoved.queueShrinks (h : pool.PinsMoved pool') : pool.QueueShrinks pool' := by
  obtain ⟨f, _, hf, rfl⟩ := h
  refine queueShrinks_mapWithKey f (.of_eq rfl) rfl fun key bucket => ?_
  rw [hf]

variable (pool) (phaseId : PhaseId)

/-- Counting an item queues nothing. -/
theorem queueShrinks_markInFlight : pool.QueueShrinks (pool.markInFlight phaseId) :=
  queueShrinks (.of_eq rfl) rfl

/-- Counting inherited items queues nothing. -/
theorem queueShrinks_markTasksInFlight (items : List (String × PhaseId)) :
    pool.QueueShrinks (pool.markTasksInFlight items) := by
  refine foldlRecOn items _ (.refl pool) fun acc h e _ => ?_
  dsimp only
  split_ifs
  · exact h
  · exact h.trans (queueShrinks (.of_eq rfl) rfl)

/-- Handing out an item queues nothing. -/
theorem queueShrinks_handOut (key : BucketKey) (item : TaskInfo I)
    (worker : WorkerId) : pool.QueueShrinks (pool.handOut key item worker) := by
  have hnoted : pool.QueueShrinks
      { pool with reservation := pool.reservation.noteTaken item.identity } :=
    queueShrinks (.of_eq rfl) rfl
  have hpinned := hnoted.trans (pinsMoved_pinWorker _ key worker).queueShrinks
  have hmarked := hpinned.trans (queueShrinks_markInFlight _ key.phaseId)
  unfold handOut
  dsimp only
  split_ifs
  · exact (hmarked.trans (pinsMoved_clearDrainedPins _ key).queueShrinks).trans
      (phasesMoved_maybeTransitionDrain _ key.phaseId).queueShrinks
  · exact hmarked

/-- Redistributing a member queues nothing. -/
theorem queueShrinks_redistributeMember (member : String)
    (fallbacks : List String) : pool.QueueShrinks (pool.redistributeMember member fallbacks) := by
  unfold redistributeMember
  split_ifs
  · exact queueShrinks (.of_eq rfl) rfl
  · exact .refl pool

/-- Dropping imports queues nothing. -/
theorem queueShrinks_dropAffineItems : pool.QueueShrinks (pool.dropAffineItems phaseId) := by
  refine queueShrinks_mapWithKey (fun key bucket => if key.phaseId = phaseId then
    { bucket with items := bucket.items.filter fun item => !item.kind.isSecondaryAffine }
    else bucket) (.of_eq rfl) rfl fun key bucket => ?_
  split_ifs
  · exact filter_sublist
  · exact Sublist.refl _

/-- Counting down queues nothing. -/
theorem queueShrinks_decrementInFlight : pool.QueueShrinks (pool.decrementInFlight phaseId) :=
  queueShrinks (.of_eq rfl) rfl

/-- A failed import queues nothing. -/
theorem queueShrinks_noteAffineFailed
    (taskId : String) : pool.QueueShrinks (pool.noteAffineFailed phaseId taskId) := by
  have hfailed : pool.QueueShrinks { pool with failedTasks := insert taskId pool.failedTasks } :=
    queueShrinks (.of_eq rfl) rfl
  exact hfailed.trans (phasesMoved_maybeTransitionDrain _ phaseId).queueShrinks

/-- A failure that may be tried again queues nothing. -/
theorem queueShrinks_onItemFailedPendingRetry
    (taskId : String) : pool.QueueShrinks (pool.onItemFailedPendingRetry phaseId taskId) := by
  refine QueueShrinks.trans ?_ (phasesMoved_maybeTransitionDrain _ phaseId).queueShrinks
  exact queueShrinks (.of_eq rfl) rfl

/-- The end of a phase queues nothing. -/
theorem queueShrinks_markPhaseDone : pool.QueueShrinks (pool.markPhaseDone phaseId) := by
  have hdone : pool.QueueShrinks
      { pool with phaseState := pool.phaseState.insert phaseId .done } :=
    queueShrinks (.of_eq rfl) rfl
  have hdropped := hdone.trans (queueShrinks_dropAffineItems _ phaseId)
  exact hdropped.trans (activated_activatePhases _).phasesMoved.queueShrinks

variable {pool}

/-- A smaller queue holds no more. -/
theorem QueueShrinks.holds (h : pool.QueueShrinks pool') {id : String} (hid : pool'.Holds id) :
    pool.Holds id := by
  refine hid.imp (fun hmem => h.queuedIds.subset hmem) fun hmem => ?_
  rw [h.blocked] at hmem
  exact hmem

end Frame

section Queue

/-- The ids after an item is pushed. -/
theorem queuedIds_pushBack (pool : PendingPool I) (item : TaskInfo I) :
    (pool.pushBack item).queuedIds.Perm (item.taskId :: pool.queuedIds) :=
  (pool.queued_pushBack item).map taskId

variable {item : TaskInfo I}

/-- Pushing a new item keeps the books. -/
theorem Bookkept.pushBack (h : pool.Bookkept stale unlisted)
    (hnot : ¬ pool.Holds item.taskId) : (pool.pushBack item).Bookkept stale unlisted :=
  h.enqueue hnot (.of_eq rfl) (queuedIds_pushBack pool item)

/-- The ids after an item is put in front. -/
theorem queuedIds_pushFront (pool : PendingPool I) (item : TaskInfo I) :
    (pool.pushFront item).queuedIds.Perm (item.taskId :: pool.queuedIds) :=
  (pool.queued_pushFront item).map taskId

/-- Putting a new item in front keeps the books. -/
theorem Bookkept.pushFront (h : pool.Bookkept stale unlisted)
    (hnot : ¬ pool.Holds item.taskId) : (pool.pushFront item).Bookkept stale unlisted :=
  h.enqueue hnot (.of_eq rfl) (queuedIds_pushFront pool item)

/-- An item has been taken from the queue. -/
structure Takes (pool : PendingPool I) (item : TaskInfo I) (pool' : PendingPool I) : Prop extends
    pool.SameMaps pool' where
  queuedIds : (item.taskId :: pool'.queuedIds).Subperm pool.queuedIds

/-- An item that is removed leaves its bucket. -/
theorem takes_removeAt {key : BucketKey} {index : ℕ}
    (h : pool.removeAt key index = some (item, pool')) : pool.Takes item pool' := by
  have hqueued := (queued_removeAt h).map taskId
  obtain ⟨bucket, -, -, rfl⟩ := removeAt_eq_some h
  exact ⟨.of_eq rfl, hqueued.symm.subperm⟩

section

variable (h : pool.Takes item pool')
include h

theorem Takes.trans {pool'' : PendingPool I}
    (hs : pool'.QueueShrinks pool'') : pool.Takes item pool'' :=
  ⟨h.toSameMaps.trans hs.toSameMaps,
    ((subperm_cons item.taskId).mpr hs.queuedIds).trans h.queuedIds⟩

/-- Taking an item queues nothing. -/
theorem Takes.queueShrinks : pool.QueueShrinks pool' :=
  ⟨h.toSameMaps, (sublist_cons_self _ _).subperm.trans h.queuedIds⟩

/-- A taken item is no longer held. -/
theorem Takes.not_held (hpool : pool.Bookkept stale unlisted) : ¬ pool'.Holds item.taskId := by
  rw [not_holds_iff]
  obtain ⟨l, hperm, hsub⟩ := h.queuedIds
  have hnodup := hperm.nodup_iff.mp (hpool.distinct.sublist hsub)
  refine ⟨(nodup_cons.mp hnodup).1, ?_⟩
  rw [h.blocked]
  exact hpool.apart item.taskId (h.queuedIds.subset mem_cons_self)

end

/-- A taken item satisfies the predicate. -/
theorem takes_takeFirstMatch {pred : TaskInfo I → Bool}
    (h : pool.takeFirstMatch pred = some (item, pool')) :
    pool.Takes item pool' ∧ pred item = true := by
  obtain ⟨key, index, rest, hremove, hpins, hpred, -⟩ := takeFirstMatch_eq_some h
  exact ⟨(takes_removeAt hremove).trans hpins.queueShrinks, hpred⟩

end Queue

section Commit

variable {item : TaskInfo I}

/-- Committing an item that the pool does not hold keeps the bookkeeping. -/
theorem Bookkept.commitItem (h : pool.Bookkept stale unlisted)
    (hnot : ¬ pool.Holds item.taskId) : (pool.commitItem item).Bookkept stale unlisted := by
  unfold PendingPool.commitItem
  split_ifs
  · exact h.of_queueShrinks (queueShrinks (.of_eq rfl) rfl)
  · split
    · exact h.pushBack hnot
    · exact h.block hnot

variable {id : String} {batch : List (TaskInfo I)}

/-- Committing an item lets no other id enter the queue. -/
theorem mem_queuedIds_commitItem (h : id ∈ (pool.commitItem item).queuedIds) :
    id = item.taskId ∨ id ∈ pool.queuedIds := by
  unfold commitItem at h
  split_ifs at h
  · exact .inr h
  · split at h
    · exact mem_cons.mp ((queuedIds_pushBack pool item).subset h)
    · exact .inr h

/-- Committing an item lets no other id be blocked. -/
theorem lookup_blocked_commitItem (h : id ≠ item.taskId) :
    (pool.commitItem item).blocked.lookup id = pool.blocked.lookup id := by
  unfold commitItem
  split_ifs
  · rfl
  · split
    · rfl
    · rw [lookup_blocked_block, if_neg h]

/-- Committing an item lets the pool hold no other id. -/
theorem holds_commitItem (h : (pool.commitItem item).Holds id) :
    id = item.taskId ∨ pool.Holds id := by
  by_contra hno
  rw [not_or, not_holds_iff] at hno
  obtain ⟨hne, hqueue, hblocked⟩ := hno
  rcases h with hqueued | hkey
  · exact (mem_queuedIds_commitItem hqueued).elim hne hqueue
  · rw [← lookup_blocked_commitItem hne, AList.lookup_eq_none] at hblocked
    exact hblocked hkey

/-- Committing items with distinct ids that the pool does not hold. -/
theorem Bookkept.commitAll (h : pool.Bookkept stale unlisted) (hdistinct : (batch.map taskId).Nodup)
    (hfresh : ∀ item ∈ batch, ¬ pool.Holds item.taskId) :
    (batch.foldl PendingPool.commitItem pool).Bookkept stale unlisted := by
  induction batch generalizing pool with
  | nil => exact h
  | cons item batch ih =>
    rw [map_cons, nodup_cons] at hdistinct
    refine ih (h.commitItem (hfresh item mem_cons_self)) hdistinct.2 fun item' hitem' hheld => ?_
    rcases holds_commitItem hheld with heq | hheld
    · exact hdistinct.1 (heq ▸ mem_map_of_mem hitem')
    · exact hfresh item' (mem_cons_of_mem item hitem') hheld

/-- A batch without a repeated identity. -/
theorem nodup_of_repeatedInBatch {seen : List TaskIdentity}
    (h : repeatedInBatch seen batch = none) :
    (batch.map identity).Nodup ∧ ∀ item ∈ batch, item.identity ∉ seen := by
  induction batch generalizing seen with
  | nil => simp
  | cons item batch ih =>
    rw [repeatedInBatch] at h
    split_ifs at h with hseen
    obtain ⟨hnodup, hrest⟩ := ih h
    refine ⟨?_, fun item' hitem' => ?_⟩
    · rw [map_cons, nodup_cons]
      refine ⟨fun hmem => ?_, hnodup⟩
      obtain ⟨item', hitem', heq⟩ := mem_map.mp hmem
      exact hrest item' hitem' (heq ▸ mem_cons_self)
    · rcases mem_cons.mp hitem' with rfl | hitem'
      · exact hseen
      · exact fun hmem => hrest item' hitem' (mem_cons_of_mem _ hmem)

/-- What an accepted batch looks like, and what becomes of it. -/
theorem extend_eq_ok (h : pool.extend batch = .ok pool') :
    (batch.map identity).Nodup ∧ (∀ item ∈ batch, ¬ pool.isDuplicate item) ∧
      pool' = batch.foldl commitItem pool := by
  unfold extend at h
  cases hcheck : pool.checkBatch batch with
  | some => simp [hcheck] at h
  | none =>
    simp only [hcheck, Except.ok.injEq] at h
    unfold checkBatch at hcheck
    cases hrepeat : repeatedInBatch [] batch with
    | some => simp [hrepeat] at hcheck
    | none =>
      cases hfind : batch.find? pool.isDuplicate with
      | some => simp [hrepeat, hfind] at hcheck
      | none => exact ⟨(nodup_of_repeatedInBatch hrepeat).1, find?_eq_none.mp hfind, h.symm⟩

/-- The pool has nothing under the id of an item that is not a duplicate, and it does not queue
or block an item of the same identity. -/
theorem unknown_of_not_duplicate (h : ¬ pool.isDuplicate item) :
    ¬ pool.Holds item.taskId ∧ item.taskId ∉ pool.failedTasks ∧
      item.identity ∉ pool.queued.map identity ∧
      ∀ b other, pool.blocked.lookup b = some other → other.identity ≠ item.identity := by
  simp only [isDuplicate, collectKnownPhaseTaskIds, collectKnownTaskIds, Bool.or_eq_true,
    decide_eq_true_eq, mem_append, Finset.mem_union, mem_toFinset, not_or] at h
  obtain ⟨⟨hqueued, hblocked⟩, ⟨⟨⟨⟨⟨hqueue, hkeys⟩, -⟩, hfailed⟩, -⟩, -⟩, -⟩ := h
  refine ⟨fun hheld => hheld.elim hqueue hkeys, hfailed, hqueued, fun b other hother heq => ?_⟩
  exact hblocked (mem_map.mpr ⟨⟨b, other⟩, mem_entries_iff.mpr hother, heq⟩)

end Commit

section Detach

variable {b : String} {item : TaskInfo I}

section

variable (h : pool.Bookkept stale unlisted) (hitem : pool.blocked.lookup b = some item)
include h hitem

/-- A blocked task has a set of unmet dependencies. -/
theorem Bookkept.exists_deps : ∃ deps, pool.taskDeps.lookup b = some deps := by
  rw [← Option.ne_none_iff_exists']
  intro hnone
  rw [(h.sameKeys b).mpr hnone] at hitem
  cases hitem

/-- A blocked task is not queued. -/
theorem Bookkept.not_queued : b ∉ pool.queuedIds := by
  intro hmem
  rw [h.apart b hmem] at hitem
  cases hitem

/-- Taking a blocked item out with its edges keeps the bookkeeping. -/
theorem Bookkept.detach : (pool.detach b item).Bookkept stale unlisted ∧
      (pool.detach b item).blocked.lookup b = none ∧
      (pool.detach b item).queuedIds = pool.queuedIds := by
  obtain ⟨deps, hdeps⟩ := h.exists_deps hitem
  have heq : pool.detach b item = { pool.unblock b item with
      taskDeps := pool.taskDeps.erase b
      dependentsOf := pool.dependentsOf.unlink deps b } := by
    unfold PendingPool.detach PendingPool.unblock
    dsimp only
    rw [hdeps]
  rw [heq]
  refine ⟨h.drop hitem rfl rfl rfl (fun d k hk hlists => ?_) rfl rfl rfl,
    AList.lookup_erase b _, rfl⟩
  exact lists_unlink.mpr ⟨hlists, fun hb => hk hb.2⟩

/-- Queueing a blocked item that waits for nothing keeps the bookkeeping. -/
theorem Bookkept.release :
    (({ pool with taskDeps := pool.taskDeps.erase b }).release b item).Bookkept stale unlisted ∧
      (({ pool with taskDeps := pool.taskDeps.erase b }).release b item).blocked.lookup
        b = none := by
  let dropped := ({ pool with taskDeps := pool.taskDeps.erase b }).unblock b item
  have hdropped : dropped.Bookkept stale unlisted :=
    h.drop hitem rfl rfl rfl (fun _ _ _ hlists => hlists) rfl rfl rfl
  have hb : item.taskId = b := h.ownId b item hitem
  have hnone : dropped.blocked.lookup b = none := AList.lookup_erase b pool.blocked
  have hnot : ¬ dropped.Holds item.taskId := by
    rw [hb]
    exact not_holds_iff.mpr ⟨h.not_queued hitem, hnone⟩
  have hpushed := hdropped.pushFront hnot
  have hframe : (dropped.pushFront item).QueueShrinks
      (({ pool with taskDeps := pool.taskDeps.erase b }).release b item) :=
    (phasesMoved_reactivate (dropped.pushFront item) item.phaseId).queueShrinks.trans
      (queueShrinks (.of_eq rfl) rfl)
  refine ⟨hpushed.of_queueShrinks hframe, ?_⟩
  rw [hframe.blocked]
  exact hnone

end

/-- Detaching an item brings none. -/
theorem holds_detach {x : String} (h : (pool.detach b item).Holds x) : pool.Holds x := by
  have hsame : (pool.detach b item).queuedIds = pool.queuedIds ∧
      (pool.detach b item).blocked = pool.blocked.erase b := by
    unfold detach
    dsimp only
    split <;> exact ⟨rfl, rfl⟩
  refine h.imp (fun hmem => hsame.1 ▸ hmem) fun hmem => ?_
  rw [hsame.2] at hmem
  exact (AList.mem_erase.mp hmem).2

end Detach

section Completion

variable {id : String} {tasks : List String}

/-- A dependent that has been told is no longer suspended. -/
theorem Bookkept.resolveDependent (h : pool.Bookkept (Gap id (b :: tasks)) (Gap id (b :: tasks)))
    (hid : id ∈ pool.completedTasks) :
    (pool.resolveDependent id b).Bookkept (Gap id tasks) (Gap id tasks) ∧
      id ∈ (pool.resolveDependent id b).completedTasks := by
  unfold PendingPool.resolveDependent
  cases hdeps : pool.taskDeps.lookup b with
  | none =>
    have hb := (h.sameKeys b).mpr hdeps
    exact ⟨h.suspend (narrow hb) (narrow hb), hid⟩
  | some deps =>
    dsimp only
    split_ifs with hempty
    · -- Nothing is left to wait for.
      cases hitem : pool.blocked.lookup b with
      | none =>
        rw [(h.sameKeys b).mp hitem] at hdeps
        cases hdeps
      | some item =>
        obtain ⟨hreleased, hb⟩ := h.release hitem
        refine ⟨hreleased.suspend (narrow hb) (narrow hb), ?_⟩
        have hsame := (phasesMoved_reactivate ((({ pool with
          taskDeps := pool.taskDeps.erase b }).unblock b item).pushFront item)
            item.phaseId).queueShrinks
        change id ∈ (reactivate _ item.phaseId).completedTasks
        rw [hsame.completedTasks]
        exact hid
    · -- The completed task leaves the set, and the rest stays.
      refine ⟨?_, hid⟩
      exact
        { sameKeys := fun b' => by
            rw [lookup_insert_eq]
            split_ifs with hb'
            · rw [hb']
              simp [h.sameKeys b, hdeps]
            · exact h.sameKeys b'
          unmet := fun b' item deps' hitem hdeps' d hd => by
            rw [lookup_insert_eq] at hdeps'
            split_ifs at hdeps' with hb'
            · subst hb'
              cases hdeps'
              rw [mem_filter, decide_eq_true_eq]
              by_cases hdid : d = id
              · subst hdid
                exact ⟨fun hmem => absurd rfl hmem.2, fun hawaits => absurd hid hawaits.2.1⟩
              · rw [h.unmet b' item deps hitem hdeps d fun hgap => hdid hgap.1]
                exact ⟨fun hmem => hmem.1, fun hawaits => ⟨hawaits, hdid⟩⟩
            · refine h.unmet b' item deps' hitem hdeps' d fun hgap => hd ⟨hgap.1, ?_⟩
              exact (mem_cons.mp hgap.2).resolve_left hb'
          listed := fun b' deps' hdeps' d hd hgap => by
            rw [lookup_insert_eq] at hdeps'
            split_ifs at hdeps' with hb'
            · subst hb'
              cases hdeps'
              rw [mem_filter, decide_eq_true_eq] at hd
              exact h.listed b' deps hdeps d hd.1 fun hgap' => hd.2 hgap'.1
            · refine h.listed b' deps' hdeps' d hd fun hgap' => hgap ⟨hgap'.1, ?_⟩
              exact (mem_cons.mp hgap'.2).resolve_left hb'
          __ := h }

/-- **A completion.** After the dependents have been told, the bookkeeping is right again. -/
theorem Bookkept.resolveCompletedDependents (h : pool.Bookkept NoGap NoGap) (id : String) :
    (pool.resolveCompletedDependents id).Bookkept NoGap NoGap := by
  -- The tasks that are still to be told are suspended at the completed one.
  have hloop : ∀ (tasks : List String) (pool : PendingPool I),
      pool.Bookkept (Gap id tasks) (Gap id tasks) → id ∈ pool.completedTasks →
      (tasks.foldl (PendingPool.resolveDependent id) pool).Bookkept NoGap NoGap := by
    intro tasks
    induction tasks with
    | nil => exact fun pool h _ => h.suspend (fun _ _ _ => gap_nil) fun _ _ _ => gap_nil
    | cons b tasks ih =>
      intro pool h hid
      obtain ⟨hnext, hid'⟩ := h.resolveDependent hid
      exact ih (pool.resolveDependent id b) hnext hid'
  refine hloop _ _ ?_ (Finset.mem_insert_self id pool.completedTasks)
  exact
    { __ := h
      unmet := fun b item deps hitem hdeps d hd => by
        rw [h.unmet b item deps hitem hdeps d not_noGap]
        by_cases hdid : d = id
        · -- A task that is not listed does not wait for the completed one.
          subst hdid
          refine ⟨fun hawaits => absurd ?_ hd, fun hawaits =>
            absurd (Finset.mem_insert_self d pool.completedTasks) hawaits.2.1⟩
          exact ⟨rfl, h.listed b deps hdeps d
            ((h.unmet b item deps hitem hdeps d not_noGap).mpr hawaits) not_noGap⟩
        · simp [Awaits, hdid]
      listed := fun b deps hdeps d hd hgap => by
        have hlists := h.listed b deps hdeps d hd not_noGap
        refine lists_erase.mpr ⟨fun hdid => hgap ?_, hlists⟩
        subst hdid
        exact ⟨rfl, hlists⟩ }

end Completion

section Reblock

variable {id : String} {tasks : List String}

/-- A dependent that has been committed anew is no longer suspended. -/
theorem Bookkept.rerouteDependent {phases : List PhaseId}
    (h : pool.Bookkept (Gap id (b :: tasks)) NoGap) :
    (rerouteDependent (pool, phases) b).1.Bookkept (Gap id tasks) NoGap ∧
      ∀ x, (rerouteDependent (pool, phases) b).1.Holds x → pool.Holds x := by
  unfold PendingPool.rerouteDependent extractLiveDependent
  cases htake : pool.takeFirstMatch fun item => item.taskId = b with
  | some taken =>
    obtain ⟨item, rest⟩ := taken
    obtain ⟨htakes, hid⟩ := takes_takeFirstMatch htake
    have hnot := htakes.not_held h
    rw [decide_eq_true_eq] at hid
    subst hid
    have hrest := (h.of_queueShrinks htakes.queueShrinks).suspend
      (narrow (not_holds_iff.mp hnot).2) fun _ _ _ hgap => hgap
    refine ⟨hrest.commitItem hnot, fun x hx => ?_⟩
    rcases holds_commitItem hx with rfl | hx
    · exact .inl (htakes.queuedIds.subset mem_cons_self)
    · exact htakes.queueShrinks.holds hx
  | none =>
    cases hitem : pool.blocked.lookup b with
    | none => exact ⟨h.suspend (narrow hitem) fun _ _ _ hgap => hgap, fun _ hx => hx⟩
    | some item =>
      obtain ⟨hdetached, hblocked, hids⟩ := h.detach hitem
      have hb : item.taskId = b := h.ownId b item hitem
      have hnot : ¬ (pool.detach b item).Holds item.taskId := by
        rw [not_holds_iff, hids, hb]
        exact ⟨h.not_queued hitem, hblocked⟩
      refine ⟨(hdetached.suspend (narrow hblocked) fun _ _ _ hgap => hgap).commitItem hnot,
        fun x hx => ?_⟩
      rcases holds_commitItem hx with rfl | hx
      · exact .inr (AList.lookup_isSome.mp (by rw [hb, hitem]; rfl))
      · exact holds_detach hx

/-- **A completed task runs again.** After its dependents have been committed anew, the
bookkeeping is right again. -/
theorem Bookkept.reblockDependents (h : pool.Bookkept NoGap NoGap) (id : String) :
    (pool.reblockDependentsOnUncompleted id).Bookkept NoGap NoGap ∧
      ∀ x, (pool.reblockDependentsOnUncompleted id).Holds x → pool.Holds x := by
  unfold reblockDependentsOnUncompleted
  split_ifs with haffine hcompleted
  · exact ⟨h, fun _ hx => hx⟩
  · -- The dependents that are still to be committed are suspended at the task.
    have hloop : ∀ (tasks : List String) (acc : PendingPool I × List PhaseId),
        acc.1.Bookkept (Gap id tasks) NoGap →
        (tasks.foldl PendingPool.rerouteDependent acc).1.Bookkept NoGap NoGap ∧
          ∀ x, (tasks.foldl PendingPool.rerouteDependent acc).1.Holds x → acc.1.Holds x := by
      intro tasks
      induction tasks with
      | nil =>
        exact fun acc h => ⟨h.suspend (fun _ _ _ => gap_nil) fun _ _ _ hgap => hgap, fun _ hx => hx⟩
      | cons b tasks ih =>
        intro acc h
        obtain ⟨hnext, hheld⟩ := h.rerouteDependent
        obtain ⟨hlast, hheld'⟩ := ih _ hnext
        exact ⟨hlast, fun x hx => hheld x (hheld' x hx)⟩
    have hstart : ({ pool with completedTasks := pool.completedTasks.erase id }).Bookkept
        (Gap id (rerouteIds { pool with completedTasks := pool.completedTasks.erase id } id))
        NoGap := ?_
    · obtain ⟨hblocked, hheld⟩ := hloop _ (_, []) hstart
      exact ⟨hblocked.of_queueShrinks (phasesMoved_foldl _ _).queueShrinks,
        fun x hx => hheld x ((phasesMoved_foldl _ _).queueShrinks.holds hx)⟩
    exact
      { __ := h
        unmet := fun b item deps hitem hdeps d hd => by
          rw [h.unmet b item deps hitem hdeps d not_noGap]
          by_cases hdid : d = id
          · -- An item that names the task is among those to be committed.
            subst hdid
            refine ⟨fun hawaits => absurd hcompleted hawaits.2.1, fun hawaits => absurd ?_ hd⟩
            refine ⟨rfl, mem_map.mpr ⟨item, mem_filter.mpr ⟨?_, ?_⟩, h.ownId b item hitem⟩⟩
            · exact mem_append_right _ (mem_map.mpr ⟨⟨b, item⟩, mem_entries_iff.mpr hitem, rfl⟩)
            · exact decide_eq_true hawaits.1
          · simp [Awaits, hdid] }
  · exact ⟨h, fun _ hx => hx⟩

end Reblock

section Cascade

/-- The bookkeeping is right and no blocked task is recorded as failed. -/
structure Unfailed (pool : PendingPool I) (unlisted : String → String → Prop) : Prop where
  bookkept : pool.Bookkept NoGap unlisted
  unfailed : ∀ b ∈ pool.failedTasks, pool.blocked.lookup b = none

variable {id : String} {tasks : List String} {w : CascadeWalk I}

/-- A dependent that has been failed is no longer suspended. -/
theorem Unfailed.cascadeFailDependent (h : w.pool.Unfailed (Gap id (b :: tasks))) :
    (cascadeFailDependent w b).pool.Unfailed (Gap id tasks) := by
  unfold PendingPool.cascadeFailDependent
  split_ifs with hfailed
  · exact ⟨h.bookkept.suspend (fun _ _ _ hgap => hgap) (narrow (h.unfailed b hfailed)), h.unfailed⟩
  · cases hitem : w.pool.blocked.lookup b with
    | none =>
      have hdeps : w.pool.taskDeps.erase b = w.pool.taskDeps :=
        erase_of_lookup_none ((h.bookkept.sameKeys b).mp hitem)
      have hsame : w.pool.QueueShrinks (w.pool.recordCascaded b) :=
        queueShrinks ⟨rfl, hdeps, rfl, rfl, rfl, rfl⟩ rfl
      refine ⟨(h.bookkept.of_queueShrinks hsame).suspend (fun _ _ _ hgap => hgap)
        (narrow hitem), fun b' hb' => ?_⟩
      rcases Finset.mem_insert.mp hb' with rfl | hb'
      · exact hitem
      · exact h.unfailed b' hb'
    | some item =>
      have hdropped : ((w.pool.recordCascaded b).unblock b item).Bookkept NoGap
          (Gap id (b :: tasks)) :=
        h.bookkept.drop hitem rfl rfl rfl (fun _ _ _ hlists => hlists) rfl rfl rfl
      have hnone : ((w.pool.recordCascaded b).unblock b item).blocked.lookup b = none :=
        AList.lookup_erase b w.pool.blocked
      refine ⟨hdropped.suspend (fun _ _ _ hgap => hgap) (narrow hnone), fun b' hb' => ?_⟩
      rcases Finset.mem_insert.mp hb' with rfl | hb'
      · exact hnone
      · change (w.pool.blocked.erase b).lookup b' = none
        rw [lookup_erase_eq, h.unfailed b' hb', ite_self]

/-- One round of the walk. -/
theorem Unfailed.cascadeRounds (h : w.pool.Unfailed NoGap) (rounds : ℕ) :
    (cascadeRounds rounds w).pool.Unfailed NoGap := by
  induction rounds generalizing w with
  | zero => exact h
  | succ rounds ih =>
    rw [cascadeRounds]
    cases hfrontier : w.frontier with
    | nil => exact h
    | cons failedId =>
      -- The dependents that are still to be failed are suspended at the failed task.
      have hloop : ∀ (tasks : List String) (w : CascadeWalk I),
          w.pool.Unfailed (Gap failedId tasks) →
          (tasks.foldl PendingPool.cascadeFailDependent w).pool.Unfailed NoGap := by
        intro tasks
        induction tasks with
        | nil =>
          exact fun w h => ⟨h.bookkept.suspend (fun _ _ _ hgap => hgap) fun _ _ _ => gap_nil,
            h.unfailed⟩
        | cons b tasks ih => exact fun w h => ih _ h.cascadeFailDependent
      refine ih (hloop _ _ ⟨?_, h.unfailed⟩)
      have hb := h.bookkept
      exact
        { __ := hb
          listed := fun b deps hdeps d hd hgap => by
            have hlists := hb.listed b deps hdeps d hd not_noGap
            refine lists_erase.mpr ⟨fun hdid => hgap ?_, hlists⟩
            subst hdid
            exact ⟨rfl, hlists⟩ }

end Cascade

end DynRunner.PendingPool
