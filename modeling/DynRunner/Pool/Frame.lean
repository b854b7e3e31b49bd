import DynRunner.Pool.Dispatch

/-!
# What the phases and the pins leave alone

Many operations end with a decision about a phase, or let a worker hold on to a bucket or let go of
it. Both change a few fields of the pool, and no item moves. An item that is removed leaves its
bucket and nothing else.
-/

namespace DynRunner.PendingPool

open HashMap List

variable {I : Type} {pool pool' pool'' : PendingPool I}

section Phases

/-- Only the states of the phases and the notifications differ. -/
def PhasesMoved (pool pool' : PendingPool I) : Prop :=
  ∃ phaseState drainedPending, pool' = { pool with phaseState, drainedPending }

theorem PhasesMoved.refl (pool : PendingPool I) : pool.PhasesMoved pool := ⟨_, _, rfl⟩

theorem PhasesMoved.trans (h : pool.PhasesMoved pool') (h' : pool'.PhasesMoved pool'') :
    pool.PhasesMoved pool'' := by
  obtain ⟨_, _, rfl⟩ := h
  obtain ⟨_, _, rfl⟩ := h'
  exact ⟨_, _, rfl⟩

variable (pool) (phaseId : PhaseId)

/-- A drain transition moves a phase. -/
theorem phasesMoved_maybeTransitionDrain :
    pool.PhasesMoved (pool.maybeTransitionDrain phaseId) := by
  unfold maybeTransitionDrain
  split
  · exact .refl pool
  · dsimp only
    split_ifs
    · exact .refl pool
    · exact ⟨_, _, rfl⟩
    · exact .refl pool

/-- Several drain transitions move phases. -/
theorem phasesMoved_foldl (phases : List PhaseId) (pool : PendingPool I) :
    pool.PhasesMoved (phases.foldl maybeTransitionDrain pool) :=
  List.foldlRecOn phases maybeTransitionDrain (.refl pool)
    fun _ h p _ => h.trans (phasesMoved_maybeTransitionDrain _ p)

/-- Reactivating moves a phase. -/
theorem phasesMoved_reactivate : pool.PhasesMoved (pool.reactivate phaseId) := by
  unfold reactivate
  split_ifs
  · exact ⟨_, _, rfl⟩
  · exact .refl pool

/-- Rearming moves a phase. -/
theorem phasesMoved_rearm : pool.PhasesMoved (pool.rearm phaseId) := by
  unfold rearm
  split <;> exact ⟨_, _, rfl⟩

/-- A change that leads from one state to another is not made twice. -/
theorem once_trans {s t a b c : Option PhaseState} (hne : t ≠ s) (h : b = a ∨ a = s ∧ b = t)
    (h' : c = b ∨ b = s ∧ c = t) : c = a ∨ a = s ∧ c = t := by
  rcases h' with rfl | ⟨rfl, rfl⟩
  · exact h
  · rcases h with rfl | ⟨-, hsame⟩
    · exact .inr ⟨rfl, rfl⟩
    · exact absurd hsame.symm hne

/-- Some blocked phases have become active, and nothing else happened. -/
structure Activated (pool pool' : PendingPool I) : Prop where
  same : pool' = { pool with phaseState := pool'.phaseState }
  phases : ∀ p, pool'.phaseState.lookup p = pool.phaseState.lookup p ∨
    pool.phaseState.lookup p = some .blocked ∧ pool'.phaseState.lookup p = some .active

theorem Activated.refl : pool.Activated pool := ⟨rfl, fun _ => .inl rfl⟩

variable {pool}

theorem Activated.trans (h : pool.Activated pool') (h' : pool'.Activated pool'') :
    pool.Activated pool'' where
  same := by
    have hsame := h'.same
    rw [h.same] at hsame
    exact hsame
  phases := fun p => once_trans (by simp) (h.phases p) (h'.phases p)

/-- A round of activation only activates. -/
theorem activated_activatePhases (pool : PendingPool I) :
    pool.Activated pool.activatePhasesWithAllDepsDone.1 := by
  -- Every listed phase was blocked when the pass began.
  have hlisted : ∀ p ∈ pool.phasesIn (· = .blocked), pool.phaseState.lookup p = some .blocked := by
    intro p hp
    obtain ⟨⟨q, state⟩, he, rfl⟩ := mem_map.mp hp
    obtain ⟨hmem, hblocked⟩ := mem_filter.mp he
    rw [decide_eq_true_eq] at hblocked
    exact hblocked ▸ mem_entries_iff.mp hmem
  refine foldlRecOn (motive := fun acc : PendingPool I × Bool => pool.Activated acc.1) _ _
    (.refl pool) ?_
  rintro ⟨acc, flipped⟩ h p hp
  replace h : pool.Activated acc := h
  dsimp only
  split_ifs
  · refine ⟨?_, fun q => ?_⟩
    · rw [h.same]
    rw [lookup_insert_eq]
    split_ifs with hq
    · exact .inr ⟨hq ▸ hlisted p hp, rfl⟩
    · exact h.phases q
  · exact h

/-- All rounds of activation only activate. -/
theorem activated_settleActivation (rounds : ℕ) (pool : PendingPool I) :
    pool.Activated (settleActivation rounds pool) := by
  induction rounds generalizing pool with
  | zero => exact .refl pool
  | succ rounds ih =>
    have hpass := activated_activatePhases pool
    rw [settleActivation]
    cases hflip : pool.activatePhasesWithAllDepsDone with
    | mk next flipped =>
      rw [hflip] at hpass
      cases flipped with
      | false => exact hpass
      | true => exact hpass.trans (ih next)

/-- Activating moves phases. -/
theorem Activated.phasesMoved (h : pool.Activated pool') : pool.PhasesMoved pool' := ⟨_, _, h.same⟩

/-- Seeding completed phases moves phases. -/
theorem phasesMoved_seedCompletedPhases {phases : List PhaseId} :
    pool.PhasesMoved (pool.seedCompletedPhases phases) :=
  PhasesMoved.trans ⟨_, _, rfl⟩ (activated_settleActivation _ _).phasesMoved

end Phases

section Pins

/-- Only the buckets that the workers hold on to differ. -/
def PinsMoved (pool pool' : PendingPool I) : Prop :=
  ∃ (f : BucketKey → Bucket I → Bucket I) (workerAffinity : _),
    (∀ key bucket, (f key bucket).items = bucket.items) ∧
      pool' = { pool with buckets := pool.buckets.mapWithKey f, workerAffinity }

variable {workerAffinity : HashMap WorkerId (Option BucketKey)}

/-- Affinities are pins. -/
theorem pinsMoved_of_affinity : pool.PinsMoved { pool with workerAffinity } :=
  ⟨fun _ bucket => bucket, workerAffinity, fun _ _ => rfl, by rw [BTreeMap.mapWithKey_id]⟩

/-- A change of a bucket that keeps its items moves pins. -/
theorem pinsMoved_modify {key : BucketKey} {f : Bucket I → Bucket I}
    (hf : ∀ bucket, (f bucket).items = bucket.items) :
    pool.PinsMoved { pool with buckets := pool.buckets.modify key f, workerAffinity } := by
  refine ⟨_, workerAffinity, fun key' bucket => ?_, rfl⟩
  split_ifs
  · exact hf bucket
  · rfl

/-- Clearing the pins of an empty bucket moves pins. -/
theorem pinsMoved_clearDrainedPins (pool : PendingPool I) (key : BucketKey) :
    pool.PinsMoved (pool.clearDrainedPins key) := by
  unfold clearDrainedPins
  split
  · exact pinsMoved_of_affinity
  · split_ifs
    · exact pinsMoved_modify (fun _ => by rfl)
    · exact pinsMoved_of_affinity

/-- Pinning a worker moves pins. -/
theorem pinsMoved_pinWorker (pool : PendingPool I) (key : BucketKey) (worker : WorkerId) :
    pool.PinsMoved (pool.pinWorker key worker) := by
  unfold pinWorker
  split_ifs
  · exact pinsMoved_modify (fun _ => by rfl)
  all_goals exact pinsMoved_of_affinity

/-- Releasing a worker moves pins. -/
theorem pinsMoved_releaseWorker {worker : WorkerId} :
    pool.PinsMoved (pool.releaseWorker worker) := by
  unfold releaseWorker
  split
  · exact pinsMoved_modify (fun _ => by rfl)
  · exact ⟨_, _, fun _ _ => by rfl, rfl⟩

end Pins

section Removal

/-- The pool without the item at a position. -/
def evict (pool : PendingPool I) (key : BucketKey) (index : ℕ) : PendingPool I :=
  { pool with
    buckets := pool.buckets.modify key fun bucket =>
      { bucket with items := bucket.items.eraseIdx index } }

variable {key : BucketKey} {index : ℕ} {item : TaskInfo I}

/-- What is removed was at its place. -/
theorem removeAt_eq_some (h : pool.removeAt key index = some (item, pool')) :
    ∃ bucket, pool.buckets.get? key = some bucket ∧ bucket.items[index]? = some item ∧
      pool' = pool.evict key index := by
  unfold removeAt at h
  split at h
  · cases h
  · rename_i bucket hbucket
    split at h
    · cases h
    · rename_i item' hitem
      cases h
      exact ⟨bucket, hbucket, hitem, rfl⟩

/-- The removed item was queued, and the others still are. -/
theorem queued_removeAt (h : pool.removeAt key index = some (item, pool')) :
    pool.queued.Perm (item :: pool'.queued) := by
  obtain ⟨bucket, hbucket, hitem, rfl⟩ := removeAt_eq_some h
  have hperm : bucket.items.Perm ([item] ++ bucket.items.eraseIdx index) := by
    obtain ⟨hlt, rfl⟩ := List.getElem?_eq_some_iff.mp hitem
    exact (List.getElem_cons_eraseIdx_perm hlt).symm
  have hqueued : pool.queued.Perm ([item] ++ (pool.evict key index).queued) :=
    BTreeMap.contents_modify (f := fun bucket : Bucket I => { bucket with
      items := bucket.items.eraseIdx index }) hbucket hperm
  exact hqueued

/-- What forgetting a list of dependents keeps, and failing one of them, the whole walk keeps. -/
theorem cascadeRounds_induction {P : CascadeWalk I → Prop}
    (hforget : ∀ (w : CascadeWalk I) dependentsOf frontier, P w →
      P { w with pool := { w.pool with dependentsOf }, frontier })
    (hfail : ∀ w depId, P w → P (cascadeFailDependent w depId)) (rounds : ℕ) (w : CascadeWalk I)
    (h : P w) : P (cascadeRounds rounds w) := by
  induction rounds generalizing w with
  | zero => exact h
  | succ rounds ih =>
    rw [cascadeRounds]
    cases w.frontier with
    | nil => exact h
    | cons failedId frontier =>
      exact ih _ (foldlRecOn _ _ (hforget w _ frontier h) fun w h depId _ => hfail w depId h)

/-- A match is removed from its bucket, and a bucket that it leaves empty is let go of. -/
theorem takeFirstMatch_eq_some {pred : TaskInfo I → Bool}
    (h : pool.takeFirstMatch pred = some (item, pool')) :
    ∃ key index rest, pool.removeAt key index = some (item, rest) ∧ rest.PinsMoved pool' ∧
      pred item = true ∧ pool.phaseActiveOrDraining key.phaseId = true := by
  unfold takeFirstMatch at h
  dsimp only at h
  split at h
  · cases h
  · rename_i key index hhit
    obtain ⟨⟨key', bucket⟩, hentry, hfound⟩ := List.exists_of_findSome?_eq_some hhit
    dsimp only at hfound
    split_ifs at hfound with hopen
    obtain ⟨index', hindex, heq⟩ := Option.map_eq_some_iff.mp hfound
    cases heq
    obtain ⟨⟨taken, rest⟩, hremove, heq⟩ := Option.map_eq_some_iff.mp h
    cases heq
    refine ⟨key, index, rest, hremove, pinsMoved_clearDrainedPins rest key, ?_, hopen⟩
    -- The removed item is the one at the position that was found.
    obtain ⟨bucket', hbucket, hitem, -⟩ := removeAt_eq_some hremove
    obtain ⟨hlt, hpred, -⟩ := List.findIdx?_eq_some_iff_getElem.mp hindex
    rw [BTreeMap.mem_entries_iff.mp hentry] at hbucket
    cases hbucket
    rw [List.getElem?_eq_getElem hlt] at hitem
    cases hitem
    exact hpred

end Removal

end DynRunner.PendingPool
