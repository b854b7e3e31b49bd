import DynRunner.Pool.Consistency

/-!
# What an operation does to the phases

An operation first moves items and counters and reactivates draining phases. Then it may let the
counts decide about some phases. `Prepares` describes the first part and is kept by the primitive
changes of a pool. `Decided` describes the second part.
-/

namespace DynRunner.PendingPool

open HashMap PendingPool

variable {I : Type} {pool pool' pool'' : PendingPool I} {pushed : List (TaskInfo I)}
  {phaseId : PhaseId}

variable (pool)

/-- The number of blocked items of a phase, as the pool counts it. -/
def blockedIn (phaseId : PhaseId) : ℕ :=
  (pool.blockedPerPhase.lookup phaseId).getD 0

/-- Nothing of a drained or done phase is dispatched. -/
def Closed (phaseId : PhaseId) : Prop :=
  pool.phaseState.lookup phaseId = some .drained ∨ pool.phaseState.lookup phaseId = some .done

instance (pool : PendingPool I) (phaseId : PhaseId) : Decidable (pool.Closed phaseId) :=
  inferInstanceAs (Decidable (_ ∨ _))

/-- No blocked item is missing from the count of its phase. -/
def CountsBlocked : Prop :=
  ∀ phaseId, (pool.blocked.count fun _ item => item.phaseId = phaseId) ≤ pool.blockedIn phaseId

variable {pool}

/-- A pool without items has no closed phase. -/
theorem fresh_not_closed (phaseSet : List PhaseId) (deps : HashMap PhaseId (List PhaseId))
    (p : PhaseId) : ¬ (fresh phaseSet deps : PendingPool I).Closed p := by
  change ¬ ((phaseSet.foldr _ (∅ : HashMap PhaseId PhaseState)).lookup p = some .drained ∨
    (phaseSet.foldr _ (∅ : HashMap PhaseId PhaseState)).lookup p = some .done)
  induction phaseSet with
  | nil => simp [AList.lookup_empty]
  | cons q phaseSet ih =>
    rw [List.foldr_cons, lookup_insert_eq]
    by_cases hp : p = q
    · rw [if_pos hp]
      split_ifs <;> simp
    · rw [if_neg hp]
      exact ih

/-- The queue of a phase, bucket by bucket. -/
theorem mem_queuedIn {item : TaskInfo I} : item ∈ pool.queuedIn phaseId ↔
      ∃ key bucket, pool.buckets.get? key = some bucket ∧ key.phaseId = phaseId ∧
        item ∈ bucket.items := by
  simp only [queuedIn, List.mem_flatMap, List.mem_filter, decide_eq_true_eq, Prod.exists,
    BTreeMap.mem_entries_iff, and_assoc]

/-- Nothing counted is queued if all queued items are of other kinds. -/
theorem queuedCount_eq_zero : pool.queuedCount phaseId = 0 ↔
      ∀ item ∈ pool.queuedIn phaseId, item.kind.countsForPhaseDrain = false := by
  simp [queuedCount, List.countP_eq_zero]

section Prepare

/-- No phase is drained or done by the change, no notification is added, and the items that were
not queued before are among `pushed`. -/
structure Prepares (pool : PendingPool I) (pushed : List (TaskInfo I)) (pool' : PendingPool I) :
    Prop where
  phaseDeps : pool'.phaseDeps = pool.phaseDeps
  phases : ∀ p, pool'.phaseState.lookup p = pool.phaseState.lookup p ∨
    pool.phaseState.lookup p = some .draining ∧ pool'.phaseState.lookup p = some .active
  pending : pool'.drainedPending ⊆ pool.drainedPending
  queue : ∀ p, ∀ item ∈ pool'.queuedIn p,
    item ∈ pool.queuedIn p ∨ item ∈ pushed ∧ item.phaseId = p
  counts : pool.CountsBlocked → pool'.CountsBlocked

/-- Two pools that differ neither in their phases nor in their blocked items. -/
structure SameCourse (pool pool' : PendingPool I) : Prop where
  phaseDeps : pool'.phaseDeps = pool.phaseDeps
  phaseState : pool'.phaseState = pool.phaseState
  drainedPending : pool'.drainedPending = pool.drainedPending
  blocked : pool'.blocked = pool.blocked
  blockedPerPhase : pool'.blockedPerPhase = pool.blockedPerPhase

theorem SameCourse.of_eq (h : (pool'.phaseDeps, pool'.phaseState, pool'.drainedPending,
    pool'.blocked, pool'.blockedPerPhase) = (pool.phaseDeps, pool.phaseState,
    pool.drainedPending, pool.blocked, pool.blockedPerPhase)) : pool.SameCourse pool' := by
  simp only [Prod.mk.injEq] at h
  obtain ⟨hdeps, hstate, hdrained, hblocked, hcount⟩ := h
  exact ⟨hdeps, hstate, hdrained, hblocked, hcount⟩

/-- Where the course stays, only the queue matters. -/
theorem SameCourse.prepares (h : pool.SameCourse pool') (hqueue : ∀ p, ∀ item ∈ pool'.queuedIn p,
      item ∈ pool.queuedIn p ∨ item ∈ pushed ∧ item.phaseId = p) : pool.Prepares pushed pool' where
  phaseDeps := h.phaseDeps
  phases := fun p => .inl (by rw [h.phaseState])
  pending := by rw [h.drainedPending]; exact List.Subset.refl _
  queue := hqueue
  counts := fun hcounts p => by
    rw [h.blocked, blockedIn, h.blockedPerPhase]
    exact hcounts p

/-- The same course and the same buckets. -/
theorem SameCourse.prepares_of_eq (h : pool.SameCourse pool')
    (hbuckets : pool'.buckets = pool.buckets) : pool.Prepares pushed pool' := by
  refine h.prepares fun p item hitem => .inl ?_
  rw [queuedIn, hbuckets] at hitem
  exact hitem

theorem Prepares.trans (h : pool.Prepares pushed pool') (h' : pool'.Prepares pushed pool'') :
    pool.Prepares pushed pool'' where
  phaseDeps := h'.phaseDeps.trans h.phaseDeps
  phases := fun p => once_trans (by simp) (h.phases p) (h'.phases p)
  pending := List.Subset.trans h'.pending h.pending
  queue := fun p item hitem =>
    (h'.queue p item hitem).elim (fun hitem => h.queue p item hitem) .inr
  counts := fun hcounts => h'.counts (h.counts hcounts)

theorem Prepares.refl (pool : PendingPool I) : pool.Prepares pushed pool :=
  SameCourse.prepares_of_eq (.of_eq rfl) rfl

/-- A preparation that pushes nothing shrinks every queue. -/
theorem Prepares.queuedIn_subset (h : pool.Prepares [] pool') (p : PhaseId) :
    pool'.queuedIn p ⊆ pool.queuedIn p := by
  intro item hitem
  rcases h.queue p item hitem with hold | ⟨hnone, -⟩
  · exact hold
  · cases hnone

variable {p : PhaseId} (h : pool.Prepares pushed pool')
include h

/-- A preparation ends no phase. -/
theorem Prepares.done
    (hdone : pool'.phaseState.lookup p = some .done) : pool.phaseState.lookup p = some .done := by
  rcases h.phases p with hsame | ⟨-, hactive⟩
  · rw [← hsame]
    exact hdone
  · rw [hdone] at hactive
    cases hactive

/-- A preparation drains no phase. -/
theorem Prepares.drained (hdrained : pool'.phaseState.lookup p = some .drained) :
    pool.phaseState.lookup p = some .drained := by
  rcases h.phases p with hsame | ⟨-, hactive⟩
  · rw [← hsame]
    exact hdrained
  · rw [hdrained] at hactive
    cases hactive

/-- A preparation closes no phase. -/
theorem Prepares.closed (hclosed : pool'.Closed p) : pool.Closed p := hclosed.imp h.drained h.done

/-- Predecessors that are done afterwards were done before. -/
theorem Prepares.predecessorsDone
    (hdone : pool'.predecessorsDone p = true) : pool.predecessorsDone p = true := by
  unfold PendingPool.predecessorsDone at hdone ⊢
  rw [h.phaseDeps] at hdone
  rw [List.all_eq_true] at hdone ⊢
  intro d hd
  exact decide_eq_true (h.done (of_decide_eq_true (hdone d hd)))

/-- An active or draining phase was active or draining before. -/
theorem Prepares.activeOrDraining
    (hopen : pool'.phaseActiveOrDraining p = true) : pool.phaseActiveOrDraining p = true := by
  rcases h.phases p with hsame | ⟨hdraining, -⟩
  · unfold phaseActiveOrDraining at hopen ⊢
    rw [← hsame]
    exact hopen
  · simp [phaseActiveOrDraining, hdraining]

end Prepare

section Primitive

/-- Rewriting the buckets to fewer items prepares. -/
theorem prepares_mapWithKey (f : BucketKey → Bucket I → Bucket I) (h : pool.SameCourse pool')
    (hbuckets : pool'.buckets = pool.buckets.mapWithKey f)
    (hf : ∀ key bucket, (f key bucket).items ⊆ bucket.items) : pool.Prepares pushed pool' := by
  refine h.prepares fun p item hitem => .inl ?_
  obtain ⟨key, bucket, hbucket, hkey, hitem⟩ := mem_queuedIn.mp hitem
  rw [hbuckets, BTreeMap.get?_mapWithKey] at hbucket
  obtain ⟨old, hold, rfl⟩ := Option.map_eq_some_iff.mp hbucket
  exact mem_queuedIn.mpr ⟨key, old, hold, hkey, hf key old hitem⟩

/-- Rewriting one bucket to fewer items prepares. -/
theorem prepares_modify (f : Bucket I → Bucket I) {key : BucketKey} (h : pool.SameCourse pool')
    (hbuckets : pool'.buckets = pool.buckets.modify key f)
    (hf : ∀ bucket, (f bucket).items ⊆ bucket.items) : pool.Prepares pushed pool' := by
  refine prepares_mapWithKey _ h hbuckets fun key' bucket => ?_
  split_ifs
  · exact hf bucket
  · exact List.Subset.refl _

variable {item : TaskInfo I} {id : String}

/-- Adding an item to its bucket prepares. -/
theorem prepares_upsert {f : Bucket I → Bucket I} (h : pool.SameCourse pool')
    (hbuckets : pool'.buckets = pool.buckets.upsert item.bucketKey Bucket.new f)
    (hf : ∀ bucket other, other ∈ (f bucket).items → other = item ∨ other ∈ bucket.items)
    (hpushed : item ∈ pushed) : pool.Prepares pushed pool' := by
  refine h.prepares fun p other hother => ?_
  obtain ⟨key, bucket, hbucket, hkey, hother⟩ := mem_queuedIn.mp hother
  rw [hbuckets, BTreeMap.get?_upsert] at hbucket
  split_ifs at hbucket with hown
  · subst hown
    cases hbucket
    rcases hf _ _ hother with rfl | hother
    · exact .inr ⟨hpushed, hkey⟩
    · cases hold : pool.buckets.get? item.bucketKey with
      | none =>
        rw [hold] at hother
        cases hother
      | some old =>
        rw [hold] at hother
        exact .inl (mem_queuedIn.mpr ⟨_, old, hold, hkey, hother⟩)
  · exact .inl (mem_queuedIn.mpr ⟨key, bucket, hbucket, hkey, hother⟩)

/-- Pushing an item prepares. -/
theorem prepares_pushBack (hpushed : item ∈ pushed) :
    pool.Prepares pushed (pool.pushBack item) := by
  refine prepares_upsert (.of_eq rfl) rfl (fun bucket other hother => ?_) hpushed
  rcases List.mem_append.mp hother with hother | hother
  · exact .inr hother
  · exact .inl (List.mem_singleton.mp hother)

/-- Putting an item in front prepares. -/
theorem prepares_pushFront (hpushed : item ∈ pushed) : pool.Prepares pushed (pool.pushFront item) :=
  prepares_upsert (.of_eq rfl) rfl (fun _ _ hother => List.mem_cons.mp hother) hpushed

/-- Reactivating prepares. -/
theorem prepares_reactivate (pool : PendingPool I) (p : PhaseId) :
    pool.Prepares pushed (pool.reactivate p) := by
  unfold reactivate
  split_ifs with hdraining
  · exact
      { phaseDeps := rfl
        phases := fun p' => by
          rw [lookup_insert_eq]
          split_ifs with hp
          · exact .inr ⟨hp ▸ hdraining, rfl⟩
          · exact .inl rfl
        pending := List.Subset.refl _
        queue := fun _ _ hitem => .inl hitem
        counts := fun hcounts => hcounts }
  · exact Prepares.refl pool

/-- The count of a phase after one blocked item less. -/
theorem blockedIn_adjust {counter : HashMap PhaseId ℕ} {p q : PhaseId} :
    ((counter.adjust (· - 1) p).lookup q).getD 0 =
      (counter.lookup q).getD 0 - if q = p then 1 else 0 := by
  rw [lookup_adjust]
  split_ifs with hq
  · subst hq
    cases counter.lookup q <;> simp
  · rw [Nat.sub_zero]

/-- Unblocking an item prepares. -/
theorem prepares_unblock
    (hitem : pool.blocked.lookup id = some item) : pool.Prepares pushed (pool.unblock id item) where
  phaseDeps := rfl
  phases := fun _ => .inl rfl
  pending := List.Subset.refl _
  queue := fun _ _ hitem => .inl hitem
  counts := fun hcounts p => by
    have hbefore := hcounts p
    rw [count_of_lookup _ hitem] at hbefore
    change HashMap.count _ (pool.blocked.erase id) ≤
      ((pool.blockedPerPhase.adjust (· - 1) item.phaseId).lookup p).getD 0
    rw [blockedIn_adjust]
    unfold blockedIn at hbefore
    by_cases hp : p = item.phaseId
    · subst hp
      simp only [decide_true, if_true] at hbefore ⊢
      omega
    · simp only [hp, Ne.symm hp, decide_false, if_false, Bool.false_eq_true] at hbefore ⊢
      omega

/-- Detaching an item prepares. -/
theorem prepares_detach
    (hitem : pool.blocked.lookup id = some item) : pool.Prepares pushed (pool.detach id item) := by
  refine (prepares_unblock hitem).trans ?_
  unfold detach
  dsimp only
  split
  · exact Prepares.refl _
  · exact SameCourse.prepares_of_eq (.of_eq rfl) rfl

/-- Blocking an item prepares. -/
theorem prepares_block {unresolved : List String} :
    pool.Prepares pushed (pool.block item unresolved) where
  phaseDeps := rfl
  phases := fun _ => .inl rfl
  pending := List.Subset.refl _
  queue := fun _ _ hitem => .inl hitem
  counts := fun hcounts p => by
    change HashMap.count _ (pool.blocked.insert item.taskId item) ≤
      ((pool.blockedPerPhase.insert _ _).lookup p).getD 0
    have hbefore := hcounts p
    have herase : HashMap.count (fun _ item => decide (item.phaseId = p))
        (pool.blocked.erase item.taskId) ≤ pool.blocked.count fun _ item => item.phaseId = p := by
      cases hlookup : pool.blocked.lookup item.taskId with
      | none => rw [erase_of_lookup_none hlookup]
      | some =>
        rw [count_of_lookup _ hlookup]
        exact Nat.le_add_right _ _
    rw [count_insert, lookup_insert_eq]
    unfold blockedIn at hbefore
    by_cases hp : p = item.phaseId
    · subst hp
      simp only [decide_true, if_true, Option.getD_some]
      omega
    · simp only [Ne.symm hp, decide_false, if_false, hp, Bool.false_eq_true]
      omega

/-- Committing an item queues it only if it waits for nothing and no dependency of it failed. -/
theorem prepares_commitItem
    (hpushed : pool.anyFailedDep item = false → pool.unresolvedDeps item = [] → item ∈ pushed) :
    pool.Prepares pushed (pool.commitItem item) := by
  unfold commitItem
  split_ifs with hfailed
  · have hsame : pool.SameCourse { pool with failedTasks := insert item.taskId pool.failedTasks } :=
      (.of_eq rfl)
    exact hsame.prepares_of_eq rfl
  · split
    next hnil => exact prepares_pushBack (hpushed (by simpa using hfailed) hnil)
    next => exact prepares_block

end Primitive

section Decide

/-- What lets a phase be drained: nothing is queued or in flight, no affine import has yet to run,
and either nothing is blocked and all predecessors are done, or what is blocked can never run. -/
structure Drainable (pool : PendingPool I) (phaseId : PhaseId) : Prop where
  queue : pool.queuedCount phaseId = 0
  inFlight : pool.inFlight phaseId = 0
  affine : pool.phaseHasLiveAffinePrereq phaseId = false
  blocked : pool.blockedIn phaseId = 0 ∧ pool.predecessorsDone phaseId = true ∨
    pool.blockedIn phaseId ≠ 0 ∧ pool.liveBlockedCount phaseId = 0

/-- The states that the counts can ask for. -/
theorem nextPhaseState_cases (pool : PendingPool I) {current : PhaseState} :
    pool.nextPhaseState phaseId current = current ∨ pool.nextPhaseState phaseId current = .active ∨
      pool.nextPhaseState phaseId current = .draining ∨
      pool.nextPhaseState phaseId current = .drained ∧ pool.Drainable phaseId := by
  unfold nextPhaseState
  dsimp only
  split
  next hqueue hinFlight hblocked =>
    split_ifs with hdone
    · rw [Bool.and_eq_true, Bool.not_eq_true'] at hdone
      exact .inr (.inr (.inr ⟨rfl, hqueue, hinFlight, hdone.2, .inl ⟨hblocked, hdone.1⟩⟩))
    · exact .inl rfl
  next hqueue hinFlight hblocked =>
    split_ifs with hdoomed
    · rw [Bool.and_eq_true, Bool.not_eq_true', beq_iff_eq] at hdoomed
      exact .inr (.inr (.inr ⟨rfl, hqueue, hinFlight, hdoomed.1, .inr ⟨hblocked, hdoomed.2⟩⟩))
    · exact .inr (.inr (.inl rfl))
  next => exact .inr (.inr (.inl rfl))
  next => exact .inr (.inl rfl)

/-- The counts have decided about some active and draining phases, and nothing else happened. -/
structure Decided (pool pool' : PendingPool I) : Prop where
  same : pool' = { pool with
    phaseState := pool'.phaseState
    drainedPending := pool'.drainedPending }
  phases : ∀ p, pool'.phaseState.lookup p = pool.phaseState.lookup p ∨
    pool.phaseActiveOrDraining p = true ∧
      (pool'.phaseActiveOrDraining p = true ∨
        pool'.phaseState.lookup p = some .drained ∧ pool.Drainable p)
  pending : ∀ p ∈ pool'.drainedPending, p ∈ pool.drainedPending ∨
    pool.phaseActiveOrDraining p = true ∧ pool.Drainable p ∧
      pool'.phaseState.lookup p = some .drained

theorem Decided.refl (pool : PendingPool I) : pool.Decided pool :=
  ⟨rfl, fun _ => .inl rfl, fun _ hp => .inl hp⟩

variable {p : PhaseId}

/-- A phase is open if it is active or draining. -/
theorem phaseActiveOrDraining_iff : pool.phaseActiveOrDraining p = true ↔
      pool.phaseState.lookup p = some .active ∨ pool.phaseState.lookup p = some .draining := by
  simp [phaseActiveOrDraining]

variable (h : pool.Decided pool')
include h

/-- A decision makes no phase done and leaves the done ones. -/
theorem Decided.done_iff :
    pool'.phaseState.lookup p = some .done ↔ pool.phaseState.lookup p = some .done := by
  rcases h.phases p with hsame | ⟨hbefore, hafter | ⟨hafter, -⟩⟩
  · rw [hsame]
  · rw [phaseActiveOrDraining_iff] at hbefore hafter
    rcases hbefore with hbefore | hbefore <;> rcases hafter with hafter | hafter <;>
      simp [hbefore, hafter]
  · rw [phaseActiveOrDraining_iff] at hbefore
    rcases hbefore with hbefore | hbefore <;> simp [hbefore, hafter]

/-- A decision leaves what the predecessors are. -/
theorem Decided.predecessorsDone (p : PhaseId) :
    pool'.predecessorsDone p = pool.predecessorsDone p := by
  have hdeps : pool'.phaseDeps = pool.phaseDeps := by rw [h.same]
  unfold PendingPool.predecessorsDone
  rw [hdeps]
  simp only [h.done_iff]

omit h in
/-- What a pool knows about its blocked tasks decides how many of them may still run. -/
theorem liveBlockedCount_congr (hblocked : pool'.blocked = pool.blocked)
    (hdeps : pool'.taskDeps = pool.taskDeps) (hfailed : pool'.failedTasks = pool.failedTasks)
    (hsoft : pool'.softFailed = pool.softFailed) :
    pool'.liveBlockedCount p = pool.liveBlockedCount p := by
  have hround : pool'.doomRound p = pool.doomRound p := by
    funext doomed
    unfold doomRound isDead isDeadEnded
    rw [hblocked, hdeps, hfailed, hsoft]
  have hloop : ∀ rounds doomed, pool'.doomLoop p rounds doomed = pool.doomLoop p rounds doomed := by
    intro rounds
    induction rounds with
    | zero => exact fun _ => rfl
    | succ rounds ih =>
      intro doomed
      rw [doomLoop, doomLoop, hround]
      simp only [ih]
  unfold liveBlockedCount
  rw [hblocked, hloop]

/-- A decision leaves the live blocked items. -/
theorem Decided.liveBlockedCount (p : PhaseId) :
    pool'.liveBlockedCount p = pool.liveBlockedCount p :=
  liveBlockedCount_congr (by rw [h.same]) (by rw [h.same]) (by rw [h.same]) (by rw [h.same])

/-- What lets a phase be drained is not touched by a decision. -/
theorem Decided.drainable (hp : pool'.Drainable p) : pool.Drainable p := by
  obtain ⟨hqueue, hinFlight, haffine, hblocked⟩ := hp
  rw [h.predecessorsDone, h.liveBlockedCount] at hblocked
  rw [h.same] at hqueue hinFlight haffine hblocked
  exact ⟨hqueue, hinFlight, haffine, hblocked⟩

/-- A decision opens no phase. -/
theorem Decided.activeOrDraining
    (hopen : pool'.phaseActiveOrDraining p = true) : pool.phaseActiveOrDraining p = true := by
  rcases h.phases p with hsame | ⟨hbefore, -⟩
  · unfold phaseActiveOrDraining at hopen ⊢
    rw [← hsame]
    exact hopen
  · exact hbefore

theorem Decided.trans (h' : pool'.Decided pool'') : pool.Decided pool'' where
  same := by
    have hsame := h'.same
    rw [h.same] at hsame
    exact hsame
  phases := fun p => by
    rcases h'.phases p with hsame | ⟨hbefore, hafter⟩
    · rcases h.phases p with hsame' | ⟨hbefore, hafter⟩
      · exact .inl (hsame.trans hsame')
      · refine .inr ⟨hbefore, hafter.imp (fun hopen => ?_) (And.imp_left hsame.trans)⟩
        unfold phaseActiveOrDraining at hopen ⊢
        rw [hsame]
        exact hopen
    · exact .inr ⟨h.activeOrDraining hbefore, hafter.imp_right (And.imp_right h.drainable)⟩
  pending := fun p hp => by
    rcases h'.pending p hp with hp | ⟨hopen, hdrainable, hdrained⟩
    · refine (h.pending p hp).imp_right fun ⟨hopen, hdrainable, hdrained⟩ => ⟨hopen, hdrainable, ?_⟩
      rcases h'.phases p with hsame | ⟨hagain, -⟩
      · rw [hsame, hdrained]
      · rw [phaseActiveOrDraining_iff, hdrained] at hagain
        simp at hagain
    · exact .inr ⟨h.activeOrDraining hopen, h.drainable hdrainable, hdrained⟩

omit h in
/-- One decision. -/
theorem decided_maybeTransitionDrain : pool.Decided (pool.maybeTransitionDrain phaseId) := by
  unfold maybeTransitionDrain
  cases hcurrent : pool.phaseState.lookup phaseId with
  | none => exact .refl pool
  | some current =>
    dsimp only
    split_ifs with hopen hnext
    · exact .refl pool
    · have hopen' : pool.phaseActiveOrDraining phaseId = true := by
        rw [phaseActiveOrDraining_iff, hcurrent]
        simpa using hopen
      have hcases := (pool.nextPhaseState_cases).resolve_left hnext
      refine ⟨rfl, fun p => ?_, fun p hp => ?_⟩
      · by_cases hp : p = phaseId
        · subst hp
          have hafter : (pool.setPhaseState p (pool.nextPhaseState p current)).phaseState.lookup p =
              some (pool.nextPhaseState p current) := AList.lookup_insert pool.phaseState
          refine .inr ⟨hopen', ?_⟩
          rw [phaseActiveOrDraining_iff, hafter]
          rcases hcases with hactive | hdraining | ⟨hdrained, hdrainable⟩
          · exact .inl (.inl (congrArg some hactive))
          · exact .inl (.inr (congrArg some hdraining))
          · exact .inr ⟨congrArg some hdrained, hdrainable⟩
        · exact .inl (AList.lookup_insert_ne hp)
      · unfold setPhaseState at hp
        split_ifs at hp with hdrained
        · rcases List.mem_append.mp hp with hp | hp
          · exact .inl hp
          · rw [List.mem_singleton.mp hp]
            rcases hcases with hactive | hdraining | ⟨hnow, hdrainable⟩
            · rw [hactive] at hdrained
              cases hdrained.1
            · rw [hdraining] at hdrained
              cases hdrained.1
            · refine .inr ⟨hopen', hdrainable, ?_⟩
              rw [hnow]
              exact AList.lookup_insert pool.phaseState
        · exact .inl hp
    · exact .refl pool

omit h in
/-- Any number of decisions. -/
theorem decided_foldl (phases : List PhaseId) (pool : PendingPool I) :
    pool.Decided (phases.foldl maybeTransitionDrain pool) :=
  List.foldlRecOn phases maybeTransitionDrain (Decided.refl pool)
    fun _ h _ _ => h.trans decided_maybeTransitionDrain

/-- A phase that a decision has drained could be drained. -/
theorem Decided.drained (hdrained : pool'.phaseState.lookup p = some .drained) :
    pool.phaseState.lookup p = some .drained ∨
      pool.phaseActiveOrDraining p = true ∧ pool.Drainable p := by
  rcases h.phases p with hsame | ⟨hbefore, hafter | ⟨-, hdrainable⟩⟩
  · exact .inl (hsame ▸ hdrained)
  · rw [phaseActiveOrDraining_iff, hdrained] at hafter
    simp at hafter
  · exact .inr ⟨hbefore, hdrainable⟩

/-- A decision leaves the queue. -/
theorem Decided.queuedIn (p : PhaseId) : pool'.queuedIn p = pool.queuedIn p := by rw [h.same]; rfl

/-- A decision leaves the count of the blocked items right. -/
theorem Decided.countsBlocked (hcounts : pool.CountsBlocked) :
    pool'.CountsBlocked := by rw [h.same]; exact hcounts

end Decide

end DynRunner.PendingPool
