import DynRunner.Pool.Consistency

/-!
# No item of a batch is lost

An accepted batch may hold one task id in several phases, since the checks compare the phase and
the id. What becomes of an item depends only on its dependencies and on the failures before it.
The failed set and the blocked map know the id alone. So two items of one id are held apart
exactly if both fail or neither does, and if at most one of them has to wait.
-/

namespace DynRunner

open TaskInfo HashMap List

/-- What becomes of an item of a batch. -/
inductive Verdict
  | fails
  | ready
  | waits
  deriving DecidableEq, Repr

namespace PendingPool

variable {I : Type} {pool pool' : PendingPool I}

section Verdicts

/-- The verdict on an item when the given tasks have failed. -/
def verdict (pool : PendingPool I) (failed : Finset String) (item : TaskInfo I) : Verdict :=
  if item.taskDependsOn.any fun dep => dep.taskId ∈ failed then .fails
  else if pool.unresolvedDeps item = [] then .ready
  else .waits

/-- The verdicts on the items of a batch. An item that fails counts for those after it. -/
def verdicts (pool : PendingPool I) :
    Finset String → List (TaskInfo I) → List (TaskInfo I × Verdict)
  | _, [] => []
  | failed, item :: items =>
    let v := pool.verdict failed item
    (item, v) :: verdicts pool (if v = .fails then insert item.taskId failed else failed) items

/-- The items with a given verdict. -/
def withVerdict (v : Verdict) (verdicts : List (TaskInfo I × Verdict)) : List (TaskInfo I) :=
  (verdicts.filter (·.2 = v)).map Prod.fst

/-- The items that got a verdict. -/
theorem mem_withVerdict {v : Verdict} {verdicts : List (TaskInfo I × Verdict)}
    {item : TaskInfo I} : item ∈ withVerdict v verdicts ↔ (item, v) ∈ verdicts := by
  simp [withVerdict]

/-- Every item of a batch gets a verdict. -/
theorem map_verdicts (pool : PendingPool I) (failed : Finset String) (batch : List (TaskInfo I)) :
    (pool.verdicts failed batch).map Prod.fst = batch := by
  induction batch generalizing failed with
  | nil => rfl
  | cons item batch ih => rw [verdicts, map_cons, ih]

/-- The chain of changes that committing items with the given verdicts makes. -/
inductive Routed : PendingPool I → List (TaskInfo I × Verdict) → PendingPool I → Prop
  | nil (pool : PendingPool I) : Routed pool [] pool
  | fails {pool pool' : PendingPool I} {verdicts : List (TaskInfo I × Verdict)} {item : TaskInfo I}
      (h : Routed { pool with failedTasks := insert item.taskId pool.failedTasks } verdicts pool') :
      Routed pool ((item, .fails) :: verdicts) pool'
  | ready {pool pool' : PendingPool I} {verdicts : List (TaskInfo I × Verdict)} {item : TaskInfo I}
      (h : Routed (pool.pushBack item) verdicts pool') :
      Routed pool ((item, .ready) :: verdicts) pool'
  | waits {pool pool' : PendingPool I} {verdicts : List (TaskInfo I × Verdict)} {item : TaskInfo I}
      (unresolved : List String) (h : Routed (pool.block item unresolved) verdicts pool') :
      Routed pool ((item, .waits) :: verdicts) pool'

/-- Committing an item resolves nothing. -/
theorem unresolvedDeps_commitItem (pool : PendingPool I) (item : TaskInfo I) :
    (pool.commitItem item).unresolvedDeps = pool.unresolvedDeps := by
  unfold commitItem
  split_ifs
  · rfl
  · split <;> rfl

/-- Committing an item changes no verdict. -/
theorem verdicts_commitItem (pool : PendingPool I) (item : TaskInfo I) (failed : Finset String)
    (batch : List (TaskInfo I)) :
    (pool.commitItem item).verdicts failed batch = pool.verdicts failed batch := by
  have hverdict : (pool.commitItem item).verdict = pool.verdict := by
    funext failed other
    unfold verdict
    rw [unresolvedDeps_commitItem]
  induction batch generalizing failed with
  | nil => rfl
  | cons other batch ih => simp only [verdicts, hverdict, ih]

/-- Committing a batch follows the verdicts. -/
theorem routed_commitAll (pool : PendingPool I) (batch : List (TaskInfo I)) :
    Routed pool (pool.verdicts pool.failedTasks batch) (batch.foldl commitItem pool) := by
  induction batch generalizing pool with
  | nil => exact .nil pool
  | cons item batch ih =>
    have hrest := ih (pool.commitItem item)
    rw [verdicts_commitItem] at hrest
    rw [foldl_cons, verdicts]
    by_cases hfailed : pool.anyFailedDep item
    · have hverdict : pool.verdict pool.failedTasks item = .fails := if_pos hfailed
      have hcommit : pool.commitItem item =
          { pool with failedTasks := insert item.taskId pool.failedTasks } := if_pos hfailed
      rw [hcommit] at hrest
      rw [hverdict, hcommit, if_pos rfl]
      exact .fails hrest
    · cases hdeps : pool.unresolvedDeps item with
      | nil =>
        have hverdict : pool.verdict pool.failedTasks item = .ready :=
          (if_neg hfailed).trans (if_pos hdeps)
        have hcommit : pool.commitItem item = pool.pushBack item := by
          rw [commitItem, if_neg hfailed, hdeps]
        rw [hcommit] at hrest
        rw [hverdict, hcommit, if_neg (by decide)]
        exact .ready hrest
      | cons d deps =>
        have hverdict : pool.verdict pool.failedTasks item = .waits :=
          (if_neg hfailed).trans (if_neg (by simp [hdeps]))
        have hcommit : pool.commitItem item = pool.block item (d :: deps) := by
          rw [commitItem, if_neg hfailed, hdeps]
        rw [hcommit] at hrest
        rw [hverdict, hcommit, if_neg (by decide)]
        exact .waits (d :: deps) hrest

end Verdicts

section Routed

variable {verdicts : List (TaskInfo I × Verdict)}

/-- The ready items join the queue. -/
theorem Routed.queued (h : Routed pool verdicts pool') :
    pool'.queued.Perm (withVerdict .ready verdicts ++ pool.queued) := by
  induction h with
  | nil => exact Perm.refl _
  | fails _ ih => exact ih
  | @ready pool _ _ item _ ih =>
    exact (ih.trans ((pool.queued_pushBack item).append_left _)).trans perm_middle
  | waits _ _ ih => exact ih

/-- The queue of a bucket. -/
def bucketItems (pool : PendingPool I) (key : BucketKey) : List (TaskInfo I) :=
  ((pool.buckets.get? key).map Bucket.items).getD []

/-- A pushed item is the last of its bucket. -/
theorem bucketItems_pushBack (pool : PendingPool I) (item : TaskInfo I) (key : BucketKey) :
    (pool.pushBack item).bucketItems key =
      pool.bucketItems key ++ if key = item.bucketKey then [item] else [] := by
  unfold bucketItems pushBack
  rw [BTreeMap.get?_upsert]
  split_ifs with hkey
  · subst hkey
    cases pool.buckets.get? item.bucketKey <;> rfl
  · rw [append_nil]

variable (h : Routed pool verdicts pool')
include h

/-- Each ready item joins its own bucket. -/
theorem Routed.bucketItems (key : BucketKey) : pool'.bucketItems key =
      pool.bucketItems key ++ (withVerdict .ready verdicts).filter (key = ·.bucketKey) := by
  induction h with
  | nil => exact (append_nil _).symm
  | fails _ ih => exact ih
  | @ready pool _ verdicts item _ ih =>
    have hhead : withVerdict .ready ((item, .ready) :: verdicts) =
        item :: withVerdict .ready verdicts := rfl
    rw [ih, bucketItems_pushBack, hhead, filter_cons, append_assoc]
    split_ifs with hkey <;> simp_all
  | waits _ _ ih => exact ih

/-- The ids of the failing items are recorded. -/
theorem Routed.failedTasks (id : String) : id ∈ pool'.failedTasks ↔
      id ∈ pool.failedTasks ∨ id ∈ (withVerdict .fails verdicts).map taskId := by
  induction h with
  | nil => simp [withVerdict]
  | @fails pool _ verdicts item _ ih =>
    have hhead : withVerdict .fails ((item, .fails) :: verdicts) =
        item :: withVerdict .fails verdicts := rfl
    rw [ih, hhead, Finset.mem_insert, map_cons, mem_cons]
    tauto
  | ready _ ih => exact ih
  | waits _ _ ih => exact ih

/-- The waiting items are put under their ids. -/
theorem Routed.blocked :
    pool'.blocked = insertAll taskId pool.blocked (withVerdict .waits verdicts) := by
  induction h with
  | nil => rfl
  | fails _ ih => exact ih
  | ready _ ih => exact ih
  | waits _ _ ih => exact ih

/-- The waiting items are counted. -/
theorem Routed.blockedPerPhase (phaseId : PhaseId) : (pool'.blockedPerPhase.lookup phaseId).getD 0 =
      (pool.blockedPerPhase.lookup phaseId).getD 0 +
        (withVerdict .waits verdicts).countP fun item => item.phaseId = phaseId := by
  induction h with
  | nil => rfl
  | fails _ ih => exact ih
  | ready _ ih => exact ih
  | @waits pool _ verdicts item unresolved _ ih =>
    have hhead : withVerdict .waits ((item, .waits) :: verdicts) =
        item :: withVerdict .waits verdicts := rfl
    have hblock : ((pool.block item unresolved).blockedPerPhase.lookup phaseId).getD 0 =
        (pool.blockedPerPhase.lookup phaseId).getD 0 + if item.phaseId = phaseId then 1 else 0 := by
      unfold block
      rw [lookup_insert_eq]
      by_cases hphase : item.phaseId = phaseId
      · subst hphase
        simp
      · simp [hphase, Ne.symm hphase]
    rw [ih, hblock, hhead, countP_cons]
    simp only [decide_eq_true_eq]
    omega

end Routed

section Conservation

/-- How often the pool holds an item: in the queue, in the blocked map and as a failure. -/
def holdings (pool : PendingPool I) (item : TaskInfo I) : ℕ :=
  (pool.queued.map identity).count item.identity +
    (pool.blocked.count fun _ other => other.identity = item.identity) +
    if item.taskId ∈ pool.failedTasks then 1 else 0

/-- The pool holds an item exactly once, and if it is queued then in the bucket of its phase, type
and affinity. -/
structure HeldOnce (pool : PendingPool I) (item : TaskInfo I) : Prop where
  once : pool.holdings item = 1
  inBucket : item.identity ∈ pool.queued.map identity →
    item.identity ∈ (pool.bucketItems item.bucketKey).map identity

/-- Of two items with one id both fail or neither does, and at most one of them waits. -/
def Apart (verdicts : List (TaskInfo I × Verdict)) : Prop :=
  ∀ a ∈ verdicts, ∀ b ∈ verdicts, a.1.taskId = b.1.taskId → a.1.identity ≠ b.1.identity →
    (a.2 = .fails ↔ b.2 = .fails) ∧ ¬ (a.2 = .waits ∧ b.2 = .waits)

instance (verdicts : List (TaskInfo I × Verdict)) : Decidable (Apart verdicts) :=
  inferInstanceAs (Decidable (∀ a ∈ verdicts, ∀ b ∈ verdicts, _))

/-- What the checks of a batch establish. -/
structure Admitted (pool : PendingPool I) (verdicts : List (TaskInfo I × Verdict)) : Prop where
  distinct : (verdicts.map fun e => e.1.identity).Nodup
  unknown : ∀ e ∈ verdicts, ¬ pool.isDuplicate e.1

/-- The last waiting item of an id. -/
def lastWaiting (verdicts : List (TaskInfo I × Verdict)) (id : String) : Option (TaskInfo I) :=
  (withVerdict .waits verdicts).reverse.find? (·.taskId = id)

variable {verdicts : List (TaskInfo I × Verdict)} {item : TaskInfo I} {v : Verdict}

/-- The last waiting item of an id is a waiting item of it. -/
theorem lastWaiting_eq_some {id : String} (h : lastWaiting verdicts id = some item) :
    (item, Verdict.waits) ∈ verdicts ∧ item.taskId = id := by
  have hmem := mem_reverse.mp (mem_of_find?_eq_some h)
  exact ⟨mem_withVerdict.mp hmem, by simpa using find?_some h⟩

/-- A waiting item has a last one of its id. -/
theorem exists_lastWaiting (h : (item, Verdict.waits) ∈ verdicts) :
    ∃ last, lastWaiting verdicts item.taskId = some last := by
  refine Option.isSome_iff_exists.mp (find?_isSome.mpr ⟨item, ?_, decide_eq_true rfl⟩)
  exact mem_reverse.mpr (mem_withVerdict.mpr h)

/-- An identity has one item and one verdict. -/
theorem Admitted.eq_of_identity (h : Admitted pool verdicts) {a b : TaskInfo I × Verdict}
    (ha : a ∈ verdicts) (hb : b ∈ verdicts) (heq : a.1.identity = b.1.identity) : a = b :=
  inj_on_of_nodup_map h.distinct ha hb heq

section

variable (h : Routed pool verdicts pool') (hnew : Admitted pool verdicts)
include h hnew

section

variable (hitem : (item, v) ∈ verdicts)
include hitem

/-- A ready item is queued once. -/
theorem Routed.count_queued :
    (pool'.queued.map identity).count item.identity = if v = .ready then 1 else 0 := by
  obtain ⟨-, -, hqueued, -⟩ := unknown_of_not_duplicate (hnew.unknown _ hitem)
  have hready : ((withVerdict .ready verdicts).map identity).Nodup := by
    rw [withVerdict, map_map]
    exact hnew.distinct.sublist (filter_sublist.map _)
  rw [(h.queued.map identity).count_eq, map_append, count_append,
    count_eq_zero_of_not_mem hqueued, hready.count, Nat.add_zero]
  refine if_congr ⟨fun hmem => ?_, fun hv => ?_⟩ rfl rfl
  · obtain ⟨other, hother, heq⟩ := mem_map.mp hmem
    have hsame := hnew.eq_of_identity (mem_withVerdict.mp hother) hitem heq
    exact (Prod.mk.inj hsame).2.symm
  · subst hv
    exact mem_map_of_mem (mem_withVerdict.mpr hitem)

/-- Of the waiting items of an id the last one is blocked. -/
theorem Routed.count_blocked : (pool'.blocked.count fun _ other => other.identity = item.identity) =
      if (lastWaiting verdicts item.taskId).any (·.identity = item.identity) then 1 else 0 := by
  obtain ⟨hnot, -, -, hblocked⟩ := unknown_of_not_duplicate (hnew.unknown _ hitem)
  have hlookup (id : String) : pool'.blocked.lookup id =
      (lastWaiting verdicts id).or (pool.blocked.lookup id) := by
    rw [h.blocked, lookup_insertAll]
    rfl
  -- An entry of this identity stands under the id of the item, for it comes from the batch.
  have hkey : ∀ id other, pool'.blocked.lookup id = some other →
      decide (other.identity = item.identity) → id = item.taskId := by
    intro id other hother heq
    rw [hlookup, Option.or_eq_some_iff] at hother
    rcases hother with hlast | ⟨-, hold⟩
    · obtain ⟨hmem, rfl⟩ := lastWaiting_eq_some hlast
      rw [(Prod.mk.inj (hnew.eq_of_identity hmem hitem (of_decide_eq_true heq))).1]
    · exact absurd (of_decide_eq_true heq) (hblocked id other hold)
  rw [count_eq_of_key _ hkey, hlookup, (not_holds_iff.mp hnot).2, Option.or_none]

/-- **How often an item of the batch is held.** -/
theorem Routed.holdings : pool'.holdings item = (if v = .ready then 1 else 0) +
      (if (lastWaiting verdicts item.taskId).any (·.identity = item.identity) then 1 else 0) +
      if item.taskId ∈ (withVerdict .fails verdicts).map taskId then 1 else 0 := by
  obtain ⟨-, hfailed, -⟩ := unknown_of_not_duplicate (hnew.unknown _ hitem)
  rw [PendingPool.holdings, h.count_queued hnew hitem, h.count_blocked hnew hitem]
  simp only [h.failedTasks, hfailed, false_or]

/-- A queued item of the batch is in its own bucket. -/
theorem Routed.inBucket (hqueued : item.identity ∈ pool'.queued.map identity) :
    item.identity ∈ (pool'.bucketItems item.bucketKey).map identity := by
  have hcount := h.count_queued hnew hitem
  have hready : v = .ready := by
    by_contra hv
    rw [if_neg hv] at hcount
    exact count_eq_zero.mp hcount hqueued
  subst hready
  rw [h.bucketItems item.bucketKey]
  refine mem_map_of_mem (mem_append_right _ (mem_filter.mpr ⟨?_, ?_⟩))
  · exact mem_withVerdict.mpr hitem
  · exact decide_eq_true rfl

end

/-- If the items of one id are apart, each item is held once. -/
theorem Routed.holdings_of_apart
    (hapart : Apart verdicts) (hitem : (item, v) ∈ verdicts) : pool'.holdings item = 1 := by
  -- An item of the same id fails only together with this one.
  have hfails : item.taskId ∈ (withVerdict .fails verdicts).map taskId ↔ v = .fails := by
    constructor
    · intro hmem
      obtain ⟨other, hother, hid⟩ := mem_map.mp hmem
      have hother := mem_withVerdict.mp hother
      by_cases hidentity : other.identity = item.identity
      · exact (Prod.mk.inj (hnew.eq_of_identity hother hitem hidentity)).2.symm
      · exact (hapart _ hother _ hitem hid hidentity).1.mp rfl
    · rintro rfl
      exact mem_map_of_mem (mem_withVerdict.mpr hitem)
  -- And the last waiting item of this id is this one, if it waits, and none that is elsewhere.
  have hwaits : (lastWaiting verdicts item.taskId).any (·.identity = item.identity) ↔
      v = .waits := by
    constructor
    · intro hany
      obtain ⟨last, hlast, heq⟩ := (Option.any_eq_true _ _).mp hany
      obtain ⟨hmem, -⟩ := lastWaiting_eq_some hlast
      exact (Prod.mk.inj (hnew.eq_of_identity hmem hitem (of_decide_eq_true heq))).2.symm
    · rintro rfl
      obtain ⟨last, hlast⟩ := exists_lastWaiting hitem
      obtain ⟨hmem, hid⟩ := lastWaiting_eq_some hlast
      refine (Option.any_eq_true _ _).mpr ⟨last, hlast, decide_eq_true ?_⟩
      by_contra hidentity
      exact (hapart _ hmem _ hitem hid hidentity).2 ⟨rfl, rfl⟩
  rw [h.holdings hnew hitem, if_congr hwaits rfl rfl, if_congr hfails rfl rfl]
  cases v <;> rfl

/-- If each item is held once, a failing item makes the other items of its id fail. -/
theorem Routed.fails_of_held (hheld : ∀ e ∈ verdicts, pool'.holdings e.1 = 1) {other : TaskInfo I}
    (hother : (other, Verdict.fails) ∈ verdicts) (hitem : (item, v) ∈ verdicts)
    (hid : other.taskId = item.taskId) : v = .fails := by
  have hrecorded : item.taskId ∈ (withVerdict .fails verdicts).map taskId :=
    mem_map.mpr ⟨other, mem_withVerdict.mpr hother, hid⟩
  cases v with
  | fails => rfl
  | ready =>
    -- It would be queued and recorded as failed.
    have hone := hheld _ hitem
    rw [h.holdings hnew hitem, if_pos rfl, if_pos hrecorded] at hone
    omega
  | waits =>
    -- The last waiting item of this id would be blocked and recorded as failed.
    obtain ⟨last, hlast⟩ := exists_lastWaiting hitem
    obtain ⟨hmem, hlastId⟩ := lastWaiting_eq_some hlast
    have hone := hheld _ hmem
    have hsame : (lastWaiting verdicts last.taskId).any (·.identity = last.identity) := by
      rw [hlastId, hlast]
      exact decide_eq_true rfl
    rw [← hlastId] at hrecorded
    rw [h.holdings hnew hmem, if_pos hsame, if_pos hrecorded] at hone
    omega

/-- If each item is held once, the items of one id are apart. -/
theorem Routed.apart_of_held (hheld : ∀ e ∈ verdicts, pool'.holdings e.1 = 1) : Apart verdicts := by
  rintro ⟨a, va⟩ ha ⟨b, vb⟩ hb hid hidentity
  refine ⟨⟨fun hfails => ?_, fun hfails => ?_⟩, ?_⟩
  · subst hfails
    exact h.fails_of_held hnew hheld ha hb hid
  · subst hfails
    exact h.fails_of_held hnew hheld hb ha hid.symm
  · rintro ⟨rfl, rfl⟩
    -- Of two waiting items the blocked map keeps at most one, and nothing else holds the other.
    have hkept {item : TaskInfo I} (hitem : (item, Verdict.waits) ∈ verdicts) :
        (lastWaiting verdicts item.taskId).any (·.identity = item.identity) := by
      have hnotFailed : item.taskId ∉ (withVerdict .fails verdicts).map taskId := by
        intro hmem
        obtain ⟨other, hother, hotherId⟩ := mem_map.mp hmem
        have hfails := h.fails_of_held hnew hheld (mem_withVerdict.mp hother) hitem hotherId
        cases hfails
      by_contra hlost
      have hone := hheld _ hitem
      rw [h.holdings hnew hitem, if_neg hlost, if_neg hnotFailed] at hone
      cases hone
    obtain ⟨last, hlast⟩ := exists_lastWaiting ha
    have hlastA := hkept ha
    have hlastB := hkept hb
    rw [hlast] at hlastA
    rw [← hid, hlast] at hlastB
    exact hidentity ((of_decide_eq_true hlastA).symm.trans (of_decide_eq_true hlastB))

/-- If the items of one id are apart, the counters are right after the batch exactly if they were
before it. -/
theorem Routed.tallies_iff (hapart : Apart verdicts) :
    Tallies pool'.blockedPerPhase phaseId pool'.blocked ↔
      Tallies pool.blockedPerPhase phaseId pool.blocked := by
  have hdistinct : ((withVerdict .waits verdicts).map identity).Nodup := by
    rw [withVerdict, map_map]
    exact hnew.distinct.sublist (filter_sublist.map _)
  have hkeys : ((withVerdict .waits verdicts).map taskId).Nodup := by
    refine Nodup.map_on (fun a ha b hb hid => ?_) (Nodup.of_map _ hdistinct)
    by_contra hne
    have hidentity : a.identity ≠ b.identity :=
      fun heq => hne (inj_on_of_nodup_map hdistinct ha hb heq)
    exact (hapart _ (mem_withVerdict.mp ha) _ (mem_withVerdict.mp hb) hid hidentity).2 ⟨rfl, rfl⟩
  have hfresh : ∀ item ∈ withVerdict .waits verdicts, pool.blocked.lookup item.taskId = none := by
    intro item hitem
    have hnot := unknown_of_not_duplicate (hnew.unknown _ (mem_withVerdict.mp hitem))
    exact (not_holds_iff.mp hnot.1).2
  refine forall_congr' fun phaseId => ?_
  rw [h.blockedPerPhase, h.blocked, count_insertAll _ hkeys hfresh]
  exact Nat.add_right_cancel_iff

end

/-- An accepted batch is new and follows the verdicts. -/
theorem routed_of_extend {batch : List (TaskInfo I)} (h : pool.extend batch = .ok pool') :
    Admitted pool (pool.verdicts pool.failedTasks batch) ∧
      Routed pool (pool.verdicts pool.failedTasks batch) pool' := by
  obtain ⟨hidentity, hunknown, rfl⟩ := extend_eq_ok h
  have hitems := map_verdicts pool pool.failedTasks batch
  refine ⟨⟨?_, fun e he => hunknown e.1 ?_⟩, routed_commitAll pool batch⟩
  · rwa [← hitems, map_map] at hidentity
  · rw [← hitems]
    exact mem_map_of_mem he

/-- **Conservation of a batch.** After an accepted batch each of its items is held exactly once and
the blocked items of each phase are counted, exactly if the items of one id are apart and the
blocked items were counted before. -/
theorem extend_conserves_iff {batch : List (TaskInfo I)} (h : pool.extend batch = .ok pool') :
    ((∀ item ∈ batch, pool'.HeldOnce item) ∧ Tallies pool'.blockedPerPhase phaseId pool'.blocked) ↔
      Apart (pool.verdicts pool.failedTasks batch) ∧
        Tallies pool.blockedPerPhase phaseId pool.blocked := by
  obtain ⟨hnew, hrouted⟩ := routed_of_extend h
  have hitems := map_verdicts pool pool.failedTasks batch
  generalize pool.verdicts pool.failedTasks batch = verdicts at hnew hrouted hitems ⊢
  subst hitems
  constructor
  · rintro ⟨hheld, htallies⟩
    have hapart := hrouted.apart_of_held hnew fun e he => (hheld e.1 (mem_map_of_mem he)).once
    exact ⟨hapart, (hrouted.tallies_iff hnew hapart).mp htallies⟩
  · rintro ⟨hapart, htallies⟩
    refine ⟨fun item hitem => ?_, (hrouted.tallies_iff hnew hapart).mpr htallies⟩
    obtain ⟨⟨_, v⟩, he, rfl⟩ := mem_map.mp hitem
    exact ⟨hrouted.holdings_of_apart hnew hapart he, hrouted.inBucket hnew he⟩

end Conservation

end PendingPool

namespace Sample

open PendingPool

/-- Two tasks `"x"`, one in phase `"p"` and one in phase `"q"`, and the task that the second waits
for. The first has the given dependencies. -/
def sharedId (deps : List String) : List (TaskInfo String) :=
  [task "root" [], task "x" deps, { task "x" ["root"] with phaseId := "q" }]

/-- One of two tasks with one id is queued while the other waits. -/
theorem extend_conserves_sharedId : ∃ pool' : PendingPool String,
    (fresh ["p", "q"] ∅).extend (sharedId []) = .ok pool' ∧
      (∀ item ∈ sharedId [], pool'.HeldOnce item) ∧
      Tallies pool'.blockedPerPhase phaseId pool'.blocked := by
  have hok : (fresh ["p", "q"] ∅).extend (sharedId []) =
      .ok ((sharedId []).foldl commitItem (fresh ["p", "q"] ∅)) := rfl
  have hcounted := (bookkept_fresh (I := String) ["p", "q"] ∅).dependenciesConsistent.counted
  exact ⟨_, hok, (extend_conserves_iff hok).mpr ⟨by decide, hcounted⟩⟩

/-- Both tasks of one id wait. The second takes the place of the first, which is lost, and the
phase of the first counts a blocked item that it does not have. -/
theorem extend_loses_sharedId : ∃ pool' : PendingPool String,
    (fresh ["p", "q"] ∅).extend (sharedId ["root"]) = .ok pool' ∧
      pool'.holdings (task "x" ["root"]) = 0 ∧
      (pool'.blockedPerPhase.lookup "p" = some 1 ∧
        (pool'.blocked.count fun _ item => item.phaseId = "p") = 0) := by
  refine ⟨(sharedId ["root"]).foldl commitItem (fresh ["p", "q"] ∅), rfl, ?_⟩
  decide

end Sample

end DynRunner
