import DynRunner.Pool.Dispatch

/-!
# What keeps the dependency bookkeeping right

Four maps record who waits for whom: the blocked items, the tasks that each of them still waits
for, the reverse index, and the number of blocked items of each phase. `Bookkept` says that they
agree, apart from a set of pairs of a task and a dependency whose check is suspended while an
operation is under way. It also says that the pool holds each task id at most once. The results
are about the few primitive changes that every operation is made of.
-/

namespace DynRunner.PendingPool

open HashMap List

variable {I : Type}

/-- The ids of the queued items. -/
def queuedIds (pool : PendingPool I) : List String := pool.queued.map TaskInfo.taskId

/-- The pool has an item with this id. -/
def Holds (pool : PendingPool I) (id : String) : Prop :=
  id ∈ pool.queuedIds ∨ id ∈ pool.blocked.keys

instance (pool : PendingPool I) (id : String) : Decidable (pool.Holds id) :=
  inferInstanceAs (Decidable (_ ∨ _))

variable {pool : PendingPool I} {id d b : String}

/-- What is neither queued nor blocked is not held. -/
theorem not_holds_iff : ¬ pool.Holds id ↔ id ∉ pool.queuedIds ∧ pool.blocked.lookup id = none := by
  rw [Holds, not_or, AList.lookup_eq_none]
  exact Iff.rfl

/-- An item has to wait for a task: it declares the dependency, and the task is neither complete
nor an affine import. -/
def Awaits (pool : PendingPool I) (item : TaskInfo I) (d : String) : Prop :=
  item.Names d ∧ d ∉ pool.completedTasks ∧ d ∉ pool.affinePrereqIds

/-- The unresolved dependencies are those that are awaited. -/
theorem mem_unresolvedDeps {item : TaskInfo I} :
    d ∈ pool.unresolvedDeps item ↔ pool.Awaits item d := by
  rw [unresolvedDeps, mem_dedup, mem_filter, decide_eq_true_eq]
  exact Iff.rfl

/-- **The dependency bookkeeping is consistent.** -/
structure DependenciesConsistent (pool : PendingPool I) : Prop where
  /-- A task is blocked exactly if it has a set of unmet dependencies. -/
  sameKeys : ∀ b, b ∈ pool.blocked ↔ b ∈ pool.taskDeps
  /-- The set holds the declared dependencies that are neither complete nor affine. -/
  unmet : ∀ b item deps, pool.blocked.lookup b = some item → pool.taskDeps.lookup b = some deps →
    ∀ d, d ∈ deps ↔ pool.Awaits item d
  /-- The reverse index lists the task under each of them. -/
  listed : ∀ b deps, pool.taskDeps.lookup b = some deps → ∀ d ∈ deps, pool.dependentsOf.Lists d b
  /-- The blocked items of each phase are counted. -/
  counted : HashMap.Tallies pool.blockedPerPhase TaskInfo.phaseId pool.blocked

/-- The bookkeeping is consistent, apart from the sets of unmet dependencies at the pairs of
`stale` and from the reverse index at the pairs of `unlisted`, and each id is held once. -/
structure Bookkept (pool : PendingPool I) (stale unlisted : String → String → Prop) : Prop where
  sameKeys : ∀ b, pool.blocked.lookup b = none ↔ pool.taskDeps.lookup b = none
  unmet : ∀ b item deps, pool.blocked.lookup b = some item → pool.taskDeps.lookup b = some deps →
    ∀ d, ¬ stale b d → (d ∈ deps ↔ pool.Awaits item d)
  listed : ∀ b deps, pool.taskDeps.lookup b = some deps → ∀ d ∈ deps, ¬ unlisted b d →
    pool.dependentsOf.Lists d b
  counted : HashMap.Tallies pool.blockedPerPhase TaskInfo.phaseId pool.blocked
  /-- A blocked item stands under its own id. -/
  ownId : ∀ b item, pool.blocked.lookup b = some item → item.taskId = b
  /-- No id is queued twice. -/
  distinct : pool.queuedIds.Nodup
  /-- No id is queued and blocked. -/
  apart : ∀ id ∈ pool.queuedIds, pool.blocked.lookup id = none

/-- No pair is suspended. -/
def NoGap (_ _ : String) : Prop := False

/-- There is no gap where none is allowed. -/
theorem not_noGap : ¬ NoGap b d := id

/-- The tasks of a list are suspended at one dependency. -/
def Gap (id : String) (tasks : List String) (b d : String) : Prop := d = id ∧ b ∈ tasks

/-- A walk that is over leaves no gap. -/
theorem gap_nil (h : Gap id [] b d) : NoGap b d := not_mem_nil h.2

/-- Nothing is suspended: the bookkeeping is consistent. -/
theorem Bookkept.dependenciesConsistent (h : pool.Bookkept NoGap NoGap) :
    pool.DependenciesConsistent where
  sameKeys b := by
    rw [← not_iff_not, ← AList.lookup_eq_none, ← AList.lookup_eq_none]
    exact h.sameKeys b
  unmet b item deps hitem hdeps d := h.unmet b item deps hitem hdeps d not_noGap
  listed b deps hdeps d hd := h.listed b deps hdeps d hd not_noGap
  counted := h.counted

/-- A pool without blocked items needs only consistent keys and counters. -/
theorem bookkept_fresh (phaseSet : List PhaseId) (deps : HashMap PhaseId (List PhaseId)) :
    (fresh phaseSet deps : PendingPool I).Bookkept NoGap NoGap where
  sameKeys _ := ⟨fun _ => rfl, fun _ => rfl⟩
  unmet _ _ _ h := by cases h
  listed _ _ h := by cases h
  counted _ := rfl
  ownId _ _ h := by cases h
  distinct := nodup_nil
  apart _ h := by cases h

section Primitives

variable {pool' : PendingPool I} {stale unlisted stale' unlisted' : String → String → Prop}

/-- Everything that the bookkeeping reads is the same, apart from the queue. -/
structure SameMaps (pool pool' : PendingPool I) : Prop where
  blocked : pool'.blocked = pool.blocked
  taskDeps : pool'.taskDeps = pool.taskDeps
  dependentsOf : pool'.dependentsOf = pool.dependentsOf
  blockedPerPhase : pool'.blockedPerPhase = pool.blockedPerPhase
  completedTasks : pool'.completedTasks = pool.completedTasks
  affinePrereqIds : pool'.affinePrereqIds = pool.affinePrereqIds

theorem SameMaps.of_eq (h : (pool'.blocked, pool'.taskDeps, pool'.dependentsOf,
    pool'.blockedPerPhase, pool'.completedTasks, pool'.affinePrereqIds) = (pool.blocked,
    pool.taskDeps, pool.dependentsOf, pool.blockedPerPhase, pool.completedTasks,
    pool.affinePrereqIds)) : pool.SameMaps pool' := by
  simp only [Prod.mk.injEq] at h
  obtain ⟨hblocked, hdeps, hindex, hcount, hcompleted, haffine⟩ := h
  exact ⟨hblocked, hdeps, hindex, hcount, hcompleted, haffine⟩

variable {pool'' : PendingPool I} {item : TaskInfo I}

theorem SameMaps.trans (h : pool.SameMaps pool')
    (h' : pool'.SameMaps pool'') : pool.SameMaps pool'' where
  blocked := h'.blocked.trans h.blocked
  taskDeps := h'.taskDeps.trans h.taskDeps
  dependentsOf := h'.dependentsOf.trans h.dependentsOf
  blockedPerPhase := h'.blockedPerPhase.trans h.blockedPerPhase
  completedTasks := h'.completedTasks.trans h.completedTasks
  affinePrereqIds := h'.affinePrereqIds.trans h.affinePrereqIds

/-- The maps are the same and the queue has at most shrunk. -/
structure QueueShrinks (pool pool' : PendingPool I) : Prop extends pool.SameMaps pool' where
  queuedIds : pool'.queuedIds.Subperm pool.queuedIds

theorem QueueShrinks.refl (pool : PendingPool I) : pool.QueueShrinks pool :=
  ⟨.of_eq rfl, Subperm.refl _⟩

theorem QueueShrinks.trans (h : pool.QueueShrinks pool')
    (h' : pool'.QueueShrinks pool'') : pool.QueueShrinks pool'' :=
  ⟨h.toSameMaps.trans h'.toSameMaps, h'.queuedIds.trans h.queuedIds⟩

variable (h : pool.Bookkept stale unlisted)
include h

/-- The bookkeeping of the maps, for any queue that holds each id once and no blocked one. -/
theorem Bookkept.of_sameMaps (hs : pool.SameMaps pool') (hdistinct : pool'.queuedIds.Nodup)
    (hapart : ∀ id ∈ pool'.queuedIds, pool.blocked.lookup id = none) :
    pool'.Bookkept stale unlisted where
  sameKeys b := by rw [hs.blocked, hs.taskDeps]; exact h.sameKeys b
  unmet b item deps hitem hdeps d hd := by
    rw [hs.blocked] at hitem
    rw [hs.taskDeps] at hdeps
    rw [h.unmet b item deps hitem hdeps d hd, Awaits, Awaits, hs.completedTasks, hs.affinePrereqIds]
  listed b deps hdeps := by
    rw [hs.taskDeps] at hdeps
    rw [hs.dependentsOf]
    exact h.listed b deps hdeps
  counted := by rw [hs.blocked, hs.blockedPerPhase]; exact h.counted
  ownId := by rw [hs.blocked]; exact h.ownId
  distinct := hdistinct
  apart id hid := by rw [hs.blocked]; exact hapart id hid

/-- The bookkeeping does not depend on anything else. -/
theorem Bookkept.of_queueShrinks
    (hs : pool.QueueShrinks pool') : pool'.Bookkept stale unlisted := by
  obtain ⟨l, hperm, hsub⟩ := hs.queuedIds
  exact h.of_sameMaps hs.toSameMaps (hperm.nodup_iff.mp (h.distinct.sublist hsub))
    fun id hid => h.apart id (hs.queuedIds.subset hid)

/-- What is suspended matters only for blocked tasks. -/
theorem Bookkept.suspend (hstale : ∀ b d, pool.blocked.lookup b ≠ none → stale b d → stale' b d)
    (hunlisted : ∀ b d, pool.blocked.lookup b ≠ none → unlisted b d → unlisted' b d) :
    pool.Bookkept stale' unlisted' where
  __ := h
  unmet b item deps hitem hdeps d hd := by
    refine h.unmet b item deps hitem hdeps d fun hgap => hd (hstale b d ?_ hgap)
    rw [hitem]
    exact Option.some_ne_none item
  listed b deps hdeps d hd hgap := by
    refine h.listed b deps hdeps d hd fun hgap' => hgap (hunlisted b d (fun hnone => ?_) hgap')
    rw [(h.sameKeys b).mp hnone] at hdeps
    cases hdeps

omit h in
/-- A task that is not blocked needs no suspension. -/
theorem Gap.narrow {tasks : List String} (hb : pool.blocked.lookup b = none)
    (b' d : String) (hb' : pool.blocked.lookup b' ≠ none) (h : Gap id (b :: tasks) b' d) :
    Gap id tasks b' d := by
  refine ⟨h.1, (mem_cons.mp h.2).resolve_left ?_⟩
  rintro rfl
  exact hb' hb

/-- Queue an item that the pool does not hold. -/
theorem Bookkept.enqueue (hnot : ¬ pool.Holds id) (hs : pool.SameMaps pool')
    (hids : pool'.queuedIds.Perm (id :: pool.queuedIds)) : pool'.Bookkept stale unlisted := by
  obtain ⟨hqueue, hblocked⟩ := not_holds_iff.mp hnot
  refine h.of_sameMaps hs (hids.nodup_iff.mpr (nodup_cons.mpr ⟨hqueue, h.distinct⟩)) ?_
  intro id' hid'
  rcases mem_cons.mp (hids.subset hid') with rfl | hmem
  · exact hblocked
  · exact h.apart id' hmem

omit h in
/-- A blocked item is found under its id. -/
theorem lookup_blocked_block {deps : List String} : (pool.block item deps).blocked.lookup b =
    if b = item.taskId then some item else pool.blocked.lookup b :=
  lookup_insert_eq ..

omit h in
/-- A blocked item has its dependencies. -/
theorem lookup_taskDeps_block {deps : List String} : (pool.block item deps).taskDeps.lookup b =
    if b = item.taskId then some deps else pool.taskDeps.lookup b :=
  lookup_insert_eq ..

/-- Block an item that the pool does not hold. -/
theorem Bookkept.block (hnot : ¬ pool.Holds item.taskId) :
    (pool.block item (pool.unresolvedDeps item)).Bookkept stale unlisted where
  sameKeys b := by
    rw [lookup_blocked_block, lookup_taskDeps_block]
    split_ifs
    · simp
    · exact h.sameKeys b
  unmet b item' deps hitem hdeps d hd := by
    rw [lookup_blocked_block] at hitem
    rw [lookup_taskDeps_block] at hdeps
    split_ifs at hitem hdeps with hb
    · cases hitem
      cases hdeps
      exact mem_unresolvedDeps
    · exact h.unmet b item' deps hitem hdeps d hd
  listed b deps hdeps d hd hgap := by
    change (pool.dependentsOf.link (pool.unresolvedDeps item) item.taskId).Lists d b
    rw [lookup_taskDeps_block] at hdeps
    rw [ReverseIndex.lists_link]
    split_ifs at hdeps with hb
    · cases hdeps
      exact Or.inr ⟨hd, hb⟩
    · exact Or.inl (h.listed b deps hdeps d hd hgap)
  counted := h.counted.insert (not_holds_iff.mp hnot).2 item
  ownId b item' hitem := by
    rw [lookup_blocked_block] at hitem
    split_ifs at hitem with hb
    · cases hitem
      exact hb.symm
    · exact h.ownId b item' hitem
  distinct := h.distinct
  apart id hid := by
    rw [lookup_blocked_block, if_neg (fun hid' : id = item.taskId => hnot (Or.inl (hid' ▸ hid)))]
    exact h.apart id hid

/-- Take a blocked item out. The reverse index may forget it, and nothing else. -/
theorem Bookkept.drop (hitem : pool.blocked.lookup b = some item)
    (hblocked : pool'.blocked = pool.blocked.erase b)
    (hdeps : pool'.taskDeps = pool.taskDeps.erase b)
    (hcounter : pool'.blockedPerPhase = pool.blockedPerPhase.adjust (· - 1) item.phaseId)
    (hlists : ∀ d k, k ≠ b → pool.dependentsOf.Lists d k → pool'.dependentsOf.Lists d k)
    (hcompleted : pool'.completedTasks = pool.completedTasks)
    (haffine : pool'.affinePrereqIds = pool.affinePrereqIds)
    (hqueue : pool'.queuedIds = pool.queuedIds) : pool'.Bookkept stale unlisted where
  sameKeys b' := by
    rw [hblocked, hdeps, lookup_erase_eq, lookup_erase_eq]
    split_ifs
    · simp
    · exact h.sameKeys b'
  unmet b' item' deps hitem' hdeps' d hd := by
    rw [hblocked] at hitem'
    rw [hdeps] at hdeps'
    rw [h.unmet b' item' deps (lookup_of_erase hitem') (lookup_of_erase hdeps') d hd,
      Awaits, Awaits,
      hcompleted, haffine]
  listed b' deps hdeps' d hd hgap := by
    rw [hdeps, lookup_erase_eq] at hdeps'
    split_ifs at hdeps' with hb
    exact hlists d b' hb (h.listed b' deps hdeps' d hd hgap)
  counted := by
    rw [hblocked, hcounter]
    exact h.counted.erase hitem
  ownId b' item' hitem' := by
    rw [hblocked] at hitem'
    exact h.ownId b' item' (lookup_of_erase hitem')
  distinct := by rw [hqueue]; exact h.distinct
  apart id hid := by
    rw [hqueue] at hid
    rw [hblocked, lookup_erase_eq]
    split_ifs
    · rfl
    · exact h.apart id hid

end Primitives

end DynRunner.PendingPool
