import DynRunner.Pool.BatchGraph
import DynRunner.Pool.Conservation

/-!
# Taking in a batch

Two ways of taking in a batch are compared with one call of `extend`: item by item, and after a
partition that sets aside the items whose dependencies do not exist. Both differ from what they
promise when one task id occurs in two phases, since most of the pool knows a task by its id alone.
-/

namespace DynRunner

open TaskInfo List

/-- The classes of a batch. The refused items come with a reason. -/
structure IngestPartition (I : Type) where
  valid : List (TaskInfo I)
  invalidDeps : List (TaskInfo I × String)
  duplicates : List (TaskInfo I × String)

namespace PendingPool

variable {I : Type} {pool : PendingPool I} {items batch : List (TaskInfo I)} {item : TaskInfo I}

section OneByOne

/-- Extend the pool with one item after the other, up to the first that is refused. -/
def extendEach (pool : PendingPool I) (items : List (TaskInfo I)) :
    Except PendingPoolError (PendingPool I) :=
  items.foldlM (fun pool item => pool.extend [item]) pool

/-- Items without dependencies, of distinct identities that the pool does not hold. -/
structure Plain (pool : PendingPool I) (items : List (TaskInfo I)) : Prop where
  free : ∀ item ∈ items, item.taskDependsOn = []
  distinct : (items.map identity).Nodup
  absent : ∀ item ∈ items, item.identity ∉ pool.collectKnownPhaseTaskIds

/-- No id of the items is known to the pool. -/
def Unknown (pool : PendingPool I) (items : List (TaskInfo I)) : Prop :=
  ∀ item ∈ items, item.taskId ∉ pool.collectKnownTaskIds

instance : Decidable (pool.Unknown items) :=
  inferInstanceAs (Decidable (∀ item ∈ items, item.taskId ∉ pool.collectKnownTaskIds))

section

variable (h : pool.Plain items)
include h

/-- A batch without dependencies is well formed if its ids are new. -/
theorem Plain.wellFormed_iff : pool.WellFormed items ↔ pool.Unknown items := by
  refine ⟨fun hwell item hitem hknown => ?_, fun hunknown => ⟨h.distinct, ?_, ?_⟩⟩
  · exact hwell.unknown item hitem (by simp [isDuplicate, hknown])
  · intro item hitem
    simp [isDuplicate, h.absent item hitem, hunknown item hitem]
  · intro item hitem dep hdep
    rw [h.free item hitem] at hdep
    cases hdep

/-- Items without dependencies add no edge to the graph. -/
theorem Plain.findCycle_iff : pool.findCycle items = none ↔ pool.findCycle [] = none := by
  have hedges : pool.batchEdges items = pool.batchEdges [] := by
    have hnone : items.flatMap (itemEdges fun id =>
        decide (id ∈ pool.completedTasks ∨ id ∈ pool.failedTasks)) = [] := by
      refine flatMap_eq_nil_iff.mpr fun item hitem => ?_
      rw [itemEdges, h.free item hitem]
      rfl
    rw [batchEdges, batchEdges, flatMap_append, hnone, append_nil, append_nil]
  rw [(findCycle_spec pool items).1, (findCycle_spec pool []).1, hedges]

/-- When a batch without dependencies is accepted, and what it leaves. -/
theorem Plain.toOption_extend : (pool.extend items).toOption =
    if pool.findCycle [] = none ∧ pool.Unknown items then some (items.foldl commitItem pool)
    else none := by
  by_cases hunknown : pool.Unknown items
  · rw [(h.wellFormed_iff.mpr hunknown).extend]
    cases hfind : pool.findCycle items with
    | none => simp [h.findCycle_iff.mp hfind, hunknown, Except.toOption]
    | some =>
      have hcycle : pool.findCycle [] ≠ none := fun hnone => by
        rw [h.findCycle_iff.mpr hnone] at hfind
        cases hfind
      simp [hcycle, Except.toOption]
  · obtain ⟨error, herror, -⟩ := extend_of_not_wellFormed (mt h.wellFormed_iff.mp hunknown)
    simp [herror, hunknown, Except.toOption]

end

/-- What is left to do after the first item. -/
theorem Plain.tail (h : pool.Plain (item :: items)) :
    pool.commitItem item = pool.pushBack item ∧ (pool.pushBack item).Plain items ∧
      ((pool.pushBack item).findCycle [] = none ↔ pool.findCycle [] = none) ∧
      ((pool.pushBack item).Unknown items ↔
        item.taskId ∉ items.map taskId ∧ pool.Unknown items) := by
  have hfree := h.free item mem_cons_self
  obtain ⟨hnew, hdistinct⟩ := nodup_cons.mp h.distinct
  have hqueued : (pool.pushBack item).queued.Perm (item :: pool.queued) :=
    (Routed.ready (.nil _)).queued
  refine ⟨by simp [commitItem, anyFailedDep, unresolvedDeps, hfree],
    ⟨fun other hother => h.free other (mem_cons_of_mem _ hother), hdistinct, ?_⟩, ?_, ?_⟩
  · intro other hother hmem
    rcases mem_append.mp hmem with hmem | hmem
    · rcases mem_cons.mp ((hqueued.map identity).mem_iff.mp hmem) with heq | hmem
      · exact hnew (heq ▸ mem_map_of_mem hother)
      · exact h.absent other (mem_cons_of_mem _ hother) (mem_append_left _ hmem)
    · exact h.absent other (mem_cons_of_mem _ hother) (mem_append_right _ hmem)
  · rw [(findCycle_spec _ []).1, (findCycle_spec _ []).1]
    rfl
  · have hknown (id : String) : id ∈ (pool.pushBack item).collectKnownTaskIds ↔
        id = item.taskId ∨ id ∈ pool.collectKnownTaskIds := by
      simp only [collectKnownTaskIds, Finset.mem_union, mem_toFinset,
        (hqueued.map taskId).mem_iff, map_cons, mem_cons, or_assoc]
      rfl
    simp only [Unknown, hknown, not_or, mem_map, not_exists, not_and]
    exact ⟨fun hall => ⟨fun other hother heq => (hall other hother).1 heq,
      fun other hother => (hall other hother).2⟩, fun hall other hother =>
      ⟨fun heq => hall.1 other hother heq, hall.2 other hother⟩⟩

/-- When its items are accepted one by one, and what they leave. -/
theorem Plain.toOption_extendEach (h : pool.Plain items) : (pool.extendEach items).toOption =
    if (items = [] ∨ pool.findCycle [] = none) ∧ (items.map taskId).Nodup ∧
      pool.Unknown items then some (items.foldl commitItem pool) else none := by
  induction items generalizing pool with
  | nil => simp [Unknown, extendEach, Except.toOption, pure, Except.pure]
  | cons item items ih =>
    have hone : pool.Plain [item] :=
      ⟨fun other hother => h.free other (by simp_all), nodup_singleton _,
        fun other hother => h.absent other (by simp_all)⟩
    have hfirst := hone.toOption_extend
    obtain ⟨hcommit, hrest, hcycle, hunknown⟩ := h.tail
    have hall : pool.Unknown (item :: items) ↔ pool.Unknown [item] ∧ pool.Unknown items := by
      simp [Unknown]
    have hstep : pool.extendEach (item :: items) =
        pool.extend [item] >>= fun next => next.extendEach items := rfl
    rw [hstep]
    cases hext : pool.extend [item] with
    | error =>
      have hnot : ¬ (pool.findCycle [] = none ∧ pool.Unknown [item]) := by
        intro hcond
        rw [hext, if_pos hcond] at hfirst
        cases hfirst
      rw [if_neg fun hcond => hnot ⟨by simpa using hcond.1, (hall.mp hcond.2.2).1⟩]
      rfl
    | ok next =>
      have hcond : pool.findCycle [] = none ∧ pool.Unknown [item] := by
        by_contra hnot
        rw [hext, if_neg hnot] at hfirst
        cases hfirst
      rw [hext, if_pos hcond] at hfirst
      obtain rfl : next = pool.pushBack item := by
        rw [← hcommit]
        exact Option.some.inj hfirst
      have hfold : (item :: items).foldl commitItem pool =
          items.foldl commitItem (pool.pushBack item) := by
        rw [foldl_cons, hcommit]
      rw [hfold]
      refine (ih hrest).trans (if_congr ?_ rfl rfl)
      rw [hcycle, hunknown, hall, map_cons, nodup_cons]
      simp only [hcond.1, hcond.2, or_true, true_and]
      tauto

/-- **Splitting a batch.** Items without dependencies are taken in by one call exactly as they are
one after the other, if and only if no id of them occurs twice, unless an id is known or the
blocked items wait in a circle, when both are refused. -/
theorem extend_split_iff (h : pool.Plain items) :
    (pool.extend items).toOption = (pool.extendEach items).toOption ↔
      (items = [] → pool.findCycle [] = none) ∧ (pool.findCycle [] = none → pool.Unknown items →
          (items.map taskId).Nodup) := by
  rw [h.toOption_extend, h.toOption_extendEach]
  by_cases hempty : items = []
  · subst hempty
    by_cases hcycle : pool.findCycle [] = none <;> simp [hcycle, Unknown]
  · by_cases hcycle : pool.findCycle [] = none <;> by_cases hunknown : pool.Unknown items <;>
      by_cases hnodup : (items.map taskId).Nodup <;>
      simp [hempty, hcycle, hunknown, hnodup]

end OneByOne

section Partition

variable (pool)

/-- The dependencies of an item that do not exist. -/
def missingDeps (batch : List (TaskInfo I)) (item : TaskInfo I) : List String :=
  (item.taskDependsOn.filter fun dep => !pool.resolves batch dep).map fun dep =>
    "(phase=" ++ dep.phaseId ++ ", task_id=" ++ dep.taskId ++ ")"

/-- Classify the items that are left of a batch, after items of the given identities. -/
def partitionFrom (pool : PendingPool I) (batch : List (TaskInfo I)) :
    List TaskIdentity → List (TaskInfo I) → IngestPartition I
  | _, [] => ⟨[], [], []⟩
  | seen, item :: items =>
    if item.identity ∈ seen || pool.isDuplicate item then
      let reason := "duplicate task identity (phase=" ++ item.phaseId ++ ", task_id=" ++
        item.taskId ++ ")"
      let rest := partitionFrom pool batch seen items
      { rest with duplicates := (item, reason) :: rest.duplicates }
    else
      let rest := partitionFrom pool batch (item.identity :: seen) items
      match pool.missingDeps batch item with
      | [] => { rest with valid := item :: rest.valid }
      | missing =>
        let reason := "missing dep " ++ ", ".intercalate missing
        { rest with invalidDeps := (item, reason) :: rest.invalidDeps }

/-- Classify a batch: what is there already, what names a dependency that does not exist, and the
rest. -/
def partitionIngest (batch : List (TaskInfo I)) : IngestPartition I :=
  pool.partitionFrom batch [] batch

/-- The ids of the items whose dependencies do not exist. -/
def invalidIds (batch : List (TaskInfo I)) : List String :=
  (pool.partitionIngest batch).invalidDeps.map fun e => e.1.taskId

variable {pool}

/-- Without duplicates, the partition filters the batch by its dependencies. -/
theorem partitionFrom_spec {seen : List TaskIdentity}
    (h : (pool.partitionFrom batch seen items).duplicates = []) :
    ((items.map identity).Nodup ∧ ∀ item ∈ items, item.identity ∉ seen ∧ ¬ pool.isDuplicate item) ∧
      (pool.partitionFrom batch seen items).valid =
        items.filter (fun item => item.taskDependsOn.all (pool.resolves batch)) ∧
      (pool.partitionFrom batch seen items).invalidDeps.map Prod.fst =
        items.filter (fun item => !item.taskDependsOn.all (pool.resolves batch)) := by
  induction items generalizing seen with
  | nil => simp [partitionFrom]
  | cons item items ih =>
    have hmissing : pool.missingDeps batch item = [] ↔
        item.taskDependsOn.all (pool.resolves batch) := by simp [missingDeps]
    by_cases hdup : (item.identity ∈ seen || pool.isDuplicate item) = true
    · simp [partitionFrom, hdup] at h
    simp only [partitionFrom, if_neg hdup] at h ⊢
    simp only [Bool.or_eq_true, decide_eq_true_eq, not_or] at hdup
    have hrest : (pool.partitionFrom batch (item.identity :: seen) items).duplicates = [] := by
      revert h
      split <;> exact id
    obtain ⟨⟨hnodup, hnew⟩, hvalid, hinvalid⟩ := ih hrest
    refine ⟨⟨nodup_cons.mpr ⟨fun hmem => ?_, hnodup⟩, fun other hother => ?_⟩, ?_⟩
    · obtain ⟨other, hother, heq⟩ := mem_map.mp hmem
      exact (hnew other hother).1 (heq ▸ mem_cons_self)
    · rcases mem_cons.mp hother with rfl | hother
      · exact hdup
      · exact ⟨fun hmem => (hnew other hother).1 (mem_cons_of_mem _ hmem), (hnew other hother).2⟩
    · split
      · next hnone => simp [hmissing.mp hnone, hvalid, hinvalid]
      · next hsome =>
        have hfalse := Bool.eq_false_iff.mpr (mt hmissing.mpr hsome)
        simp [hfalse, hvalid, hinvalid]

/-- Every dependency of an item exists. -/
def Resolved (pool : PendingPool I) (batch : List (TaskInfo I)) (item : TaskInfo I) : Prop :=
  ∀ dep ∈ item.taskDependsOn, pool.resolves batch dep

instance : Decidable (pool.Resolved batch item) :=
  inferInstanceAs (Decidable (∀ dep ∈ item.taskDependsOn, _))

/-- What a partition without duplicates says about the items. -/
structure Sorted (pool : PendingPool I) (batch : List (TaskInfo I)) : Prop where
  distinct : (batch.map identity).Nodup
  unknown : ∀ item ∈ batch, ¬ pool.isDuplicate item
  valid : ∀ item,
    item ∈ (pool.partitionIngest batch).valid ↔ item ∈ batch ∧ pool.Resolved batch item
  sublist : (pool.partitionIngest batch).valid.Sublist batch
  invalid : ∀ item, item ∈ (pool.partitionIngest batch).invalidDeps.map Prod.fst ↔
    item ∈ batch ∧ ¬ pool.Resolved batch item

/-- A batch without duplicates is sorted. -/
theorem sorted_of_partition (h : (pool.partitionIngest batch).duplicates = []) :
    pool.Sorted batch := by
  obtain ⟨⟨hdistinct, hnew⟩, hvalid, hinvalid⟩ := partitionFrom_spec h
  refine ⟨hdistinct, fun item hitem => (hnew item hitem).2, fun item => ?_, ?_, fun item => ?_⟩
  · rw [partitionIngest, hvalid]
    simp [Resolved]
  · rw [partitionIngest, hvalid]
    exact filter_sublist
  · rw [partitionIngest, hinvalid]
    simp [Resolved]

/-- The invalid ids of a sorted batch. -/
theorem Sorted.mem_invalidIds (h : pool.Sorted batch) {id : String} : id ∈ pool.invalidIds batch ↔
    ∃ item ∈ batch, ¬ pool.Resolved batch item ∧ item.taskId = id := by
  have hids : pool.invalidIds batch =
      ((pool.partitionIngest batch).invalidDeps.map Prod.fst).map taskId := by
    rw [invalidIds, map_map]
    rfl
  rw [hids, mem_map]
  simp only [h.invalid, and_assoc]

/-- The valid items are well formed once the others are marked, unless they share an id. -/
theorem Sorted.wellFormed_iff (h : pool.Sorted batch) :
    (pool.markTasksFailed (pool.invalidIds batch)).WellFormed (pool.partitionIngest batch).valid ↔
      ∀ a ∈ batch, ∀ b ∈ batch, a.taskId = b.taskId → pool.Resolved batch a →
        pool.Resolved batch b := by
  have hknown (id : String) :
      id ∈ (pool.markTasksFailed (pool.invalidIds batch)).collectKnownTaskIds ↔
        id ∈ pool.collectKnownTaskIds ∨ id ∈ pool.invalidIds batch := by
    simp only [collectKnownTaskIds, markTasksFailed, queued, Finset.mem_union, mem_toFinset]
    tauto
  constructor
  · intro hwell a ha b hb hid hresolved
    by_contra hnot
    have hmem := (hknown _).mpr (.inr (h.mem_invalidIds.mpr ⟨b, hb, hnot, hid.symm⟩))
    exact hwell.unknown a ((h.valid a).mpr ⟨ha, hresolved⟩) (by simp [isDuplicate, hmem])
  · intro hapart
    refine ⟨h.distinct.sublist (h.sublist.map _), fun item hitem hdup => ?_,
      fun item hitem dep hdep => ?_⟩
    · have hold := h.unknown item ((h.valid item).mp hitem).1
      simp only [isDuplicate, Bool.or_eq_true, decide_eq_true_eq, not_or, hknown] at hold hdup
      rcases hdup with hmem | hmem | hmem
      · exact hold.1 hmem
      · exact hold.2 hmem
      · obtain ⟨other, hother, hnot, hid⟩ := h.mem_invalidIds.mp hmem
        obtain ⟨hbatch, hresolved⟩ := (h.valid item).mp hitem
        exact hnot (hapart item hbatch other hother hid.symm hresolved)
    · have hold := ((h.valid item).mp hitem).2 dep hdep
      simp only [resolves, Bool.or_eq_true, decide_eq_true_eq, hknown] at hold ⊢
      rcases hold with (hmem | hmem) | hmem
      · exact .inl (.inl hmem)
      · obtain ⟨other, hother, heq⟩ := mem_map.mp hmem
        by_cases hvalid : other ∈ (pool.partitionIngest batch).valid
        · exact .inl (.inr (mem_map.mpr ⟨other, hvalid, heq⟩))
        · have hid : other.taskId = dep.taskId := (Prod.mk.inj (toLex_inj.mp heq)).2
          refine .inr (.inr (h.mem_invalidIds.mpr ⟨other, hother, fun hall => ?_, hid⟩))
          exact hvalid ((h.valid other).mpr ⟨hother, hall⟩)
      · exact .inr (.inl hmem)

/-- **Partition, then extend.** If the partition finds no duplicate, the valid items are refused at
most for a cycle, exactly if of the items of one id all have their dependencies or none has. -/
theorem partition_then_extend_iff (h : (pool.partitionIngest batch).duplicates = []) :
    (∀ error, (pool.markTasksFailed (pool.invalidIds batch)).extend
        (pool.partitionIngest batch).valid = .error error → aboutIds error = false) ↔
      ∀ a ∈ batch, ∀ b ∈ batch, a.taskId = b.taskId → pool.Resolved batch a →
        pool.Resolved batch b := by
  rw [← (sorted_of_partition h).wellFormed_iff]
  constructor
  · intro hall
    by_contra hwell
    obtain ⟨error, herror, habout⟩ := extend_of_not_wellFormed hwell
    rw [hall error herror] at habout
    cases habout
  · intro hwell error herror
    rw [hwell.extend] at herror
    split at herror
    · rw [← Except.error.inj herror]
      rfl
    · cases herror

end Partition

end PendingPool

namespace Sample

open PendingPool

/-- Two tasks `"x"` in the phases `"p"` and `"q"`. The first has the given dependencies. -/
def twins (deps : List String) : List (TaskInfo String) :=
  [task "x" deps, { task "x" [] with phaseId := "q" }]

/-- Two tasks of different ids can be taken in one after the other. -/
theorem extend_split_distinct : ((fresh ["p"] ∅).extend [task "a" [], task "b" []]).toOption =
      ((fresh ["p"] ∅).extendEach [task "a" [], task "b" []]).toOption := by
  have hplain : (fresh ["p"] ∅).Plain [task "a" [], task "b" []] :=
    ⟨by decide, by decide, by decide⟩
  exact (extend_split_iff hplain).mpr ⟨fun _ => rfl, fun _ _ => by decide⟩

/-- One call takes both tasks of one id. Of two calls the second is refused, since the pool knows
the id. -/
theorem extend_split_twins : (fresh ["p", "q"] ∅).Plain (twins []) ∧
    (∃ pool', (fresh ["p", "q"] ∅).extend (twins []) = .ok pool') ∧
    (fresh ["p", "q"] ∅).extendEach (twins []) = .error (.duplicateTaskId "x") :=
  ⟨⟨by decide, by decide, by decide⟩, ⟨_, rfl⟩, rfl⟩

/-- An item without its dependency is set aside and the other is taken. -/
theorem partition_then_extend_distinct :
    ((fresh ["p"] ∅).partitionIngest [task "a" ["gone"], task "b" []]).duplicates = [] ∧
    ∀ error, ((fresh ["p"] ∅).markTasksFailed
      ((fresh ["p"] ∅).invalidIds [task "a" ["gone"], task "b" []])).extend
        ((fresh ["p"] ∅).partitionIngest [task "a" ["gone"], task "b" []]).valid = .error error →
          aboutIds error = false :=
  ⟨by decide, (partition_then_extend_iff (by decide)).mpr (by decide)⟩

/-- The first task of an id is set aside, and the other is then refused as a duplicate. -/
theorem partition_then_extend_twins :
    ((fresh ["p", "q"] ∅).partitionIngest (twins ["gone"])).duplicates = [] ∧
    ((fresh ["p", "q"] ∅).markTasksFailed ((fresh ["p", "q"] ∅).invalidIds (twins ["gone"]))).extend
      ((fresh ["p", "q"] ∅).partitionIngest (twins ["gone"])).valid =
        .error (.duplicateTaskId "x") := ⟨rfl, rfl⟩

end Sample

end DynRunner
