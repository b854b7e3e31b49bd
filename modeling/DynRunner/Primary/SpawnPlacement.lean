import DynRunner.ClusterState.DefBijection
import DynRunner.Primary.SpawnOrder

/-!
# Spawned tasks are placed

Before a batch of new tasks is applied, every task has the id of its definition reserved. A task
whose id is reserved under an empty slot is placed there and enters the ledger under its own
identity, and the others still wait. So a batch of new tasks that comes to a ledger in which every
id belongs to a task enters it as a whole, and brings no other identity.
-/

namespace DynRunner

open ClusterState List FrozenTaskDef

variable {I : Type}

namespace TaskDefStore

variable {id id' wire : TaskDefId} {s : TaskDefStore I} {refs : List TaskDepRef}

/-- Filling in dependencies concerns one definition. -/
theorem resolve_fillDepRefs_of_ne (hne : id' ≠ id) :
    (s.fillDepRefs id refs).resolve id' = s.resolve id' := by
  unfold fillDepRefs
  cases s.defs.lookup id with
  | none => rfl
  | some => exact AList.lookup_insert_ne hne

/-- The dependencies of that definition are filled in. -/
theorem resolve_fillDepRefs_self {d : FrozenTaskDef I} (hd : s.resolve id = some d) :
    (s.fillDepRefs id refs).resolve id = some { d with taskDependsOn := refs } := by
  rw [resolve] at hd
  simp [fillDepRefs, hd, resolve]

/-- Filling in dependencies gives no id. -/
theorem nextId_fillDepRefs : (s.fillDepRefs id refs).nextId = s.nextId := by
  unfold fillDepRefs
  split <;> rfl

/-- Placing the definition of a task at the id that is reserved for its hash. -/
theorem internTaskDefAtWire_reserved {hash : TaskHash}
    (hid : s.idOf hash = some wire) (hslot : s.resolve wire = none) (task : TaskInfo I) :
    (∃ d routing, (s.internTaskDefAtWire wire hash task).2 = some (d, routing) ∧
        d.phaseId = task.phaseId ∧ d.taskId = task.taskId) ∧
      (s.internTaskDefAtWire wire hash task).1.idOf = s.idOf ∧
      (∀ id, id ≠ wire → (s.internTaskDefAtWire wire hash task).1.resolve id = s.resolve id) ∧
      s.nextId ≤ (s.internTaskDefAtWire wire hash task).1.nextId := by
  have hok : s.internAt wire hash (fromTaskInfo task).1 =
      .ok (wire, s.putSlot wire { (fromTaskInfo task).1 with defId := wire }) := by
    rw [idOf] at hid
    simp [internAt, hid, hslot]
  have hput : (s.putSlot wire { (fromTaskInfo task).1 with defId := wire }).resolve
      wire = some { (fromTaskInfo task).1 with defId := wire } :=
    resolve_putSlot.trans (if_pos rfl)
  unfold internTaskDefAtWire
  simp only [hslot, Option.isNone_none, hok, if_true]
  refine ⟨?_, ?_, fun id hne => ?_, ?_⟩
  · exact ⟨_, _, congrArg (Option.map _) (resolve_fillDepRefs_self hput), rfl, rfl⟩
  · rw [idOf_fillDepRefs]
    rfl
  · rw [resolve_fillDepRefs_of_ne hne, resolve_putSlot, if_neg hne]
  · rw [nextId_fillDepRefs]
    exact le_max_left _ _

end TaskDefStore

namespace ClusterState

variable {s t : ClusterState I} {phaseId : PhaseId} {taskId : String} {h : TaskHash}
  {acc : ApplyResult I} {task : TaskInfo I} {batch : List (TaskInfo I × Option TaskDefId)}

/-- Some entry has the identity, exactly if the lookup finds one. -/
theorem taskHashForDep_isSome_iff :
    (s.taskHashForDep phaseId taskId).isSome = true ↔ ∃ h, s.HasEntry h phaseId taskId := by
  cases hfound : s.taskHashForDep phaseId taskId with
  | none =>
    refine ⟨nofun, fun ⟨h, hentry⟩ => ?_⟩
    exact absurd hentry (not_hasEntry_of_taskHashForDep hfound h)
  | some h => exact ⟨fun _ => ⟨h, hasEntry_of_taskHashForDep hfound⟩, fun _ => rfl⟩

/-- An entry stays with what extends the state. -/
theorem HasEntry.extends (hentry : s.HasEntry h phaseId taskId) (hext : s.Extends t) :
    t.HasEntry h phaseId taskId := by
  refine hentry.imp ?_ ?_
  · exact fun ⟨st, hst, hid⟩ => ⟨st, hext.kept h st hst, hid⟩
  · exact fun ⟨entry, hin, hid⟩ => ⟨entry, (hext.settledEntry h).trans hin, hid⟩

/-- A task with an entry is known. -/
theorem HasEntry.containsTask (hentry : s.HasEntry h phaseId taskId) : s.containsTask h = true := by
  rw [ClusterState.containsTask, Bool.or_eq_true]
  rcases hentry with ⟨st, hst, -⟩ | ⟨entry, hin, -⟩
  · exact .inl (decide_eq_true (AList.lookup_isSome.mp (by rw [hst]; rfl)))
  · rw [settledEntry] at hin
    exact .inr (decide_eq_true (AList.lookup_isSome.mp (by rw [hin]; rfl)))

/-- Known tasks stay known. -/
theorem Extends.containsTask (hext : s.Extends t)
    (hin : s.containsTask h = true) : t.containsTask h = true := by
  rw [ClusterState.containsTask, Bool.or_eq_true] at hin ⊢
  refine hin.imp (fun hfat => ?_) (fun hsettled => ?_)
  · obtain ⟨st, hst⟩ := Option.isSome_iff_exists.mp
      (AList.lookup_isSome.mpr (of_decide_eq_true hfat))
    exact decide_eq_true (AList.lookup_isSome.mp (by rw [hext.kept h st hst]; rfl))
  · rw [settledContains, hext.settled]
    exact hsettled

variable [DefaultHasher] [Identifier I]

/-- The hashes of a batch. -/
def batchHashes (batch : List (TaskInfo I × Option TaskDefId)) : List TaskHash :=
  batch.map fun e => computeTaskHash e.1

/-- The definition store is ready for new tasks: ids are sound, a hash has an id only if the ledger
has the task, and no id of a settled task is ahead. -/
structure SpawnReady (s : ClusterState I) : Prop where
  sound : ∃ submitted, s.definitions.Sound submitted
  bound : ∀ hash, s.definitions.idOf hash ≠ none → s.containsTask hash = true
  settled : ∀ id, s.settled.isDefIdSettled id = true → id < s.definitions.nextId

/-- The ids of a batch of new tasks are reserved, and their slots are empty. -/
structure Awaiting (s : ClusterState I) (batch : List (TaskInfo I × Option TaskDefId)) : Prop where
  sound : ∃ submitted, s.definitions.Sound submitted
  bound : ∀ hash, s.definitions.idOf hash ≠ none →
    s.containsTask hash = true ∨ hash ∈ batchHashes batch
  settled : ∀ id, s.settled.isDefIdSettled id = true → id < s.definitions.nextId
  new : ∀ e ∈ batch, s.containsTask (computeTaskHash e.1) = false
  distinct : (batchHashes batch).Nodup
  reserved : ∀ e ∈ batch, ∃ wire, e.2 = some wire ∧
    s.definitions.idOf (computeTaskHash e.1) = some wire ∧ s.definitions.resolve wire = none ∧
    s.settled.isDefIdSettled wire = false

/-- A ledger in which nothing is reserved is ready. -/
theorem Awaiting.spawnReady (h : s.Awaiting []) : s.SpawnReady :=
  ⟨h.sound, fun hash hid => (h.bound hash hid).resolve_right (by simp [batchHashes]), h.settled⟩

/-- A task with a reserved id is placed under it. -/
theorem spawnTask_reserved {wire : TaskDefId}
    (hnew : acc.state.containsTask (computeTaskHash task) = false)
    (hid : acc.state.definitions.idOf (computeTaskHash task) = some wire)
    (hslot : acc.state.definitions.resolve wire = none)
    (hset : acc.state.settled.isDefIdSettled wire = false) :
    let defs := (acc.state.definitions.internTaskDefAtWire wire (computeTaskHash task) task).1
    (spawnTask acc (task, some wire)).state.definitions = defs ∧
      (spawnTask acc (task, some wire)).state.settled = acc.state.settled ∧
      ∃ st : TaskState I, st.definition.phaseId = task.phaseId ∧
        st.definition.taskId = task.taskId ∧
        (spawnTask acc (task, some wire)).state.tasks =
          acc.state.tasks.insert (computeTaskHash task) st := by
  intro defs
  obtain ⟨⟨d, routing, hsome, hphase, htask⟩, -⟩ :=
    TaskDefStore.internTaskDefAtWire_reserved hid hslot task
  have hintern : acc.state.internTaskDefAt (some wire) (computeTaskHash task) task =
      ({ acc.state with definitions := defs }, some (d, routing)) := by
    simp only [internTaskDefAt, hset, Bool.false_eq_true, if_false, hsome, defs]
  have hstate : (spawnTask acc (task, some wire)).state =
      { acc.state with definitions := defs }.setTaskState (computeTaskHash task)
        ⟨d, routing, 0, (acc.state.spawnClass task).status⟩ := by
    simp only [spawnTask, hnew, Bool.false_eq_true, if_false, hintern]
  rw [hstate]
  exact ⟨rfl, rfl, ⟨d, routing, 0, (acc.state.spawnClass task).status⟩, hphase, htask, rfl⟩

/-- One task with a reserved id enters the ledger, and the others still wait. -/
theorem Awaiting.spawnTask {spawned : TaskInfo I × Option TaskDefId}
    (h : acc.state.Awaiting (spawned :: batch)) :
    (spawnTask acc spawned).state.Awaiting batch ∧
      (spawnTask acc spawned).state.HasEntry (computeTaskHash spawned.1)
        spawned.1.phaseId spawned.1.taskId ∧
      ∀ hash phaseId taskId, (spawnTask acc spawned).state.HasEntry hash phaseId taskId →
        acc.state.HasEntry hash phaseId taskId ∨
          (spawned.1.phaseId = phaseId ∧ spawned.1.taskId = taskId) := by
  obtain ⟨task, defId⟩ := spawned
  obtain ⟨wire, rfl, hid, hslot, hset⟩ := h.reserved _ mem_cons_self
  obtain ⟨-, hids, hslots, hnext⟩ := TaskDefStore.internTaskDefAtWire_reserved hid hslot task
  obtain ⟨hdefs, hsettled, st, hphase, htask, htasks⟩ :=
    spawnTask_reserved (h.new _ mem_cons_self) hid hslot hset
  obtain ⟨hhead, htail⟩ := nodup_cons.mp h.distinct
  have hne : ∀ e ∈ batch, computeTaskHash e.1 ≠ computeTaskHash task :=
    fun e he heq => hhead (mem_map.mpr ⟨e, he, heq⟩)
  have hother : ∀ hash, hash ≠ computeTaskHash task →
      (ClusterState.spawnTask acc (task, some wire)).state.containsTask hash =
        acc.state.containsTask hash := fun hash hdiff => containsTask_spawnTask hdiff
  have hcontains : (ClusterState.spawnTask acc (task, some wire)).state.containsTask
      (computeTaskHash task) = true := by
    rw [containsTask, htasks]
    simp
  refine ⟨⟨?_, fun hash hbound => ?_, fun id hsettledId => ?_, fun e he => ?_, htail,
    fun e he => ?_⟩, .inl ⟨st, ?_, ?_⟩, fun hash phaseId taskId hentry => ?_⟩
  · obtain ⟨submitted, hsound⟩ := h.sound
    rw [hdefs]
    refine ⟨_, (hsound.mono (subset_cons_self _ submitted)).internTaskDefAtWire ?_ mem_cons_self⟩
    rintro ⟨hfree, -⟩
    rw [hid] at hfree
    cases hfree
  · by_cases hsame : hash = computeTaskHash task
    · rw [hsame]
      exact .inl hcontains
    · rw [hdefs, hids] at hbound
      rw [hother hash hsame]
      exact (h.bound hash hbound).imp_right fun hin => (mem_cons.mp hin).resolve_left hsame
  · rw [hsettled] at hsettledId
    rw [hdefs]
    exact (h.settled id hsettledId).trans_le hnext
  · rw [hother _ (hne e he)]
    exact h.new e (mem_cons_of_mem _ he)
  · obtain ⟨wire', hwire, hid', hslot', hset'⟩ := h.reserved e (mem_cons_of_mem _ he)
    refine ⟨wire', hwire, ?_, ?_, ?_⟩
    · rw [hdefs, hids]
      exact hid'
    · rw [hdefs, hslots wire' ?_]
      · exact hslot'
      -- Two hashes do not share an id.
      · rintro rfl
        obtain ⟨submitted, hsound⟩ := h.sound
        exact hne e he (hsound.registry.injective _ _ _ hid' hid)
    · rw [hsettled]
      exact hset'
  · rw [htasks, HashMap.lookup_insert_eq, if_pos rfl]
  · simp [TaskState.hasIdentity, hphase, htask]
  · rcases hentry with ⟨st', hst', hidentity⟩ | ⟨entry, hin, hidentity⟩
    · rw [htasks, HashMap.lookup_insert_eq] at hst'
      split_ifs at hst' with hsame
      · cases hst'
        simp only [TaskState.hasIdentity, hphase, htask, Bool.and_eq_true, decide_eq_true_eq]
          at hidentity
        exact .inr ⟨hidentity.2, hidentity.1⟩
      · exact .inl (.inl ⟨st', hst', hidentity⟩)
    · rw [settledEntry, hsettled] at hin
      exact .inl (.inr ⟨entry, hin, hidentity⟩)

/-- A batch with reserved ids enters the ledger as a whole, and brings no other identity. -/
theorem Awaiting.foldl_spawnTask (acc : ApplyResult I) (h : acc.state.Awaiting batch) :
    let t := (batch.foldl ClusterState.spawnTask acc).state
    t.SpawnReady ∧ (∀ e ∈ batch, t.HasEntry (computeTaskHash e.1) e.1.phaseId e.1.taskId) ∧
      ∀ hash phaseId taskId, t.HasEntry hash phaseId taskId →
        acc.state.HasEntry hash phaseId taskId ∨
          ∃ e ∈ batch, e.1.phaseId = phaseId ∧ e.1.taskId = taskId := by
  induction batch generalizing acc with
  | nil => exact ⟨h.spawnReady, by simp, fun _ _ _ hentry => .inl hentry⟩
  | cons spawned batch ih =>
    obtain ⟨hrest, hentered, horigin⟩ := h.spawnTask
    obtain ⟨hready, hall, hothers⟩ := ih _ hrest
    refine ⟨hready, forall_mem_cons.mpr ⟨?_, hall⟩, fun hash phaseId taskId hentry => ?_⟩
    · exact hentered.extends (extends_foldl_spawnTask batch _)
    · rcases hothers hash phaseId taskId hentry with hold | ⟨e, he, hid⟩
      · refine (horigin hash phaseId taskId hold).imp_right fun hid => ?_
        exact ⟨spawned, mem_cons_self, hid⟩
      · exact .inr ⟨e, mem_cons_of_mem _ he, hid⟩

/-- A ready ledger waits for nothing. -/
theorem SpawnReady.awaiting (h : s.SpawnReady) : s.Awaiting [] where
  __ := h
  bound hash hid := .inl (h.bound hash hid)
  new := by simp
  distinct := nodup_nil
  reserved := by simp

/-- Reserving the id of one more new task. -/
theorem Awaiting.allocForHash (h : s.Awaiting batch)
    (hnew : s.containsTask (computeTaskHash task) = false)
    (hother : computeTaskHash task ∉ batchHashes batch) :
    { s with definitions := (s.definitions.allocForHash (computeTaskHash task)).2 }.Awaiting
      (batch ++ [(task, some (s.definitions.allocForHash (computeTaskHash task)).1)]) := by
  obtain ⟨submitted, hsound⟩ := h.sound
  have hfree : s.definitions.idOf (computeTaskHash task) = none := by
    by_contra hbound
    rcases h.bound _ hbound with hin | hin
    · rw [hnew] at hin
      cases hin
    · exact hother hin
  have halloc : s.definitions.allocForHash (computeTaskHash task) = (s.definitions.nextId,
      { s.definitions with
        nextId := s.definitions.nextId + 1
        hashToId := s.definitions.hashToId.insert (computeTaskHash task)
          s.definitions.nextId }) := by
    rw [TaskDefStore.idOf] at hfree
    simp only [TaskDefStore.allocForHash, hfree, TaskDefStore.alloc]
  have hbatch : batchHashes (batch ++ [(task, some s.definitions.nextId)]) =
      batchHashes batch ++ [computeTaskHash task] := map_append
  have hsound' := hsound.allocForHash (computeTaskHash task)
  rw [halloc] at hsound' ⊢
  refine ⟨⟨submitted, hsound'⟩, fun hash hbound => ?_, fun id hid => ?_, fun e he => ?_, ?_,
    fun e he => ?_⟩
  · rw [hbatch, mem_append, mem_singleton]
    rw [TaskDefStore.idOf, HashMap.lookup_insert_eq] at hbound
    by_cases hsame : hash = computeTaskHash task
    · exact .inr (.inr hsame)
    · rw [if_neg hsame] at hbound
      exact (h.bound hash hbound).imp_right .inl
  · exact Nat.lt_succ_of_lt (h.settled id hid)
  · rcases mem_append.mp he with he | he
    · exact h.new e he
    · rw [mem_singleton.mp he]
      exact hnew
  · rw [hbatch, ← concat_eq_append]
    exact h.distinct.concat hother
  · rcases mem_append.mp he with he | he
    · obtain ⟨wire, hwire, hid, hslot, hset⟩ := h.reserved e he
      refine ⟨wire, hwire, ?_, hslot, hset⟩
      rw [TaskDefStore.idOf, HashMap.lookup_insert_eq, if_neg]
      · exact hid
      · intro hsame
        rw [hsame, hfree] at hid
        cases hid
    · rw [mem_singleton.mp he]
      refine ⟨_, rfl, AList.lookup_insert _, hsound.slot_free hsound.registry.next_free, ?_⟩
      by_contra hsettled
      exact absurd (h.settled _ (by simpa using hsettled)) (lt_irrefl _)

/-- Waiting depends on the hashes and the ids of the batch only. -/
theorem Awaiting.map
    (h : s.Awaiting batch) {f : TaskInfo I × Option TaskDefId → TaskInfo I × Option TaskDefId}
    (hhash : ∀ e, computeTaskHash (f e).1 = computeTaskHash e.1) (hid : ∀ e, (f e).2 = e.2) :
    s.Awaiting (batch.map f) := by
  have hbatch : batchHashes (batch.map f) = batchHashes batch := by
    simp only [batchHashes, map_map]
    exact map_congr_left fun e _ => hhash e
  refine ⟨h.sound, ?_, h.settled, ?_, ?_, ?_⟩
  · rw [hbatch]
    exact h.bound
  · simpa only [forall_mem_map, hhash] using h.new
  · rw [hbatch]
    exact h.distinct
  · simpa only [forall_mem_map, hhash, hid] using h.reserved

end ClusterState

namespace Originator

variable [DefaultHasher] [Identifier I]

/-- Reserving the ids of a batch of new tasks. -/
theorem awaiting_reserveDefIds (tasks : List (TaskInfo I)) (ids : BatchIds) {o : Originator I}
    {batch : List (TaskInfo I × Option TaskDefId)} (h : o.cluster.Awaiting batch)
    (hnew : ∀ task ∈ tasks, o.cluster.containsTask (computeTaskHash task) = false)
    (hdistinct : (batchHashes batch ++ tasks.map computeTaskHash).Nodup) :
    (o.reserveDefIds ids (tasks.map (·, none))).2.1.cluster.Awaiting
      (batch ++ (o.reserveDefIds ids (tasks.map (·, none))).1) := by
  induction tasks generalizing o ids batch with
  | nil => simpa [reserveDefIds] using h
  | cons task tasks ih =>
    obtain ⟨hhead, htail⟩ := forall_mem_cons.mp hnew
    have hother : computeTaskHash task ∉ batchHashes batch := fun hin =>
      (nodup_append.mp hdistinct).2.2 _ hin _ mem_cons_self rfl
    have hstep := ih (ids.insert (task.phaseId, task.taskId)
        (o.cluster.definitions.allocForHash (computeTaskHash task)).1)
      (o := { o with cluster := { o.cluster with
        definitions := (o.cluster.definitions.allocForHash (computeTaskHash task)).2 } })
      (h.allocForHash hhead hother) htail (by
        simpa [batchHashes] using hdistinct)
    rw [append_assoc] at hstep
    exact hstep

/-- The batch that is applied waits with its ids reserved. -/
theorem awaiting_spawnBatch {o : Originator I} (h : o.cluster.SpawnReady)
    {tasks : List (TaskInfo I)}
    (hnew : ∀ task ∈ tasks, o.cluster.containsTask (computeTaskHash task) = false)
    (hdistinct : (tasks.map computeTaskHash).Nodup) :
    (o.spawnBatch tasks).2.cluster.Awaiting (o.spawnBatch tasks).1 := by
  have hreserved := awaiting_reserveDefIds tasks ∅ h.awaiting hnew
    (by simpa [batchHashes] using hdistinct)
  rw [nil_append] at hreserved
  exact hreserved.map (fun _ => rfl) (fun _ => rfl)

/-- The hashes and the identities of the batch are those of the tasks. -/
theorem spawnBatch_map_identity (o : Originator I) (tasks : List (TaskInfo I)) :
    (o.spawnBatch tasks).1.map (fun e => (computeTaskHash e.1, e.1.phaseId, e.1.taskId)) =
      tasks.map fun task => (computeTaskHash task, task.phaseId, task.taskId) := by
  have hmap := congrArg (map fun task : TaskInfo I =>
    (computeTaskHash task, task.phaseId, task.taskId)) (spawnBatch_map o tasks)
  rw [map_map, map_map] at hmap
  exact hmap

end Originator

end DynRunner
