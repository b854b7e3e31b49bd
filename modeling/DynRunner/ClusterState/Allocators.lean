import DynRunner.ClusterState.DefBijection
import DynRunner.ClusterState.LedgerStep

/-!
# The allocators of the definition store

The store hands out definition ids and cell ids from two counters. Whatever reaches the store,
no counter is lowered, every id that the store itself knows stays below its counter, and the two
maps between cell ids and hashes invert each other. Of all ledger operations only those that
intern a definition or bind a cell touch the store at all.
-/

namespace DynRunner

open HashMap TaskDefStore

variable {I : Type}

namespace TaskDefStore

/-- The ids that the store knows are below its counters, and the cell maps invert each other. -/
structure Allocated (d : TaskDefStore I) : Prop where
  bound : ∀ h id, d.hashToId.lookup h = some id → id < d.nextId
  slots : ∀ id frozen, d.defs.lookup id = some frozen → id < d.nextId
  cells : ∀ h id, d.cellHashToId.lookup h = some id → id < d.nextCellId
  reserved : ∀ h id, d.cellIdReserved.lookup h = some id → id < d.nextCellId
  inverse : Inverse d.cellHashToId.lookup d.cellIdToHash.lookup

/-- The empty store is ahead of everything it has given. -/
theorem allocated_empty : Allocated (empty : TaskDefStore I) where
  bound := fun _ _ h => by cases h
  slots := fun _ _ h => by cases h
  cells := fun _ _ h => by cases h
  reserved := fun _ _ h => by cases h
  inverse := fun _ _ => ⟨fun h => (by cases h), fun h => (by cases h)⟩

/-- What every change of the store respects. -/
structure Grows (d d' : TaskDefStore I) : Prop where
  nextId : d.nextId ≤ d'.nextId
  nextCellId : d.nextCellId ≤ d'.nextCellId
  allocated : d.Allocated → d'.Allocated

theorem Grows.refl (d : TaskDefStore I) : Grows d d := ⟨le_rfl, le_rfl, id⟩

variable {d d' : TaskDefStore I} {hash : TaskHash} {id' wire : TaskDefId}

theorem Grows.trans {d'' : TaskDefStore I} (h : Grows d d') (h' : Grows d' d'') : Grows d d'' :=
  ⟨h.nextId.trans h'.nextId, h.nextCellId.trans h'.nextCellId,
    fun hd => h'.allocated (h.allocated hd)⟩

/-! ## Definition ids -/

variable {id : TaskDefId} {frozen : FrozenTaskDef I} {task : TaskInfo I}

/-- An allocation lowers no counter. -/
theorem grows_allocForHash : Grows d (d.allocForHash hash).2 := by
  unfold allocForHash
  cases d.hashToId.lookup hash with
  | some => exact .refl d
  | none =>
    refine ⟨Nat.le_succ _, le_rfl, fun hd => ⟨fun h id hid => ?_, fun id frozen hslot => ?_,
      hd.cells, hd.reserved, hd.inverse⟩⟩
    · rw [lookup_insert_eq] at hid
      split at hid
      · cases hid
        exact Nat.lt_succ_self _
      · exact (hd.bound h id hid).trans (Nat.lt_succ_self _)
    · exact (hd.slots id frozen hslot).trans (Nat.lt_succ_self _)

/-- Filling a slot under an id, and binding a hash to it. -/
theorem grows_putSlot (d : TaskDefStore I) (hash : TaskHash) (id : TaskDefId)
    (frozen : FrozenTaskDef I) : Grows d (d.putSlot id frozen) ∧
      Grows d { d.putSlot id frozen with
        hashToId := (d.putSlot id frozen).hashToId.insert hash id } := by
  have hnext : d.nextId ≤ max d.nextId (id + 1) := le_max_left _ _
  have hself : id < max d.nextId (id + 1) := (Nat.lt_succ_self id).trans_le (le_max_right _ _)
  have hslots : d.Allocated → ∀ id' frozen', (d.defs.insert id frozen).lookup id' = some frozen' →
      id' < max d.nextId (id + 1) := by
    intro hd id' frozen' hslot
    rw [lookup_insert_eq] at hslot
    split at hslot
    · rename_i heq
      rw [heq]
      exact hself
    · exact (hd.slots id' frozen' hslot).trans_le hnext
  refine ⟨⟨hnext, le_rfl, fun hd =>
    ⟨fun h id' hid => (hd.bound h id' hid).trans_le hnext, hslots hd,
      hd.cells, hd.reserved, hd.inverse⟩⟩,
    ⟨hnext, le_rfl, fun hd => ⟨fun h id' hid => ?_, hslots hd, hd.cells, hd.reserved, hd.inverse⟩⟩⟩
  rw [lookup_insert_eq] at hid
  split at hid
  · cases hid
    exact hself
  · exact (hd.bound h id' hid).trans_le hnext

/-- Interning lowers no counter. -/
theorem grows_internReportingPlacement (d : TaskDefStore I) (hash : TaskHash)
    (frozen : FrozenTaskDef I) : Grows d (d.internReportingPlacement hash frozen).2 := by
  unfold internReportingPlacement
  cases d.hashToId.lookup hash with
  | some => exact .refl d
  | none =>
    have halloc : Grows d d.alloc.2 := ⟨Nat.le_succ _, le_rfl, fun hd =>
      ⟨fun h id hid => (hd.bound h id hid).trans (Nat.lt_succ_self _),
        fun id x hslot => (hd.slots id x hslot).trans (Nat.lt_succ_self _),
        hd.cells, hd.reserved, hd.inverse⟩⟩
    exact halloc.trans (grows_putSlot d.alloc.2 hash d.nextId frozen).2

/-- Interning at a given id lowers no counter. -/
theorem grows_internAt (hok : d.internAt id hash frozen = .ok (id', d')) : Grows d d' := by
  unfold internAt at hok
  cases hbound : d.hashToId.lookup hash with
  | some =>
    simp only [hbound] at hok
    split at hok
    · cases hok
    · split at hok
      · cases hok
        exact (grows_putSlot d hash _ _).1
      · cases hok
        exact .refl d
  | none =>
    simp only [hbound] at hok
    split at hok
    · cases hok
    · cases hok
      exact (grows_putSlot d hash _ _).2

/-- Filling in dependencies lowers no counter. -/
theorem grows_fillDepRefs {refs : List TaskDepRef} : Grows d (d.fillDepRefs id refs) := by
  unfold fillDepRefs
  cases hslot : d.defs.lookup id with
  | none => exact .refl d
  | some frozen =>
    refine ⟨le_rfl, le_rfl, fun hd => ⟨hd.bound, fun id' frozen' hslot' => ?_, hd.cells,
      hd.reserved, hd.inverse⟩⟩
    rw [lookup_insert_eq] at hslot'
    split at hslot'
    · rename_i heq
      rw [heq]
      exact hd.slots id frozen hslot
    · exact hd.slots id' frozen' hslot'

/-- A raised floor lowers no counter. -/
theorem grows_resumeAllocFloor {floor : ℕ} : Grows d (d.resumeAllocFloor floor) :=
  ⟨le_max_left _ _, le_rfl, fun hd =>
    ⟨fun h id hid => (hd.bound h id hid).trans_le (le_max_left _ _),
      fun id frozen hslot => (hd.slots id frozen hslot).trans_le (le_max_left _ _),
      hd.cells, hd.reserved, hd.inverse⟩⟩

/-- Interning a task lowers no counter. -/
theorem grows_internTaskDef : Grows d (d.internTaskDef hash task).1 := by
  have hplaced := grows_internReportingPlacement d hash (FrozenTaskDef.fromTaskInfo task).1
  unfold internTaskDef
  dsimp only
  split
  · exact hplaced.trans grows_fillDepRefs
  · exact hplaced

/-- Interning at the id of the wire lowers no counter. -/
theorem grows_internTaskDefAtWire : Grows d (d.internTaskDefAtWire wire hash task).1 := by
  unfold internTaskDefAtWire
  dsimp only
  cases hok : d.internAt wire hash (FrozenTaskDef.fromTaskInfo task).1 with
  | error => exact .refl d
  | ok =>
    have hplaced := grows_internAt hok
    dsimp only
    split
    · exact hplaced.trans grows_fillDepRefs
    · exact hplaced

/-! ## Cell ids -/

/-- The allocation of a cell lowers no counter. -/
theorem grows_allocForCellHash : Grows d (d.allocForCellHash hash).2 := by
  unfold allocForCellHash
  cases d.cellHashToId.lookup hash with
  | some => exact .refl d
  | none =>
    cases d.cellIdReserved.lookup hash with
    | some => exact .refl d
    | none =>
      refine ⟨le_rfl, Nat.le_succ _, fun hd => ⟨hd.bound, hd.slots, fun h id hid =>
        (hd.cells h id hid).trans (Nat.lt_succ_self _), fun h id hid => ?_, hd.inverse⟩⟩
      rw [lookup_insert_eq] at hid
      split at hid
      · cases hid
        exact Nat.lt_succ_self _
      · exact (hd.reserved h id hid).trans (Nat.lt_succ_self _)

/-- Interning a cell at a given id lowers no counter. -/
theorem grows_internCellAt {id : SecondaryCellId}
    (hok : d.internCellAt id hash = .ok d') : Grows d d' := by
  unfold internCellAt at hok
  cases hbound : d.cellHashToId.lookup hash with
  | some =>
    simp only [hbound] at hok
    split at hok
    · cases hok
    · cases hok
      exact .refl d
  | none =>
    simp only [hbound] at hok
    split at hok
    · cases hok
    · rename_i hfree
      cases hok
      have hnext : d.nextCellId ≤ max d.nextCellId (id + 1) := le_max_left _ _
      refine ⟨le_rfl, hnext, fun hd => ⟨hd.bound, hd.slots, fun h id' hid => ?_,
        fun h id' hid => (hd.reserved h id' (lookup_of_erase hid)).trans_le hnext, ?_⟩⟩
      · rw [lookup_insert_eq] at hid
        split at hid
        · cases hid
          exact (Nat.lt_succ_self id).trans_le (le_max_right _ _)
        · exact (hd.cells h id' hid).trans_le hnext
      · -- Neither end was bound before.
        have hinv := hd.inverse.bind hbound (AList.lookup_eq_none.mpr hfree)
        have hids : (d.cellHashToId.insert hash id).lookup =
            Function.update d.cellHashToId.lookup hash (some id) := by
          funext h
          rw [lookup_insert_eq, Function.update_apply]
        have hhashes : (d.cellIdToHash.insert id hash).lookup =
            Function.update d.cellIdToHash.lookup id (some hash) := by
          funext i
          rw [lookup_insert_eq, Function.update_apply]
        rw [← hids, ← hhashes] at hinv
        exact hinv

/-- Anchoring a restored import lowers no counter. -/
theorem grows_reanchorRestoredAffineId : Grows d (d.reanchorRestoredAffineId hash frozen) := by
  unfold reanchorRestoredAffineId
  cases frozen.affineId with
  | none => exact .refl d
  | some affineId =>
    dsimp only
    cases hok : d.internCellAt affineId hash with
    | error => exact .refl d
    | ok => exact grows_internCellAt hok

end TaskDefStore

namespace ClusterState

open TaskDefStore (Grows)

/-! ## The operations of the ledger -/

/-- The definition of a new task lowers no counter. -/
theorem grows_internTaskDefAt (s : ClusterState I) (defId : Option TaskDefId) (hash : TaskHash)
    (task : TaskInfo I) :
    Grows s.definitions (s.internTaskDefAt defId hash task).1.definitions := by
  unfold internTaskDefAt
  cases defId with
  | none => exact grows_internTaskDef
  | some =>
    dsimp only
    split
    · exact grows_internTaskDef
    · exact grows_internTaskDefAtWire

variable {s : ClusterState I}

/-- The definition of a restored task lowers no counter. -/
theorem grows_registerRestoredDef {hash : TaskHash} {frozen : FrozenTaskDef I} :
    Grows s.definitions (s.registerRestoredDef hash frozen).definitions := by
  have hintern : Grows s.definitions (s.definitions.intern hash frozen) :=
    grows_internReportingPlacement _ hash frozen
  refine Grows.trans ?_ grows_reanchorRestoredAffineId
  split
  · exact hintern
  · cases hok : s.definitions.internAt frozen.defId hash frozen with
    | error => exact hintern
    | ok => exact grows_internAt hok

/-- Resuming the floor lowers no counter. -/
theorem grows_resumeDefAllocFloor : Grows s.definitions s.resumeDefAllocFloor.definitions :=
  grows_resumeAllocFloor

/-- None of the calls that touch the store lowers a counter. -/
theorem grows_defCall {c : DefCall I} : Grows s.definitions (c.run s).definitions := by
  cases c with
  | allocForHash => exact grows_allocForHash
  | intern hash frozen => exact grows_internReportingPlacement _ hash frozen
  | internAt id hash frozen =>
    rw [DefCall.run]
    cases hok : s.definitions.internAt id hash frozen with
    | error => exact .refl _
    | ok => exact grows_internAt hok
  | internTaskDefAt defId hash task => exact grows_internTaskDefAt s defId hash task
  | registerRestoredDef => exact grows_registerRestoredDef

variable {t : ClusterState I}

/-- What leaves the definitions alone lowers no counter. -/
theorem SameBeside.grows (h : SameBeside s t) : Grows s.definitions t.definitions := by
  rw [h.definitions]
  exact .refl _

/-- Registering a cell lowers no counter. -/
theorem grows_applySecondaryCellRegistered (s : ClusterState I) (hash : TaskHash)
    (cellId : SecondaryCellId) :
    Grows s.definitions (s.applySecondaryCellRegistered hash cellId).1.definitions := by
  unfold applySecondaryCellRegistered
  cases hok : s.definitions.internCellAt cellId hash with
  | error => exact .refl _
  | ok =>
    dsimp only
    split <;> exact grows_internCellAt hok

/-- What concerns the inbox lowers no counter. -/
theorem SameButInbox.grows (h : s.SameButInbox t) : Grows s.definitions t.definitions := by
  rw [SameButInbox] at h
  rw [h]
  exact .refl _

variable [DefaultHasher]

/-- Adding a task lowers no counter. -/
theorem Adds.grows {acc r : ApplyResult I} {defId : Option TaskDefId} {hash : TaskHash}
    {task : TaskInfo I} {status : TaskStatus} (h : Adds acc defId hash task status r) :
    Grows acc.state.definitions r.state.definitions := by
  rcases h with ⟨-, rfl⟩ | ⟨-, ⟨-, hstate, -⟩ | ⟨_, _, -, hstate, -⟩⟩
  · exact .refl _
  all_goals
    rw [hstate]
    exact grows_internTaskDefAt acc.state defId hash task

variable [RecordCodec I]

/-- No mutation lowers a counter of the store or breaks its bindings. -/
theorem grows_apply [Identifier I] [DonePayloadCodec] (s : ClusterState I)
    (m : ClusterMutation I) : Grows s.definitions (s.apply m).state.definitions := by
  cases m with
  | taskAdded hash task defId => exact (adds_taskAdded s hash task defId).grows
  | taskAssigned | taskCompleted | taskFailed | taskReinjected | taskRequeued | taskRetried
  | taskBlocked | taskSkippedAlreadyDone | setupCompleted | taskPreferredSecondariesUpdated =>
    exact (apply_entrySteps rfl).beside.grows
  | tasksSpawned =>
    exact foldl_related .refl .trans (fun r : ApplyResult I => r.state.definitions)
      (fun acc spawned => (adds_spawnTask acc spawned).grows) _ ⟨s, .noOp, [], []⟩
  | secondaryCellRegistered hash cellId => exact grows_applySecondaryCellRegistered s hash cellId
  | customMessagePosted | customMessageHandled | customMessageFailed =>
    exact (apply_sameButInbox rfl).grows
  | control =>
    rw [ClusterState.apply]
    dsimp only
    split
    · exact grows_resumeDefAllocFloor
    · exact .refl _

/-- A restore neither. -/
theorem grows_restoreInOrder {snap : ClusterStateSnapshot I}
    {order : List (TaskHash × TaskState I)} :
    Grows s.definitions (s.restoreInOrder snap order).1.definitions := by
  have htasks : Grows s.definitions (s.restoreTasks snap.taskOutputs order).1.definitions := by
    refine grows_resumeDefAllocFloor.trans (foldl_related .refl .trans
      (fun acc : ClusterState I × List (TaskInfo I) => acc.1.definitions) (fun acc e => ?_) order
      (s.resumeDefAllocFloor, []))
    exact grows_registerRestoredDef.trans (mergeTaskStateFuel_steps _ _ e.1 e.2 _).beside.grows
  refine htasks.trans ?_
  unfold restoreInOrder
  obtain ⟨t, resumed⟩ := s.restoreTasks snap.taskOutputs order
  have houtputs := (restoreOutputs_steps
    { t with control := t.control.restore snap.control } snap.taskOutputs).beside.grows
  refine houtputs.trans (Grows.trans ?_ (restoreCustom_sameButInbox _ _ _).grows)
  exact .refl _

end ClusterState

end DynRunner
