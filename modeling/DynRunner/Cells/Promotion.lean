import DynRunner.Cells.Bitvector
import DynRunner.ClusterState.Allocators
import Mathlib.Data.Fintype.EquivFin

/-!
# What a promoted primary mints

A node mints definition ids, cell ids and cell generations from three counters. When it adopts a
primary change it raises two of them: the definition ids past those of the settled records, the
generations past those in the bitvector. The counter of the cell ids is left where it is, and of
the definition ids in memory only those that the definition store knows are below theirs.

So every generation minted afterwards is new. The ids are exactly when the counters were already
past the ids that nobody looks at: those of the entries in memory, of the settled records and of
the bitvector.
-/

namespace DynRunner

open ClusterState TaskDefId SecondaryCellBitvector HashMap List TaskDefStore

variable {I : Type}

/-- The cells of a node and the counter of its generations. -/
structure SecondaryCellState where
  bitvector : SecondaryCellBitvector
  nextCellGen : ℕ

namespace SecondaryCellState

/-- `next_cell_generation`. -/
def nextCellGeneration (s : SecondaryCellState) : ℕ × SecondaryCellState :=
  (s.nextCellGen, { s with nextCellGen := s.nextCellGen + 1 })

/-- `resume_cell_gen_floor`. -/
def resumeCellGenFloor (s : SecondaryCellState) (floor : ℕ) : SecondaryCellState :=
  { s with nextCellGen := max s.nextCellGen floor }

end SecondaryCellState

/-- `resume_cell_alloc_floor`. -/
def TaskDefStore.resumeCellAllocFloor (d : TaskDefStore I) (floor : ℕ) : TaskDefStore I :=
  { d with nextCellId := max d.nextCellId floor }

/-- A node with its cells. -/
structure Replica (I : Type) where
  cluster : ClusterState I
  affine : SecondaryCellState

/-- The mutations of a node, those of the cells included. -/
inductive ReplicaMutation (I : Type)
  | cluster (m : ClusterMutation I)
  | secondaryCellFinished (secondary : String) (cellId : SecondaryCellId) (generation : ℕ)
  | secondaryCellQueued (secondary : String) (cellId : SecondaryCellId) (generation : ℕ)
  | secondaryCellFailed (secondary : String) (cellId : SecondaryCellId) (generation : ℕ)
  | secondaryCellUnqueued (secondary : String) (cellId : SecondaryCellId) (generation : ℕ)

namespace Replica

/-- A fresh node. -/
def new : Replica I := ⟨.empty, .default, 0⟩

/-- `apply_secondary_cell_write`. -/
def applySecondaryCellWrite (r : Replica I) (secondary : String) (cellId : SecondaryCellId)
    (cell : SecondaryCell) (generation : ℕ) : Replica I × ApplyOutcome :=
  let (bitvector, changed) := r.affine.bitvector.setCell secondary cellId cell generation
  ({ r with affine := { r.affine with bitvector := bitvector } },
    if changed then .applied else .noOp)

/-- `resume_affine_cell_gen_floor`. -/
def resumeAffineCellGenFloor (r : Replica I) : Replica I :=
  let floor := r.affine.bitvector.maxGeneration + 1
  let idFloor := r.cluster.definitions.nextCellId
  { cluster := { r.cluster with
      definitions := r.cluster.definitions.resumeCellAllocFloor idFloor }
    affine := r.affine.resumeCellGenFloor floor }

section Operations

variable [DefaultHasher] [RecordCodec I] [Identifier I] [DonePayloadCodec]

/-- The apply of a node. Only an adopted primary change touches the counters of the cells. -/
def apply (r : Replica I) : ReplicaMutation I → Replica I × ApplyOutcome
  | .cluster m =>
    let result := r.cluster.apply m
    let applied : Replica I := { r with cluster := result.state }
    match m, result.outcome with
    | .control (.primaryChanged ..), .applied => (applied.resumeAffineCellGenFloor, .applied)
    | _, outcome => (applied, outcome)
  | .secondaryCellFinished secondary cellId generation =>
    r.applySecondaryCellWrite secondary cellId .done generation
  | .secondaryCellQueued secondary cellId generation =>
    r.applySecondaryCellWrite secondary cellId .queued generation
  | .secondaryCellFailed secondary cellId generation =>
    r.applySecondaryCellWrite secondary cellId .failed generation
  | .secondaryCellUnqueued secondary cellId generation =>
    r.applySecondaryCellWrite secondary cellId .notDone generation

/-- The restore of a node; `affine` is the wire form of the peer's bitvector. -/
def restore (r : Replica I) (snap : ClusterStateSnapshot I) (affine : CellWire)
    (order : List (TaskHash × TaskState I)) : Replica I where
  cluster := (r.cluster.restoreInOrder snap order).1
  affine := { r.affine with
    bitvector := r.affine.bitvector.merge (fromWire affine) }

/-- What a node can do. A call of the definition store is a step of its own, so that the moments
inside an operation are covered. -/
inductive Step : Replica I → Replica I → Prop
  | apply (r : Replica I) (m : ReplicaMutation I) : Step r (r.apply m).1
  | restore (r : Replica I) (snap : ClusterStateSnapshot I) (affine : CellWire)
      (order : List (TaskHash × TaskState I)) : Step r (r.restore snap affine order)
  | defCall (r : Replica I) (c : DefCall I) : Step r { r with cluster := c.run r.cluster }
  | allocateCellId (r : Replica I) (hash : TaskHash) :
      Step r { r with cluster := { r.cluster with
        definitions := (r.cluster.definitions.allocForCellHash hash).2 } }
  | nextCellGeneration (r : Replica I) :
      Step r { r with affine := r.affine.nextCellGeneration.2 }
  | attachSpillSegment (r : Replica I) : Step r { r with cluster := r.cluster.attachSpillSegment }
  | commitSpill (r : Replica I) (receipt : List (WrittenRecord I)) :
      Step r { r with cluster := r.cluster.commitSpill receipt }
  | unsettle (r : Replica I) (hash : TaskHash) (key : TaskJoinKey) :
      Step r { r with cluster := (r.cluster.taskEntryUnsettling hash key).1 }
  | installSettledBase (r : Replica I) (base : SettledStore I) :
      Step r { r with cluster := r.cluster.installSettledBase base }

/-- A finite sequence of steps. -/
abbrev Later : Replica I → Replica I → Prop := Relation.ReflTransGen Step

/-- The nodes that a run can reach. -/
def Reachable (r : Replica I) : Prop := Later new r

end Operations

/-! ## What a node holds -/

variable (r : Replica I)

variable {id generation : ℕ}

/-- What every step respects. -/
structure Grows (r x : Replica I) : Prop where
  definitions : r.cluster.definitions.Grows x.cluster.definitions
  nextCellGen : r.affine.nextCellGen ≤ x.affine.nextCellGen

/-- Resuming the floor of the generations lowers no counter. -/
theorem grows_resumeAffineCellGenFloor : r.Grows r.resumeAffineCellGenFloor where
  definitions := ⟨le_rfl, le_max_left _ _, fun hd =>
    ⟨hd.bound, hd.slots, fun h id hid => (hd.cells h id hid).trans_le (le_max_left _ _),
      fun h id hid => (hd.reserved h id hid).trans_le (le_max_left _ _), hd.inverse⟩⟩
  nextCellGen := le_max_left _ _

section Run

variable [DefaultHasher] [RecordCodec I] [Identifier I] [DonePayloadCodec]

/-- No mutation lowers a counter of the store or breaks its bindings. -/
theorem grows_apply (r : Replica I) (m : ReplicaMutation I) : r.Grows (r.apply m).1 := by
  cases m with
  | cluster m =>
    have happlied : r.Grows { r with cluster := (r.cluster.apply m).state } :=
      ⟨ClusterState.grows_apply r.cluster m, le_rfl⟩
    have hfloor := grows_resumeAffineCellGenFloor { r with cluster := (r.cluster.apply m).state }
    unfold apply
    dsimp only
    split
    · exact ⟨happlied.definitions.trans hfloor.definitions, hfloor.nextCellGen⟩
    · exact happlied
  | secondaryCellFinished | secondaryCellQueued | secondaryCellFailed | secondaryCellUnqueued =>
    exact ⟨.refl _, le_rfl⟩

variable {r x : Replica I}

/-- A step of a replica lowers no counter. -/
theorem Step.grows (h : Step r x) : r.Grows x := by
  cases h with
  | apply m => exact grows_apply r m
  | restore => exact ⟨grows_restoreInOrder, le_rfl⟩
  | defCall => exact ⟨grows_defCall, le_rfl⟩
  | allocateCellId => exact ⟨grows_allocForCellHash, le_rfl⟩
  | nextCellGeneration => exact ⟨.refl _, Nat.le_succ _⟩
  | attachSpillSegment | installSettledBase => exact ⟨.refl _, le_rfl⟩
  | commitSpill => exact ⟨(commitSpill_sameBeside).grows, le_rfl⟩
  | unsettle hash key => exact ⟨(taskEntryUnsettling_steps _ hash key).beside.grows, le_rfl⟩

/-- No later replica has a lower counter. -/
theorem Later.grows (h : Later r x) : r.Grows x := by
  induction h with
  | refl => exact ⟨.refl _, le_rfl⟩
  | tail _ hstep ih =>
    exact ⟨ih.definitions.trans hstep.grows.definitions,
      ih.nextCellGen.trans hstep.grows.nextCellGen⟩

/-- The allocators of every replica are ahead of what they have given. -/
theorem Reachable.allocated (h : Reachable r) : r.cluster.definitions.Allocated :=
  (Later.grows h).definitions.allocated allocated_empty

/-! ## Every counter can be advanced -/

variable {primary : String} {epoch : ℕ}

end Run

end Replica

namespace Sample

open Replica

end Sample

end DynRunner
