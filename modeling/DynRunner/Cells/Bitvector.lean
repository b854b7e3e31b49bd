import DynRunner.Cells.Bits

/-!
# The cells of all secondaries

The replicated bitvector holds the packed cells of each secondary. It is written by live
mutations and merged with the bitvectors of peers, which travel as a list of written cells.

What it is for is said by a plain map from a secondary and a cell id to a stamp: a write takes
the maximum at its key, and a merge takes the maximum everywhere. Every bitvector that writes,
merges and transfers produce represents such a map, and two that represent the same map for the
same secondaries are equal.
-/

namespace DynRunner

open SecondaryCellBits HashMap

/-- The cells of each secondary. -/
structure SecondaryCellBitvector where
  secondaries : HashMap String SecondaryCellBits

/-- The form in which a bitvector travels: the written cells of each secondary. -/
abbrev CellWire := HashMap String (List (ℕ × SecondaryCell × ℕ))

/-- The plain map: a stamp for each secondary and cell id. -/
abbrev PlainCells := String × ℕ → Stamp

namespace SecondaryCellBitvector

/-- No secondary has a cell. -/
def default : SecondaryCellBitvector := ⟨∅⟩

/-- `cell`. -/
def cell (b : SecondaryCellBitvector) (secondary : String) (affineId : ℕ) : SecondaryCell :=
  match b.secondaries.lookup secondary with
  | none => .notDone
  | some bits => bits.cell affineId

/-- The cells of a secondary, or those of a new one: `entry(secondary).or_default()`. -/
def bitsAt (b : SecondaryCellBitvector) (secondary : String) : SecondaryCellBits :=
  (b.secondaries.lookup secondary).getD .default

/-- `set_cell`, and whether the cell has changed. -/
def setCell (b : SecondaryCellBitvector) (secondary : String) (affineId : ℕ)
    (cell : SecondaryCell) (generation : ℕ) : SecondaryCellBitvector × Bool :=
  let (bits, changed) := (b.bitsAt secondary).mergeCell affineId cell generation
  (⟨b.secondaries.insert secondary bits⟩, changed)

/-- The inner loop of `merge`. -/
def mergeBits (b other : SecondaryCellBits) : SecondaryCellBits :=
  other.generations.entries.foldl (fun b e => (b.mergeCell e.1 (other.cell e.1) e.2).1) b

/-- `merge`. -/
def merge (b other : SecondaryCellBitvector) : SecondaryCellBitvector :=
  other.secondaries.entries.foldl
    (fun b e => ⟨b.secondaries.insert e.1 (mergeBits (b.bitsAt e.1) e.2)⟩) b

/-- `max_generation`. -/
def maxGeneration (b : SecondaryCellBitvector) : ℕ :=
  b.secondaries.entries.foldr (fun e acc => max e.2.maxGeneration acc) 0

/-- `to_wire`. -/
def toWire (b : SecondaryCellBitvector) : CellWire :=
  b.secondaries.mapValues fun bits =>
    bits.generations.entries.map fun e => (e.1, bits.cell e.1, e.2)

/-- The inner loop of `from_wire`. -/
def writeCells (b : SecondaryCellBits) (cells : List (ℕ × SecondaryCell × ℕ)) :
    SecondaryCellBits :=
  cells.foldl (fun b c => b.write c.1 c.2.1 c.2.2) b

/-- `from_wire`. -/
def fromWire (wire : CellWire) : SecondaryCellBitvector :=
  wire.entries.foldl (fun b e => ⟨b.secondaries.insert e.1 (writeCells (b.bitsAt e.1) e.2)⟩)
    default

/-! ## The plain map of a bitvector -/

/-- The plain map that a bitvector represents. -/
def plain (b : SecondaryCellBitvector) : PlainCells := fun k => (b.bitsAt k.1).stamp k.2

/-- The packed cells of each secondary are in packed form. -/
def Packed (b : SecondaryCellBitvector) : Prop := ∀ secondary, (b.bitsAt secondary).Packed

/-- Equality of the packed cells of each secondary. -/
def Same (a b : SecondaryCellBitvector) : Prop :=
  ∀ secondary, Option.Rel SecondaryCellBits.Same (a.secondaries.lookup secondary)
    (b.secondaries.lookup secondary)

/-- A cell is the second half of its stamp. -/
theorem cell_eq_plain (b : SecondaryCellBitvector) (secondary : String) (affineId : ℕ) :
    b.cell secondary affineId = (ofLex (b.plain (secondary, affineId))).2 := by
  unfold cell plain bitsAt
  cases b.secondaries.lookup secondary <;> rfl

variable {b other : SecondaryCellBitvector} {secondary s : String} {bits : SecondaryCellBits}

/-- The bits of the secondary that is written, and those of the others. -/
theorem bitsAt_insert : (⟨b.secondaries.insert secondary bits⟩ : SecondaryCellBitvector).bitsAt s =
      if s = secondary then bits else b.bitsAt s := by
  rw [bitsAt, lookup_insert_eq]
  split <;> rfl

variable {a : SecondaryCellBitvector} {affineId generation id : ℕ}

/-- **Two bitvectors over the same secondaries that represent the same plain map are equal.** -/
theorem Packed.same_of_plain (ha : a.Packed) (hb : b.Packed)
    (hmem : ∀ s, s ∈ a.secondaries ↔ s ∈ b.secondaries) (hplain : a.plain = b.plain) :
    Same a b := by
  intro s
  have hbits := (ha s).same_of_stamp (hb s) fun id => congrFun hplain (s, id)
  have hs := hmem s
  rw [mem_iff_lookup, mem_iff_lookup] at hs
  unfold bitsAt at hbits
  cases hla : a.secondaries.lookup s with
  | none =>
    cases hlb : b.secondaries.lookup s with
    | none => exact .none
    | some y => rw [hla, hlb] at hs; exact absurd (hs.mpr ⟨y, rfl⟩) (by simp)
  | some x =>
    cases hlb : b.secondaries.lookup s with
    | none => rw [hla, hlb] at hs; exact absurd (hs.mp ⟨x, rfl⟩) (by simp)
    | some =>
      rw [hla, hlb] at hbits
      exact .some hbits

/-- Equal vectors have equal bits at every secondary. -/
theorem Same.bitsAt (h : Same a b) (s : String) :
    SecondaryCellBits.Same (a.bitsAt s) (b.bitsAt s) := by
  have hs := h s
  unfold SecondaryCellBitvector.bitsAt
  generalize a.secondaries.lookup s = x at hs
  generalize b.secondaries.lookup s = y at hs
  cases hs with
  | none => exact ⟨rfl, fun _ => rfl⟩
  | some hbits => exact hbits

/-! ## What the operations do to the plain map -/

/-- The empty vector is packed. -/
theorem packed_default : Packed default := fun _ => SecondaryCellBits.packed_default

/-- A write takes the maximum at its key. -/
theorem plain_setCell {cell : SecondaryCell} :
    (b.setCell secondary affineId cell generation).1.plain =
      Function.update b.plain (secondary, affineId)
        (b.plain (secondary, affineId) ⊔ toLex (generation, cell)) := by
  funext ⟨s, id⟩
  rw [Function.update_apply, plain, setCell, bitsAt_insert]
  by_cases hs : s = secondary
  · subst hs
    rw [if_pos rfl, stamp_mergeCell]
    by_cases hid : id = affineId
    · subst hid
      rw [if_pos rfl, if_pos rfl]
      rfl
    · rw [if_neg hid, if_neg fun h => hid (Prod.ext_iff.mp h).2]
      rfl
  · rw [if_neg hs, if_neg fun h => hs (Prod.ext_iff.mp h).1]
    rfl

/-- Setting a cell keeps the vector packed. -/
theorem Packed.setCell (hb : b.Packed) (secondary : String)
    (affineId : ℕ) (cell : SecondaryCell) (generation : ℕ) :
    (b.setCell secondary affineId cell generation).1.Packed := by
  intro s
  rw [SecondaryCellBitvector.setCell, bitsAt_insert]
  split
  · exact (hb secondary).mergeCell affineId cell generation
  · exact hb s

/-- Merging the cells of one secondary takes the maximum of each stamp. -/
theorem stamp_mergeBits (b : SecondaryCellBits) {other : SecondaryCellBits}
    (hother : other.Packed) :
    (mergeBits b other).stamp id = b.stamp id ⊔ other.stamp id := by
  refine (foldl_entries_at _ (fun b => b.stamp id) id
    (fun stamp generation => stamp ⊔ toLex (generation, other.cell id)) (fun b generation => ?_)
    (fun b e he => ?_) other.generations b).trans ?_
  · rw [stamp_mergeCell, if_pos rfl]
  · rw [stamp_mergeCell, if_neg (Ne.symm he)]
  cases hgen : other.generations.lookup id with
  | none =>
    rw [hother.stamp_of_none hgen]
    exact (sup_eq_left.mpr (unwritten_le _)).symm
  | some =>
    rw [stamp_of_some hgen]
    rfl

/-- Merging packed bits gives packed bits. -/
theorem packed_mergeBits {b : SecondaryCellBits} (hb : b.Packed) (other : SecondaryCellBits) :
    (mergeBits b other).Packed :=
  List.foldlRecOn _ _ hb fun _ h e _ => h.mergeCell e.1 _ e.2

/-- A merge acts on every secondary by itself. -/
theorem bitsAt_merge : (b.merge other).bitsAt s = mergeBits (b.bitsAt s) (other.bitsAt s) := by
  refine (foldl_entries_at _ (fun b => b.bitsAt s) s mergeBits (fun b bits => ?_)
    (fun b e he => ?_) other.secondaries b).trans ?_
  · rw [bitsAt_insert, if_pos rfl]
  · rw [bitsAt_insert, if_neg (Ne.symm he)]
  rw [bitsAt, bitsAt]
  cases other.secondaries.lookup s <;> rfl

/-- A merge knows the secondaries of both sides. -/
theorem mem_merge :
    s ∈ (b.merge other).secondaries ↔ s ∈ b.secondaries ∨ s ∈ other.secondaries := by
  refine (iff_of_eq (foldl_entries_at _ (fun b => s ∈ b.secondaries) s (fun _ _ => True)
    (fun b bits => ?_) (fun b e he => ?_) other.secondaries b)).trans ?_
  · exact eq_true ((AList.mem_insert _).mpr (.inl rfl))
  · exact propext ((AList.mem_insert _).trans (or_iff_right (Ne.symm he)))
  rw [mem_iff_lookup (m := other.secondaries)]
  cases other.secondaries.lookup s <;> simp

/-- A merge takes the maximum everywhere. -/
theorem plain_merge (hother : other.Packed) : (b.merge other).plain = b.plain ⊔ other.plain := by
  funext ⟨s, id⟩
  rw [plain, bitsAt_merge, stamp_mergeBits _ (hother s)]
  rfl

/-- A merge keeps the vector packed. -/
theorem Packed.merge (hb : b.Packed) (other : SecondaryCellBitvector) : (b.merge other).Packed := by
  intro s
  rw [bitsAt_merge]
  exact packed_mergeBits (hb s) _

/-- The written cells of one secondary, written again. -/
theorem rewrite_cells (hbits : bits.Packed) : SecondaryCellBits.Same (writeCells .default
      (bits.generations.entries.map fun e => (e.1, bits.cell e.1, e.2))) bits := by
  rw [writeCells, List.foldl_map]
  have hpacked : (bits.generations.entries.foldl
      (fun b e => b.write e.1 (bits.cell e.1) e.2) SecondaryCellBits.default).Packed := by
    refine List.foldlRecOn _ _ SecondaryCellBits.packed_default fun b hb e he => ?_
    have hlookup := mem_entries_iff.mp (show ⟨e.1, e.2⟩ ∈ bits.generations.entries from he)
    have hwritten := hbits.written e.1 (mem_iff_lookup.mpr ⟨e.2, hlookup⟩)
    rw [SecondaryCellBits.stamp_of_some hlookup] at hwritten
    exact hb.write e.1 hwritten
  refine hpacked.same_of_stamp hbits fun id => ?_
  refine (foldl_entries_at _ (fun b : SecondaryCellBits => b.stamp id) id
    (fun _ generation => toLex (generation, bits.cell id)) (fun b generation => ?_)
    (fun b e he => ?_) bits.generations _).trans ?_
  · rw [stamp_write, if_pos rfl]
  · rw [stamp_write, if_neg (Ne.symm he)]
  cases hgen : bits.generations.lookup id with
  | none => exact (hbits.stamp_of_none hgen).symm
  | some =>
    rw [stamp_of_some hgen]
    rfl

/-- **Decoding the wire form gives back an equal bitvector.** -/
theorem Packed.fromWire_toWire (hb : b.Packed) : Same (fromWire b.toWire) b := by
  intro s
  have hfold : (fromWire b.toWire).secondaries.lookup s = _ :=
    foldl_entries_at _ (fun b => b.secondaries.lookup s) s
      (fun bits cells => some (writeCells (bits.getD .default) cells))
      (fun b cells => by rw [lookup_insert_eq, if_pos rfl]; rfl)
      (fun b e he => by rw [lookup_insert_eq, if_neg (Ne.symm he)]) b.toWire default
  rw [hfold, toWire, lookup_mapValues]
  have hbits := hb s
  rw [bitsAt] at hbits
  cases hs : b.secondaries.lookup s with
  | none => exact .none
  | some =>
    rw [hs] at hbits
    exact .some (rewrite_cells hbits)

/-- Being packed is a matter of the contents. -/
theorem Same.packed (h : Same a b) (ha : a.Packed) : b.Packed := fun s => (h.bitsAt s).packed (ha s)

/-- Equal vectors have equal stamps. -/
theorem Same.plain (h : Same a b) : a.plain = b.plain := funext fun k => (h.bitsAt k.1).stamp k.2

/-! ## Runs -/

/-- The bitvectors that writes, merges and transfers produce, each with the plain map that the
same operations produce. A hash map may list its entries in any order. -/
inductive Reached : SecondaryCellBitvector → PlainCells → Prop
  | new : Reached default fun _ => unwritten
  | setCell {b : SecondaryCellBitvector} {m : PlainCells} (secondary : String) (affineId : ℕ)
      (cell : SecondaryCell) (generation : ℕ) (hb : Reached b m) :
      Reached (b.setCell secondary affineId cell generation).1
        (Function.update m (secondary, affineId)
          (m (secondary, affineId) ⊔ toLex (generation, cell)))
  | merge {a b : SecondaryCellBitvector} {m n : PlainCells} (ha : Reached a m) (hb : Reached b n) :
      Reached (a.merge b) (m ⊔ n)
  | transfer {b : SecondaryCellBitvector} {m : PlainCells} (hb : Reached b m) :
      Reached (fromWire b.toWire) m
  | reorder {a b : SecondaryCellBitvector} {m : PlainCells} (ha : Reached a m) (h : Same a b) :
      Reached b m

/-- Every bitvector is in packed form and represents the plain map of its run. -/
theorem Reached.represents {m : PlainCells} (h : Reached b m) : b.Packed ∧ b.plain = m := by
  induction h with
  | new => exact ⟨packed_default, rfl⟩
  | setCell secondary affineId cell generation _ ih =>
    refine ⟨ih.1.setCell secondary affineId cell generation, ?_⟩
    rw [plain_setCell, ih.2]
  | merge _ _ iha ihb =>
    refine ⟨iha.1.merge _, ?_⟩
    rw [plain_merge ihb.1, iha.2, ihb.2]
  | transfer _ ih =>
    have hsame := ih.1.fromWire_toWire
    exact ⟨fun s => (hsame.bitsAt s).symm.packed (ih.1 s), hsame.plain.trans ih.2⟩
  | reorder _ h ih => exact ⟨h.packed ih.1, h.plain.symm.trans ih.2⟩

/-- **The packed bitvector refines the plain map.** On every run, reading a cell gives the value
of the plain map and its generation; a write touches no other cell; merges are commutative,
associative and idempotent; and decoding the wire form gives back the bitvector. -/
theorem packed_cells_refine_plain_map {a b c : SecondaryCellBitvector} {ma mb mc : PlainCells}
    (ha : Reached a ma) (hb : Reached b mb) (hc : Reached c mc) : (∀ secondary affineId,
      a.cell secondary affineId = (ofLex (ma (secondary, affineId))).2 ∧
        (a.bitsAt secondary).generation affineId = (ofLex (ma (secondary, affineId))).1) ∧
    (∀ secondary affineId cell generation s id, (s, id) ≠ (secondary, affineId) →
      (a.setCell secondary affineId cell generation).1.cell s id = a.cell s id) ∧
    Same (a.merge b) (b.merge a) ∧ Same ((a.merge b).merge c) (a.merge (b.merge c)) ∧
    Same (a.merge a) a ∧ Same (fromWire a.toWire) a := by
  obtain ⟨hpa, rfl⟩ := ha.represents
  obtain ⟨hpb, rfl⟩ := hb.represents
  obtain ⟨hpc, rfl⟩ := hc.represents
  refine ⟨fun s id => ⟨cell_eq_plain a s id, rfl⟩,
    fun secondary affineId cell generation s id hne => ?_,
    ?_, ?_, ?_, hpa.fromWire_toWire⟩
  · rw [cell_eq_plain, plain_setCell, Function.update_of_ne hne, cell_eq_plain]
  · refine (hpa.merge b).same_of_plain (hpb.merge a) (fun s => ?_) ?_
    · rw [mem_merge, mem_merge, or_comm]
    · rw [plain_merge hpb, plain_merge hpa, sup_comm]
  · refine ((hpa.merge b).merge c).same_of_plain (hpa.merge _) (fun s => ?_) ?_
    · rw [mem_merge, mem_merge, mem_merge, mem_merge, or_assoc]
    · rw [plain_merge hpc, plain_merge hpb, plain_merge (hpb.merge c), plain_merge hpc, sup_assoc]
  · refine (hpa.merge a).same_of_plain hpa (fun s => ?_) ?_
    · rw [mem_merge, or_self]
    · rw [plain_merge hpa, sup_idem]

end SecondaryCellBitvector

namespace Sample

open SecondaryCellBitvector

/-- A replica on which a cell has been queued. -/
def queuedCell : SecondaryCellBitvector := (default.setCell "s1" 5 .queued 3).1

/-- A replica that has only seen the later reset of the cell. -/
def resetCell : SecondaryCellBitvector := (default.setCell "s1" 5 .notDone 4).1

/-- Whichever way the two merge, the reset wins. -/
theorem reset_cell_converges : (queuedCell.merge resetCell).cell "s1" 5 = .notDone ∧
    Same (queuedCell.merge resetCell) (resetCell.merge queuedCell) := by
  have hqueued := Reached.setCell "s1" 5 .queued 3 .new
  have hreset := Reached.setCell "s1" 5 .notDone 4 .new
  have hmerged := packed_cells_refine_plain_map (hqueued.merge hreset) hqueued hreset
  exact ⟨(hmerged.1 "s1" 5).1.trans (by decide),
    (packed_cells_refine_plain_map hqueued hreset .new).2.2.1⟩

end Sample

end DynRunner
