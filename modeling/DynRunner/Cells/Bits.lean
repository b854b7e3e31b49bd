import DynRunner.Lib.HashMap
import Mathlib.Data.List.GetD
import Mathlib.Data.Prod.Lex

/-!
# The cells of one secondary

The completion of a per-secondary definition is one of four values, packed in two bits, four
cells to a byte. Beside the bytes stands a sparse map with the generation of the last write of
each cell. A cell is read as a stamp, its generation together with its value, and the last
writer wins: a write replaces a cell exactly when its stamp is the greater one.

Bytes that no write has reached are absent, so the bytes and the generations of the written cells
are determined by the stamps.
-/

namespace DynRunner

open HashMap List

/-- The completion of a definition on one secondary. -/
inductive SecondaryCell
  | notDone
  | queued
  | failed
  | done
  deriving DecidableEq, Repr

/-- `cell_to_bits`. -/
def cellToBits : SecondaryCell → UInt8
  | .notDone => 0b00
  | .queued => 0b01
  | .failed => 0b10
  | .done => 0b11

/-- `bits_to_cell`. -/
def bitsToCell (bits : UInt8) : SecondaryCell :=
  match bits &&& 0b11 with
  | 0b00 => .notDone
  | 0b01 => .queued
  | 0b10 => .failed
  | _ => .done

/-- `cell_rank`: the order of two writes of one generation. -/
def cellRank (cell : SecondaryCell) : UInt8 := cellToBits cell

/-- A cell survives its two bits. -/
theorem bitsToCell_cellToBits {cell : SecondaryCell} : bitsToCell (cellToBits cell) = cell := by
  cases cell <;> rfl

instance : LinearOrder SecondaryCell :=
  LinearOrder.lift' (fun cell => (cellRank cell).toNat) fun a b h => by
    cases a <;> cases b <;> first | rfl | exact absurd h (by decide)

/-- A generation and a value; generations are compared first. -/
abbrev Stamp := ℕ ×ₗ SecondaryCell

/-- The stamp of a cell that no write has reached. -/
def unwritten : Stamp := toLex (0, .notDone)

/-- Nothing is older than a cell that was never written. -/
theorem unwritten_le (x : Stamp) : unwritten ≤ x := by
  rw [Prod.Lex.le_iff]
  rcases Nat.eq_zero_or_pos (ofLex x).1 with hzero | hpos
  · refine .inr ⟨hzero.symm, ?_⟩
    cases (ofLex x).2 <;> decide
  · exact .inl hpos

/-! ## One byte -/

/-- The offset of a cell in its byte. -/
def slotShift (affineId : ℕ) : UInt8 := UInt8.ofNat (affineId % 4 * 2)

/-- The cell of an id in its byte. -/
def readSlot (packed : UInt8) (affineId : ℕ) : SecondaryCell :=
  bitsToCell ((packed >>> slotShift affineId) &&& 0b11)

/-- The byte with the cell of an id replaced. -/
def writeSlot (packed : UInt8) (affineId : ℕ) (cell : SecondaryCell) : UInt8 :=
  (packed &&& ~~~(0b11 <<< slotShift affineId)) ||| (cellToBits cell <<< slotShift affineId)

/-- The shift of a slot depends on its place in the byte only. -/
theorem slotShift_mod (affineId : ℕ) : slotShift (affineId % 4) = slotShift affineId := by
  rw [slotShift, slotShift, Nat.mod_mod]

variable {i j : ℕ}

/-- What a write leaves in the two bits of a cell: of the old bits those that the mask keeps, and
the new bits that fall there. -/
theorem bits_writeSlot {packed : UInt8} {cell : SecondaryCell} :
    (writeSlot packed i cell >>> slotShift j) &&& 0b11 =
      ((packed >>> slotShift j) &&&
        ((~~~((0b11 : UInt8) <<< slotShift i) >>> slotShift j) &&& 0b11))
        ||| (((cellToBits cell <<< slotShift i) >>> slotShift j) &&& 0b11) := by
  have hdistrib : ∀ x y z : UInt8, (x ||| y) &&& z = (x &&& z) ||| (y &&& z) := fun x y z =>
    UInt8.eq_of_toBitVec_eq BitVec.and_or_distrib_right
  unfold writeSlot
  rw [UInt8.shiftRight_or, UInt8.shiftRight_and, hdistrib, UInt8.and_assoc]

/-- The mask of a slot clears it. -/
theorem mask_self : ∀ i : Fin 4,
    (~~~((0b11 : UInt8) <<< slotShift i) >>> slotShift i) &&& 0b11 = 0 := by decide

/-- The mask of a slot leaves the other slots. -/
theorem mask_other : ∀ i j : Fin 4, i ≠ j →
    (~~~((0b11 : UInt8) <<< slotShift i) >>> slotShift j) &&& 0b11 = 0b11 := by decide

/-- The bits put into a slot are read from it. -/
theorem put_self (cell : SecondaryCell) : ∀ i : Fin 4,
    ((cellToBits cell <<< slotShift i) >>> slotShift i) &&& 0b11 = cellToBits cell := by
  cases cell <;> decide

/-- The bits put into a slot are not seen in another one. -/
theorem put_other (cell : SecondaryCell) : ∀ i j : Fin 4, i ≠ j →
    ((cellToBits cell <<< slotShift i) >>> slotShift j) &&& 0b11 = 0 := by
  cases cell <;> decide

/-- **Cells that share a byte do not disturb each other.** -/
theorem readSlot_writeSlot {packed : UInt8} {cell : SecondaryCell} :
    readSlot (writeSlot packed i cell) j = if i % 4 = j % 4 then cell else readSlot packed j := by
  rw [readSlot, bits_writeSlot, ← slotShift_mod i, ← slotShift_mod j]
  have hi : i % 4 < 4 := Nat.mod_lt i (by decide)
  have hj : j % 4 < 4 := Nat.mod_lt j (by decide)
  split
  · rename_i heq
    rw [← heq, mask_self ⟨i % 4, hi⟩, put_self cell ⟨i % 4, hi⟩, UInt8.and_zero, UInt8.zero_or,
      bitsToCell_cellToBits]
  · rename_i hne
    have hfin : (⟨i % 4, hi⟩ : Fin 4) ≠ ⟨j % 4, hj⟩ := fun h => hne (Fin.mk.inj h)
    rw [mask_other _ _ hfin, put_other cell _ _ hfin, UInt8.or_zero, slotShift_mod, readSlot]

/-- A byte is its four cells. -/
theorem byte_eq_of_slots {a b : UInt8} (h : ∀ i < 4, readSlot a i = readSlot b i) : a = b := by
  have hpack : ∀ p : UInt8, p = writeSlot (writeSlot (writeSlot (writeSlot 0 0 (readSlot p 0)) 1
      (readSlot p 1)) 2 (readSlot p 2)) 3 (readSlot p 3) := by
    rintro ⟨p⟩
    revert p
    decide +kernel
  rw [hpack a, hpack b, h 0 (by decide), h 1 (by decide), h 2 (by decide), h 3 (by decide)]

/-- An empty byte has nothing done. -/
theorem readSlot_zero : readSlot 0 i = .notDone := by
  rw [readSlot, UInt8.zero_shiftRight]
  rfl

/-! ## The packed cells -/

/-- The packed cells of one secondary and the generations of those that have been written. -/
structure SecondaryCellBits where
  bits : List UInt8
  generations : HashMap ℕ ℕ

namespace SecondaryCellBits

/-- No cell has been written. -/
def default : SecondaryCellBits := ⟨[], ∅⟩

variable (b : SecondaryCellBits)

/-- `cell`. -/
def cell (affineId : ℕ) : SecondaryCell :=
  match b.bits[affineId / 4]? with
  | none => .notDone
  | some packed => readSlot packed affineId

/-- `generation`. -/
def generation (affineId : ℕ) : ℕ :=
  (b.generations.lookup affineId).getD 0

/-- `Vec::resize` of the packed bytes, which only grows them. -/
def grow (bits : List UInt8) (length : ℕ) : List UInt8 :=
  bits ++ replicate (length - bits.length) 0

/-- `write`. -/
def write (affineId : ℕ) (cell : SecondaryCell) (generation : ℕ) : SecondaryCellBits :=
  let byte := affineId / 4
  let bits := if b.bits.length ≤ byte then grow b.bits (byte + 1) else b.bits
  { bits := bits.modify byte fun packed => writeSlot packed affineId cell
    generations := b.generations.insert affineId generation }

/-- `merge_cell`, and whether the cell has changed. -/
def mergeCell (affineId : ℕ) (cell : SecondaryCell) (generation : ℕ) : SecondaryCellBits × Bool :=
  let localGen := b.generation affineId
  let wins := decide (localGen < generation) ||
    (generation == localGen && decide (cellRank (b.cell affineId) < cellRank cell))
  (if wins then b.write affineId cell generation else b, wins)

/-- `max_generation`. -/
def maxGeneration : ℕ :=
  b.generations.entries.foldr (fun e acc => max e.2 acc) 0

/-- What is read of a cell. -/
def stamp (affineId : ℕ) : Stamp :=
  toLex (b.generation affineId, b.cell affineId)

variable {b a : SecondaryCellBits} {id generation : ℕ}

/-- The stamp of a cell that was written. -/
theorem stamp_of_some (h : b.generations.lookup id = some generation) :
    b.stamp id = toLex (generation, b.cell id) := by
  rw [stamp, SecondaryCellBits.generation, h]
  rfl

/-! ## Reading after a write -/

variable {bits : List UInt8} {n affineId : ℕ}

/-- Growing only appends, up to the length that is needed. -/
theorem length_grow : (grow bits n).length = max bits.length n := by
  rw [grow, length_append, length_replicate]
  omega

/-- A grown vector has zeros behind its old end, where nothing was read before. -/
theorem getD_grow : (grow bits n).getD i 0 = bits.getD i 0 := by
  rw [grow, getD_eq_getElem?_getD, getD_eq_getElem?_getD]
  by_cases hlt : i < bits.length
  · rw [getElem?_append_left hlt]
  · rw [getElem?_append_right (not_lt.mp hlt), getElem?_eq_none (not_lt.mp hlt), getElem?_replicate]
    split <;> rfl

/-- A byte is changed where it stands. -/
theorem getD_modify (hn : n < bits.length) {f : UInt8 → UInt8} :
    (bits.modify n f).getD i 0 = if i = n then f (bits.getD i 0) else bits.getD i 0 := by
  rw [getD_eq_getElem?_getD, getD_eq_getElem?_getD, getElem?_modify]
  by_cases heq : i = n
  · subst heq
    rw [getElem?_eq_getElem hn]
    simp
  · rw [if_neg heq]
    cases bits[i]? with
    | none => rfl
    | some => simp [Ne.symm heq]

/-- The bytes after a write. -/
theorem getD_write {cell : SecondaryCell} : (b.write affineId cell generation).bits.getD i 0 =
      if i = affineId / 4 then writeSlot (b.bits.getD i 0) affineId cell else b.bits.getD i 0 := by
  unfold write
  dsimp only
  by_cases hshort : b.bits.length ≤ affineId / 4
  · rw [if_pos hshort, getD_modify (by rw [length_grow]; omega), getD_grow]
  · rw [if_neg hshort, getD_modify (not_le.mp hshort)]

/-- An absent byte reads like a byte of zeros. -/
theorem cell_eq_readSlot : b.cell affineId = readSlot (b.bits.getD (affineId / 4) 0) affineId := by
  rw [cell, getD_eq_getElem?_getD]
  cases b.bits[affineId / 4]? with
  | none => rw [Option.getD_none, readSlot_zero]
  | some => rfl

/-- **A write changes the cell of its id and no other.** -/
theorem cell_write {cell : SecondaryCell} : (b.write affineId cell generation).cell id =
      if id = affineId then cell else b.cell id := by
  rw [cell_eq_readSlot, getD_write, cell_eq_readSlot]
  by_cases hbyte : id / 4 = affineId / 4
  · rw [if_pos hbyte, readSlot_writeSlot]
    exact if_congr (by omega) rfl rfl
  · have hne : id ≠ affineId := fun heq => hbyte (by rw [heq])
    rw [if_neg hbyte, if_neg hne]

/-- A write sets the generation of its own cell. -/
theorem generation_write {cell : SecondaryCell} : (b.write affineId cell generation).generation id =
      if id = affineId then generation else b.generation id := by
  change ((b.generations.insert affineId generation).lookup id).getD 0 = _
  rw [lookup_insert_eq]
  split <;> rfl

@[simp] theorem stamp_write {cell : SecondaryCell} : (b.write affineId cell generation).stamp id =
      if id = affineId then toLex (generation, cell) else b.stamp id := by
  rw [stamp, cell_write, generation_write]
  split <;> rfl

/-- A merge writes exactly when its stamp is greater. -/
theorem mergeCell_eq {cell : SecondaryCell} : b.mergeCell affineId cell generation =
      if b.stamp affineId < toLex (generation, cell) then (b.write affineId cell generation, true)
      else (b, false) := by
  have hwins : (decide (b.generation affineId < generation) ||
      (generation == b.generation affineId &&
        decide (cellRank (b.cell affineId) < cellRank cell))) =
      decide (b.stamp affineId < toLex (generation, cell)) := by
    rw [Bool.eq_iff_iff, decide_eq_true_iff, stamp, Prod.Lex.toLex_lt_toLex]
    simp only [Bool.or_eq_true, decide_eq_true_eq, Bool.and_eq_true, beq_iff_eq]
    exact or_congr_right (and_congr eq_comm Iff.rfl)
  unfold mergeCell
  dsimp only
  rw [hwins]
  by_cases hlt : b.stamp affineId < toLex (generation, cell)
  · rw [decide_eq_true hlt, if_pos hlt, if_pos rfl]
  · rw [decide_eq_false hlt, if_neg hlt, if_neg Bool.false_ne_true]

/-- The last writer wins. -/
theorem stamp_mergeCell {cell : SecondaryCell} : (b.mergeCell affineId cell generation).1.stamp id =
      if id = affineId then max (b.stamp id) (toLex (generation, cell)) else b.stamp id := by
  rw [mergeCell_eq]
  split
  · rename_i hlt
    rw [stamp_write]
    split
    · rename_i heq
      rw [heq, max_eq_right hlt.le]
    · rfl
  · rename_i hle
    split
    · rename_i heq
      rw [heq, max_eq_left (not_lt.mp hle)]
    · rfl

/-! ## The stamps determine the representation -/

/-- **The invariant of the packed form.** A cell without a generation is not done, a written cell
is above the unwritten one, and the bytes end with the byte of the last written cell. -/
structure Packed (b : SecondaryCellBits) : Prop where
  unwritten : ∀ id, b.generations.lookup id = none → b.cell id = .notDone
  written : ∀ id, id ∈ b.generations → b.stamp id ≠ DynRunner.unwritten
  length : ∀ n, n < b.bits.length ↔ ∃ id ∈ b.generations, n ≤ id / 4

/-- The empty bits are packed. -/
theorem packed_default : Packed default where
  unwritten := fun _ _ => rfl
  written := fun id h => by
    obtain ⟨_, hlookup⟩ := mem_iff_lookup.mp h
    cases hlookup
  length := fun n => by
    refine ⟨fun h => absurd h (Nat.not_lt_zero n), ?_⟩
    rintro ⟨id, hid, _⟩
    obtain ⟨_, hlookup⟩ := mem_iff_lookup.mp hid
    cases hlookup

/-- A write grows the bits as far as its cell needs. -/
theorem length_write {cell : SecondaryCell} : (b.write affineId cell generation).bits.length =
      max b.bits.length (affineId / 4 + 1) := by
  unfold write
  rw [length_modify]
  split
  · exact length_grow
  · omega

section

variable (hb : b.Packed)
include hb

/-- A write above the unwritten stamp keeps the packed form. -/
theorem Packed.write (affineId : ℕ) {cell : SecondaryCell}
    (hstamp : toLex (generation, cell) ≠ DynRunner.unwritten) :
    (b.write affineId cell generation).Packed where
  unwritten := by
    intro id hid
    change (b.generations.insert affineId generation).lookup id = none at hid
    rw [lookup_insert_eq] at hid
    split at hid
    case isTrue => cases hid
    case isFalse hne =>
      rw [cell_write, if_neg hne]
      exact hb.unwritten id hid
  written := by
    intro id hid
    rw [stamp_write]
    split
    case isTrue => exact hstamp
    case isFalse hne =>
      exact hb.written id ((AList.mem_insert _).mp hid |>.resolve_left hne)
  length := by
    intro n
    have hlength := hb.length n
    rw [length_write]
    constructor
    · intro hn
      by_cases hold : n < b.bits.length
      · obtain ⟨id, hid, hle⟩ := hlength.mp hold
        exact ⟨id, (AList.mem_insert _).mpr (.inr hid), hle⟩
      · exact ⟨affineId, (AList.mem_insert _).mpr (.inl rfl), by omega⟩
    · rintro ⟨id, hid, hle⟩
      rcases (AList.mem_insert _).mp hid with rfl | hid
      · omega
      · have hold := hlength.mpr ⟨id, hid, hle⟩
        omega

/-- Merging a cell keeps the bits packed. -/
theorem Packed.mergeCell (affineId : ℕ) (cell : SecondaryCell) (generation : ℕ) :
    (b.mergeCell affineId cell generation).1.Packed := by
  rw [mergeCell_eq]
  split
  · rename_i hlt
    exact hb.write affineId (lt_of_le_of_lt (unwritten_le _) hlt).ne'
  · exact hb

/-- A cell without a generation reads as unwritten. -/
theorem Packed.stamp_of_none
    (h : b.generations.lookup id = none) : b.stamp id = DynRunner.unwritten := by
  rw [stamp, hb.unwritten id h, generation, h]
  rfl

/-- The generations are those of the stamps above the unwritten one. -/
theorem Packed.lookup_generations : b.generations.lookup id =
      if b.stamp id = DynRunner.unwritten then none else some (ofLex (b.stamp id)).1 := by
  cases h : b.generations.lookup id with
  | none => rw [hb.stamp_of_none h, if_pos rfl]
  | some g =>
    rw [if_neg (hb.written id (mem_iff_lookup.mpr ⟨g, h⟩))]
    change some g = some ((b.generations.lookup id).getD 0)
    rw [h]
    rfl

end

/-- Equality of the packed bytes and of the generation maps. -/
def Same (a b : SecondaryCellBits) : Prop :=
  a.bits = b.bits ∧ ∀ id, a.generations.lookup id = b.generations.lookup id

theorem Same.symm (h : Same a b) : Same b a := ⟨h.1.symm, fun id => (h.2 id).symm⟩

/-- Equal contents have equal stamps. -/
theorem Same.stamp (h : Same a b) (id : ℕ) : a.stamp id = b.stamp id := by
  rw [SecondaryCellBits.stamp, SecondaryCellBits.stamp, generation, generation, cell,
    cell, h.1, h.2]

/-- Being packed is a matter of the contents. -/
theorem Same.packed (h : Same a b) (ha : a.Packed) : b.Packed where
  unwritten := fun id hid => by
    have hcell := ha.unwritten id (by rw [h.2, hid])
    rwa [cell, h.1] at hcell
  written := fun id hid => by
    rw [← h.stamp]
    exact ha.written id (mem_iff_lookup.mpr (h.2 id ▸ mem_iff_lookup.mp hid))
  length := fun n => by
    rw [← h.1, ha.length n]
    refine exists_congr fun id => and_congr_left fun _ => ?_
    rw [mem_iff_lookup, mem_iff_lookup, h.2]

/-- **Packed cells that read alike are equal.** -/
theorem Packed.same_of_stamp (ha : a.Packed) (hb : b.Packed)
    (h : ∀ id, a.stamp id = b.stamp id) : Same a b := by
  have hlookup : ∀ id, a.generations.lookup id = b.generations.lookup id := by
    intro id
    rw [ha.lookup_generations, hb.lookup_generations, h id]
  have hlt : ∀ n, n < a.bits.length ↔ n < b.bits.length := by
    intro n
    rw [ha.length n, hb.length n]
    refine exists_congr fun id => and_congr_left fun _ => ?_
    rw [mem_iff_lookup, mem_iff_lookup, hlookup id]
  have hlength : a.bits.length = b.bits.length := by
    have hab := hlt b.bits.length
    have hba := hlt a.bits.length
    omega
  refine ⟨ext_getElem hlength fun n hna hnb => byte_eq_of_slots fun i hi => ?_, hlookup⟩
  -- The cell of slot `i` in byte `n`.
  have hcell : a.cell (4 * n + i) = b.cell (4 * n + i) :=
    congrArg (fun x => (ofLex x).2) (h (4 * n + i))
  have hdiv : (4 * n + i) / 4 = n := by omega
  have hslot : ∀ packed : UInt8, readSlot packed (4 * n + i) = readSlot packed i := by
    intro packed
    rw [readSlot, readSlot, slotShift, slotShift, show (4 * n + i) % 4 = i % 4 by omega]
  rwa [cell_eq_readSlot, cell_eq_readSlot, hdiv, getD_eq_getElem _ _ hna,
    getD_eq_getElem _ _ hnb, hslot, hslot] at hcell

end SecondaryCellBits

end DynRunner
