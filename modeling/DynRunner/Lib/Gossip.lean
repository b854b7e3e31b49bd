import Mathlib.Order.MinMax

/-!
# Replicas that keep the greatest value

Every replica begins with a common value. It is told values, in any order and any number of
times, and it learns from other replicas; each time it keeps the greater value. A replica that
has been told everything holds the maximum, whatever it has learned on the way, because no
replica ever holds a value that was not told to somebody.
-/

namespace DynRunner

variable {V : Type*} [LinearOrder V] {a c : V} {l : List V}

/-! ## Folding the maximum -/

/-- A maximum is bounded if all its parts are. -/
theorem foldl_max_le_iff : l.foldl max a ≤ c ↔ a ≤ c ∧ ∀ x ∈ l, x ≤ c := by
  induction l generalizing a with
  | nil => simp
  | cons b l ih => simp [ih, and_assoc]

/-! ## Hearing and learning -/

/-- A replica that began with `start`, has been told the values of the list, all of them in
`said`, and has learned from other such replicas, holds the value. -/
inductive Heard (start : V) (said : List V) : List V → V → Prop
  | start : Heard start said [] start
  | tell {told : List V} {v : V} (u : V) (hu : u ∈ said) (h : Heard start said told v) :
      Heard start said (u :: told) (max v u)
  | learn {told told' : List V} {v w : V} (h : Heard start said told v)
      (h' : Heard start said told' w) : Heard start said told (max v w)

variable {start v : V} {said told : List V}

variable (h : Heard start said told v)

include h

/-- A replica holds no less than what it began with and what it was told. -/
theorem Heard.le : start ≤ v ∧ ∀ u ∈ told, u ≤ v := by
  induction h with
  | start => exact ⟨le_rfl, fun u hu => by cases hu⟩
  | tell u _ _ ih =>
    refine ⟨ih.1.trans (le_max_left _ _), fun w hw => ?_⟩
    rcases List.mem_cons.mp hw with rfl | hw
    · exact le_max_right _ _
    · exact (ih.2 w hw).trans (le_max_left _ _)
  | learn _ _ ih =>
    exact ⟨ih.1.trans (le_max_left _ _), fun u hu => (ih.2 u hu).trans (le_max_left _ _)⟩

/-- What a replica holds was there at the start or was said. -/
theorem Heard.origin : v = start ∨ v ∈ said := by
  induction h with
  | start => exact Or.inl rfl
  | tell u hu _ ih =>
    rcases max_choice _ u with heq | heq <;> rw [heq]
    · exact ih
    · exact Or.inr hu
  | @learn _ _ v w _ _ ih ih' =>
    rcases max_choice v w with heq | heq <;> rw [heq]
    · exact ih
    · exact ih'

/-- **A replica that has been told everything holds the maximum.** -/
theorem Heard.eq_foldl_max (hall : ∀ u ∈ said, u ∈ told) : v = said.foldl max start := by
  refine le_antisymm ?_ (foldl_max_le_iff.mpr ⟨h.le.1, fun u hu => h.le.2 u (hall u hu)⟩)
  have hbound := foldl_max_le_iff.mp (le_refl (said.foldl max start))
  rcases h.origin with rfl | hv
  · exact hbound.1
  · exact hbound.2 v hv

end DynRunner
