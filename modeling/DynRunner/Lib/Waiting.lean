import Mathlib.Data.Set.Insert

/-!
# Boards of entries that wait on each other

A board holds an entry under some of its keys, and an entry may wait on a key. When the
work under a key fails for good, everything that waits on it, directly or through other
waiting entries, is doomed. This file defines the doomed keys and gives the rule by which
a cascade that fails entries one by one is shown to fail exactly those: it fails only
doomed keys, and it leaves nothing waiting on a key it failed.
-/

namespace DynRunner

/-- What each key holds. -/
abbrev Board (K E : Type*) := K → Option E

namespace Board

variable {K E : Type*} (waitsOn : E → Option K) (fail : E → E)

/-- The entry under `x` waits on `y`. -/
def Waits (b : Board K E) (x y : K) : Prop := ∃ e, b x = some e ∧ waitsOn e = some y

/-- The keys that wait on the root, directly or through others. -/
def doomed (b : Board K E) (root : K) : Set K := {x | Relation.TransGen (b.Waits waitsOn) x root}

variable {b c : Board K E} {x root y : K} {D : Set K}

/-- What waits for a failed task is doomed. -/
theorem mem_doomed_of_waits (h : b.Waits waitsOn x root) : x ∈ b.doomed waitsOn root :=
    Relation.TransGen.single h

/-- A key that waits on a doomed one is doomed. -/
theorem mem_doomed_of_waits_doomed (h : b.Waits waitsOn x y)
    (hy : y ∈ b.doomed waitsOn root) : x ∈ b.doomed waitsOn root := Relation.TransGen.head h hy

/-- A key is doomed by what it waits on. -/
theorem mem_doomed_iff (h : b.Waits waitsOn x y) :
    x ∈ b.doomed waitsOn root ↔ y = root ∨ y ∈ b.doomed waitsOn root := by
  constructor
  · intro hx
    obtain ⟨z, hz, hroot⟩ := Relation.TransGen.head'_iff.mp hx
    obtain ⟨e, he, hy⟩ := h
    obtain ⟨e', he', hz⟩ := hz
    cases he.symm.trans he'
    cases hy.symm.trans hz
    exact (Relation.reflTransGen_iff_eq_or_transGen.mp hroot).imp Eq.symm id
  · rintro (rfl | hy)
    · exact b.mem_doomed_of_waits waitsOn h
    · exact b.mem_doomed_of_waits_doomed waitsOn h hy

/-- `after` is `before` with the entries under the keys of `D`, and no others, failed. -/
def FailedExactly (before : Board K E) (D : Set K) (after : Board K E) : Prop :=
  ∀ x, (x ∈ D → after x = (before x).map fail) ∧ (x ∉ D → after x = before x)

variable {waitsOn fail}

theorem FailedExactly.refl (b : Board K E) : FailedExactly fail b ∅ b :=
  fun _ => ⟨fun h => h.elim, fun _ => rfl⟩

variable (h : FailedExactly fail b D c)

include h

/-- Failing one more entry. -/
theorem FailedExactly.insert [DecidableEq K] {e : E} (hx : b x = some e) :
    FailedExactly fail b (insert x D) (Function.update c x (some (fail e))) := by
  intro y
  by_cases hy : y = x
  · subst hy
    exact ⟨fun _ => by simp [hx], fun hn => (hn (Set.mem_insert y D)).elim⟩
  · rw [Function.update_of_ne hy]
    refine ⟨fun hmem => (h y).1 (hmem.resolve_left hy), fun hn => (h y).2 fun hD => ?_⟩
    exact hn (Set.mem_insert_of_mem x hD)

/-- An entry that still waits is one that was not failed. -/
theorem FailedExactly.waits (hfail : ∀ e, waitsOn (fail e) = none)
    (hw : c.Waits waitsOn x y) : x ∉ D ∧ b.Waits waitsOn x y := by
  obtain ⟨e, he, hy⟩ := hw
  by_cases hx : x ∈ D
  · rw [(h x).1 hx, Option.map_eq_some_iff] at he
    obtain ⟨e', _, rfl⟩ := he
    rw [hfail e'] at hy
    cases hy
  · exact ⟨hx, e, (h x).2 hx ▸ he, hy⟩

/-- **The cascade rule.** A cascade that failed doomed keys only, and after which nothing
waits on the root or on a failed key, failed exactly the doomed keys. -/
theorem FailedExactly.eq_doomed (hsound : D ⊆ b.doomed waitsOn root)
    (hclosed : ∀ x y, c.Waits waitsOn x y → y ≠ root ∧ y ∉ D) : D = b.doomed waitsOn root := by
  refine hsound.antisymm fun x hx => ?_
  -- Walk the chain from the root outwards; an entry left waiting would contradict closure.
  have hstep : ∀ x y, b.Waits waitsOn x y → (y = root ∨ y ∈ D) → x ∈ D := by
    intro x y hxy hy
    by_contra hx
    obtain ⟨e, he, hon⟩ := hxy
    have hclosed := hclosed x y ⟨e, (h x).2 hx ▸ he, hon⟩
    rcases hy with hy | hy
    · exact hclosed.1 hy
    · exact hclosed.2 hy
  induction hx using Relation.TransGen.head_induction_on with
  | single hw => exact hstep _ _ hw (Or.inl rfl)
  | head hw _ ih => exact hstep _ _ hw (Or.inr ih)

end Board

end DynRunner
