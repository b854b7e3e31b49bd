import Mathlib.Data.Finset.Card

/-!
# Tallies of observed events

Events of several classes happen, and a node counts those that it observes. Its count of a class
stays below the number of events of the class that it has seen, whether it counts an event when
it first sees it, or takes over the counts of a time whose events it has all seen.
-/

namespace DynRunner.EventTally

open Finset

variable {E C : Type*} [DecidableEq C] {cls : E → C} {log log' older : Finset E}
  {seen seen' : E → Prop} {tally counts : C → ℕ} {e : E}

variable (cls) (log)

/-- The counts are the numbers of events. -/
def Exact (tally : C → ℕ) : Prop :=
  ∀ c, tally c = (log.filter fun e => cls e = c).card

open scoped Classical in
/-- The events of a class that have been seen. -/
noncomputable def seenOf (seen : E → Prop) (c : C) : Finset E :=
  log.filter fun e => cls e = c ∧ seen e

/-- No count exceeds the number of events that have been seen. -/
def Bounded (seen : E → Prop) (tally : C → ℕ) : Prop :=
  ∀ c, tally c ≤ (seenOf cls log seen c).card

variable {log} {cls}

/-- The events of a class that a node has seen. -/
theorem mem_seenOf {c : C} : e ∈ seenOf cls log seen c ↔ e ∈ log ∧ cls e = c ∧ seen e := by
  classical
  exact mem_filter

/-- Nothing counted is within every bound. -/
theorem bounded_zero : Bounded cls log seen fun _ => 0 := fun _ => Nat.zero_le _

/-- A new event is counted. -/
theorem Exact.insert [DecidableEq E] (h : Exact cls log tally) (he : e ∉ log) :
    Exact cls (insert e log) fun c => tally c + if cls e = c then 1 else 0 := by
  intro c
  dsimp only
  rw [filter_insert, h c]
  split_ifs with hc
  · rw [card_insert_of_notMem fun hmem => he (mem_filter.mp hmem).1]
  · rw [Nat.add_zero]

variable (h : Bounded cls log seen tally)
include h

/-- More has been seen of more events. -/
theorem Bounded.mono (hlog : log ⊆ log')
    (hseen : ∀ e ∈ log, seen e → seen' e) : Bounded cls log' seen' tally := by
  intro c
  refine (h c).trans (card_le_card fun e he => ?_)
  rw [mem_seenOf] at he ⊢
  exact ⟨hlog he.1, he.2.1, hseen e he.1 he.2.2⟩

/-- An event is counted when it is first seen. -/
theorem Bounded.observe (he : e ∈ log)
    (hbefore : ¬ seen e) (hnow : seen' e) (hseen : ∀ e ∈ log, seen e → seen' e) :
    Bounded cls log seen' fun c => tally c + if cls e = c then 1 else 0 := by
  have hmono := h.mono Subset.rfl hseen
  intro c
  dsimp only
  split_ifs with hc
  · have hmore : seenOf cls log seen c ⊂ seenOf cls log seen' c := by
      refine Finset.ssubset_iff_subset_ne.mpr ⟨fun e' he' => ?_, fun heq => ?_⟩
      · rw [mem_seenOf] at he' ⊢
        exact ⟨he'.1, he'.2.1, hseen e' he'.1 he'.2.2⟩
      · have hmem : e ∈ seenOf cls log seen' c := mem_seenOf.mpr ⟨he, hc, hnow⟩
        rw [← heq] at hmem
        exact hbefore (mem_seenOf.mp hmem).2.2
    exact Nat.succ_le_of_lt ((h c).trans_lt (card_lt_card hmore))
  · exact hmono c

/-- The counts of a time are taken over once all its events have been seen. -/
theorem Bounded.adopt (holder : older ⊆ log)
    (hcounts : Exact cls older counts) (hseen : ∀ e ∈ older, seen e) :
    Bounded cls log seen fun c => max (tally c) (counts c) := by
  intro c
  refine max_le (h c) ?_
  rw [hcounts c]
  refine card_le_card fun e he => ?_
  obtain ⟨hmem, hc⟩ := mem_filter.mp he
  exact mem_seenOf.mpr ⟨holder hmem, hc, hseen e hmem⟩

/-- An observer counts no more than has happened. -/
theorem Bounded.le {total : C → ℕ} (htotal : Exact cls log total) (c : C) : tally c ≤ total c := by
  refine (h c).trans ?_
  rw [htotal c]
  refine card_le_card fun e he => ?_
  obtain ⟨hmem, hc, -⟩ := mem_seenOf.mp he
  exact mem_filter.mpr ⟨hmem, hc⟩

end DynRunner.EventTally
