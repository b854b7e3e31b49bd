import Mathlib.Data.Set.Card

/-!
# Two stores that pull buckets from each other

Two stores hold values for keys, and the keys are divided into buckets. A store pulls a selection of
buckets from the other one and keeps the greater value of every key in them. A bucket may be left
out if the two stores agree in it, or if the other store has fewer keys there. Leaving a bucket out
for its number of keys may miss values, but only until the other store has pulled in turn: after
three pulls in alternating directions the stores are equal.
-/

namespace DynRunner.BucketSync

variable {K V R : Type*} [LinearOrder V] {bucket : K → R} {r : R}

/-- The keys of a bucket that a store has. -/
def keysIn (bucket : K → R) (s : K → Option V) (r : R) : Set K := {k | bucket k = r ∧ s k ≠ none}

/-- Two stores agree in a bucket. -/
def SameIn (bucket : K → R) (s t : K → Option V) (r : R) : Prop := ∀ k, bucket k = r → s k = t k

/-- What a selection of buckets may leave out when `s` pulls from `t`. -/
def Covers (bucket : K → R) (s t : K → Option V) (wanted : R → Prop) : Prop :=
  ∀ r, ¬wanted r → SameIn bucket s t r ∨ (keysIn bucket t r).ncard < (keysIn bucket s r).ncard

/-- The store `s'` is what `s` holds after it has pulled the selected buckets of `t`. -/
structure Pulls (bucket : K → R) (s t : K → Option V) (wanted : R → Prop) (s' : K → Option V) :
    Prop where
  pulled : ∀ k, wanted (bucket k) → s' k = max (s k) (t k)
  other : ∀ k, ¬wanted (bucket k) → s' k = s k

section Option

variable (a b : Option V)

/-- A join absorbs its second part. -/
theorem max_absorbs_left : max (max a b) b = max a b := by cases a <;> cases b <;> simp

/-- A join is absorbed from the left. -/
theorem max_absorbs_right : max b (max a b) = max a b := by cases a <;> cases b <;> simp

variable {a b}

/-- A join with something is something. -/
theorem max_ne_none_right (h : b ≠ none) : max a b ≠ none := by cases a <;> cases b <;> simp_all

end Option

omit [LinearOrder V] in
/-- A store that has every key of a bucket that another one has does not have fewer. -/
theorem not_fewer {s t : K → Option V} (hfinite : (keysIn bucket s r).Finite)
    (hkeys : ∀ k, bucket k = r → t k ≠ none → s k ≠ none) :
    ¬(keysIn bucket s r).ncard < (keysIn bucket t r).ncard := by
  have hsub : keysIn bucket t r ⊆ keysIn bucket s r := fun k hk => ⟨hk.1, hkeys k hk.1 hk.2⟩
  exact not_lt.mpr (Set.ncard_le_ncard hsub hfinite)

section Exchange

variable {a b a₁ b₁ a₂ : K → Option V} {wanted wanted₁ wanted₂ : R → Prop}

/-- A bucket that the first pull takes: the second pull leaves the stores equal in it. -/
theorem same_of_wanted (hfinite : ∀ r, (keysIn bucket a₁ r).Finite)
    (hpull : Pulls bucket a b wanted a₁) (hpull₁ : Pulls bucket b a₁ wanted₁ b₁)
    (hcover₁ : Covers bucket b a₁ wanted₁) (hr : wanted r) : SameIn bucket b₁ a₁ r := by
  intro k hk
  have hfirst : a₁ k = max (a k) (b k) := hpull.pulled k (hk ▸ hr)
  by_cases hr₁ : wanted₁ r
  · rw [hpull₁.pulled k (hk ▸ hr₁), hfirst, max_absorbs_right]
  · rw [hpull₁.other k (hk ▸ hr₁)]
    rcases hcover₁ r hr₁ with hsame | hfewer
    · exact hsame k hk
    · refine (not_fewer (hfinite r) (fun k' hk' hb => ?_) hfewer).elim
      rw [hpull.pulled k' (hk' ▸ hr)]
      exact max_ne_none_right hb

/-- Where the stores agree, a pull changes nothing. -/
theorem same_of_same (hpull : Pulls bucket a b wanted a₁) (hsame : SameIn bucket b a r) :
    SameIn bucket a₁ b r := by
  intro k hk
  by_cases hr : wanted r
  · rw [hpull.pulled k (hk ▸ hr), hsame k hk]
    cases a k <;> simp
  · rw [hpull.other k (hk ▸ hr), hsame k hk]

/-- A bucket that the first pull leaves out because the other store has fewer keys there is taken by
the second pull. -/
theorem wanted_of_fewer (hfinite : ∀ r, (keysIn bucket b r).Finite)
    (hpull : Pulls bucket a b wanted a₁) (hcover₁ : Covers bucket b a₁ wanted₁)
    (hr : ¬wanted r) (hfewer : (keysIn bucket b r).ncard < (keysIn bucket a r).ncard) :
    wanted₁ r := by
  have hfirst : ∀ k, bucket k = r → a₁ k = a k := fun k hk => hpull.other k (hk ▸ hr)
  have hkeys : keysIn bucket a₁ r = keysIn bucket a r := by
    ext k
    exact and_congr_right fun hk => by rw [hfirst k hk]
  by_contra hnot
  rcases hcover₁ r hnot with hsame | hless
  · refine not_fewer (hfinite r) (fun k hk ha => ?_) hfewer
    rw [hsame k hk, hfirst k hk]
    exact ha
  · rw [hkeys] at hless
    exact lt_asymm hless hfewer

/-- **Three pulls make two stores equal.** -/
theorem converges (hb : ∀ r, (keysIn bucket b r).Finite) (ha₁ : ∀ r, (keysIn bucket a₁ r).Finite)
    (hb₁ : ∀ r, (keysIn bucket b₁ r).Finite) (hpull : Pulls bucket a b wanted a₁)
    (hpull₁ : Pulls bucket b a₁ wanted₁ b₁) (hpull₂ : Pulls bucket a₁ b₁ wanted₂ a₂)
    (hcover : Covers bucket a b wanted) (hcover₁ : Covers bucket b a₁ wanted₁)
    (hcover₂ : Covers bucket a₁ b₁ wanted₂) (k : K) : a₂ k = b₁ k := by
  by_cases hr : wanted (bucket k)
  · exact same_of_same hpull₂ (same_of_wanted ha₁ hpull hpull₁ hcover₁ hr) k rfl
  · rcases hcover (bucket k) hr with hsame | hfewer
    · have hfirst : SameIn bucket a₁ b (bucket k) := fun k' hk' =>
        (hpull.other k' (hk' ▸ hr)).trans (hsame k' hk')
      exact same_of_same hpull₂ (same_of_same hpull₁ hfirst) k rfl
    · exact same_of_wanted hb₁ hpull₁ hpull₂ hcover₂
        (wanted_of_fewer hb hpull hcover₁ hr hfewer) k rfl

end Exchange

end DynRunner.BucketSync
