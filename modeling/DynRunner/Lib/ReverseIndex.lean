import DynRunner.Lib.HashMap

/-!
# Reverse indexes

When keys point to other keys, a reverse index lists under each key the keys that point to it.
The lists may repeat a key, and an empty list is not kept. All facts are stated through
`Lists`, membership in the list under a key.
-/

namespace DynRunner

open HashMap

/-- The keys that point to a key. -/
abbrev ReverseIndex (K : Type*) := HashMap K (List K)

namespace ReverseIndex

variable {K : Type*} [DecidableEq K]

/-- `k` is listed under `d`. -/
def Lists (index : ReverseIndex K) (d k : K) : Prop := k ∈ (index.lookup d).getD []

instance (index : ReverseIndex K) (d k : K) : Decidable (index.Lists d k) :=
  inferInstanceAs (Decidable (k ∈ (index.lookup d).getD []))

/-- List `k` under `d`. -/
def push (index : ReverseIndex K) (d k : K) : ReverseIndex K :=
  index.insert d ((index.lookup d).getD [] ++ [k])

variable {index : ReverseIndex K} {d k d' k' : K} {ds : List K}

/-- Pushing lists one pair. -/
theorem lists_push : (index.push d k).Lists d' k' ↔ index.Lists d' k' ∨ d' = d ∧ k' = k := by
  rw [Lists, push, lookup_insert_eq, Lists]
  by_cases hd : d' = d
  · subst hd
    simp
  · simp [hd]

/-- List `k` under each of `ds`. -/
def link (index : ReverseIndex K) (ds : List K) (k : K) : ReverseIndex K :=
  ds.foldl (fun index d => index.push d k) index

/-- Linking lists a key at several places. -/
theorem lists_link : (index.link ds k).Lists d' k' ↔ index.Lists d' k' ∨ d' ∈ ds ∧ k' = k := by
  induction ds generalizing index with
  | nil => simp [link]
  | cons d ds ih =>
    have hstep : index.link (d :: ds) k = (index.push d k).link ds k := rfl
    rw [hstep, ih, lists_push, List.mem_cons]
    tauto

/-- Strike `k` from the list under `d`. -/
def strike (index : ReverseIndex K) (d k : K) : ReverseIndex K :=
  match index.lookup d with
  | none => index
  | some rev =>
    let rest := rev.filter (· ≠ k)
    if rest.isEmpty then index.erase d else index.insert d rest

/-- Striking takes one pair away. -/
theorem lists_strike :
    (index.strike d k).Lists d' k' ↔ index.Lists d' k' ∧ ¬ (d' = d ∧ k' = k) := by
  unfold strike
  cases hd : index.lookup d with
  | none =>
    refine ⟨fun h => ⟨h, ?_⟩, fun h => h.1⟩
    rintro ⟨rfl, -⟩
    rw [Lists, hd] at h
    cases h
  | some rev =>
    dsimp only
    by_cases hdd : d' = d
    · subst hdd
      split_ifs with hempty
      · rw [Lists, lookup_erase_eq, if_pos rfl, Lists, hd]
        have hgone : k' ∉ rev.filter (· ≠ k) := by
          rw [List.isEmpty_iff.mp hempty]
          exact List.not_mem_nil
        simpa [List.mem_filter] using hgone
      · rw [Lists, lookup_insert_eq, if_pos rfl, Lists, hd]
        simp [List.mem_filter]
    · have hsame : (if (rev.filter (· ≠ k)).isEmpty then index.erase d
          else index.insert d (rev.filter (· ≠ k))).lookup d' = index.lookup d' := by
        split_ifs
        · rw [lookup_erase_eq, if_neg hdd]
        · rw [lookup_insert_eq, if_neg hdd]
      rw [Lists, hsame, Lists]
      simp [hdd]

/-- Strike `k` from the list under each of `ds`. -/
def unlink (index : ReverseIndex K) (ds : List K) (k : K) : ReverseIndex K :=
  ds.foldl (fun index d => index.strike d k) index

/-- Unlinking takes a key away at several places. -/
theorem lists_unlink :
    (index.unlink ds k).Lists d' k' ↔ index.Lists d' k' ∧ ¬ (d' ∈ ds ∧ k' = k) := by
  induction ds generalizing index with
  | nil => simp [unlink]
  | cons d ds ih =>
    have hstep : index.unlink (d :: ds) k = (index.strike d k).unlink ds k := rfl
    rw [hstep, ih, lists_strike, List.mem_cons]
    tauto

/-- Forgetting what is listed under a key. -/
theorem lists_erase : Lists (index.erase d) d' k ↔ d' ≠ d ∧ index.Lists d' k := by
  rw [Lists, lookup_erase_eq, Lists]
  by_cases hd : d' = d
  · simp [hd]
  · simp [hd]

end ReverseIndex

end DynRunner
