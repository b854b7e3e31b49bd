import Mathlib.Data.List.Perm.Basic
import Mathlib.Order.Lattice

/-!
# Ordered maps

A map that is iterated in the order of its keys: a list of entries whose keys increase. An
entry is written through `upsert`, which creates it first if it is missing, and all entries
are rewritten at once through `mapWithKey`. The values may themselves be collections. The
last section says how what they hold together changes when one of them is written.
-/

namespace DynRunner

open List

/-- A map with increasing keys. -/
structure BTreeMap (K V : Type*) [LinearOrder K] where
  entries : List (K × V)
  sorted : (entries.map Prod.fst).Pairwise (· < ·)

namespace BTreeMap

variable {K V A : Type*} [LinearOrder K]

instance : EmptyCollection (BTreeMap K V) := ⟨⟨[], Pairwise.nil⟩⟩

/-- The value under a key. -/
def get? (m : BTreeMap K V) (k : K) : Option V := (m.entries.find? fun e => e.1 = k).map Prod.snd

variable {m : BTreeMap K V} {k k' : K} {new : V} {entries : List (K × V)} {f : V → V}

/-- The entries of a map are exactly its defined lookups. -/
theorem mem_entries_iff {v : V} : (k, v) ∈ m.entries ↔ m.get? k = some v := by
  obtain ⟨entries, hsorted⟩ := m
  change (k, v) ∈ entries ↔ (entries.find? fun e => e.1 = k).map Prod.snd = some v
  induction entries with
  | nil => simp
  | cons e entries ih =>
    obtain ⟨k', v'⟩ := e
    rw [map_cons, pairwise_cons] at hsorted
    by_cases hk : k' = k
    · subst hk
      have hrest : (k', v) ∉ entries := fun hmem =>
        lt_irrefl _ (hsorted.1 k' (mem_map_of_mem hmem))
      simp [hrest, eq_comm]
    · rw [mem_cons, ih hsorted.2, find?_cons_of_neg (by simpa using hk)]
      simp [Ne.symm hk]

/-- Insert `new` under a missing key, then rewrite the value under the key. -/
def upsertList (k : K) (new : V) (f : V → V) : List (K × V) → List (K × V)
  | [] => [(k, f new)]
  | (k', v) :: entries =>
    if k < k' then (k, f new) :: (k', v) :: entries
    else if k = k' then (k', f v) :: entries
    else (k', v) :: upsertList k new f entries

/-- An upsert brings no other key. -/
theorem mem_keys_upsertList
    (h : k' ∈ (upsertList k new f entries).map Prod.fst) : k' = k ∨ k' ∈ entries.map Prod.fst := by
  induction entries with
  | nil => simpa [upsertList] using h
  | cons e entries ih =>
    obtain ⟨k'', v⟩ := e
    rw [upsertList] at h
    split_ifs at h with hlt heq
    · simpa using h
    · exact Or.inr (by simpa using h)
    · rcases mem_cons.mp h with rfl | h
      · exact Or.inr (by simp)
      · exact (ih h).imp_right (mem_cons_of_mem _)

/-- An upsert keeps the keys in order. -/
theorem sorted_upsertList (h : (entries.map Prod.fst).Pairwise (· < ·)) :
    ((upsertList k new f entries).map Prod.fst).Pairwise (· < ·) := by
  induction entries with
  | nil => simp [upsertList]
  | cons e entries ih =>
    obtain ⟨k', v⟩ := e
    rw [map_cons, pairwise_cons] at h
    rw [upsertList]
    split_ifs with hlt heq
    · exact pairwise_cons.mpr
        ⟨forall_mem_cons.mpr ⟨hlt, fun a ha => hlt.trans (h.1 a ha)⟩, pairwise_cons.mpr h⟩
    · exact pairwise_cons.mpr h
    · refine pairwise_cons.mpr ⟨fun a ha => ?_, ih h.2⟩
      rcases mem_keys_upsertList ha with rfl | ha
      · exact lt_of_le_of_ne (not_lt.mp hlt) (Ne.symm heq)
      · exact h.1 a ha

/-- `entry(k).or_insert(new)`, rewritten by `f`. -/
def upsert (m : BTreeMap K V) (k : K) (new : V) (f : V → V) : BTreeMap K V :=
  ⟨upsertList k new f m.entries, sorted_upsertList m.sorted⟩

/-- What is found after an upsert. -/
theorem find?_upsertList (h : (entries.map Prod.fst).Pairwise (· < ·)) :
    ((upsertList k new f entries).find? fun e => e.1 = k').map Prod.snd =
      if k' = k then some (f (((entries.find? fun e => e.1 = k).map Prod.snd).getD new))
      else (entries.find? fun e => e.1 = k').map Prod.snd := by
  induction entries with
  | nil =>
    by_cases hk : k = k'
    · simp [upsertList, hk]
    · simp [upsertList, hk, Ne.symm hk]
  | cons e entries ih =>
    obtain ⟨k'', v⟩ := e
    rw [map_cons, pairwise_cons] at h
    rcases lt_trichotomy k k'' with hlt | heq | hgt
    · rw [upsertList, if_pos hlt]
      by_cases hk' : k' = k
      · -- The key is missing, so nothing in the list stands under it.
        subst hk'
        have hnone : ((k'', v) :: entries).find? (fun e => e.1 = k') = none := by
          refine find?_eq_none.mpr fun e he => ?_
          rcases mem_cons.mp he with rfl | he
          · simpa using ne_of_gt hlt
          · simpa using ne_of_gt (hlt.trans (h.1 e.1 (mem_map_of_mem he)))
        rw [hnone]
        simp
      · rw [find?_cons_of_neg (by simpa using Ne.symm hk'), if_neg hk']
    · subst heq
      rw [upsertList, if_neg (lt_irrefl k), if_pos rfl]
      by_cases hk' : k' = k
      · simp [hk']
      · rw [if_neg hk', find?_cons_of_neg (by simpa using Ne.symm hk'),
          find?_cons_of_neg (by simpa using Ne.symm hk')]
    · rw [upsertList, if_neg (not_lt_of_gt hgt), if_neg (ne_of_gt hgt)]
      by_cases hk : k'' = k'
      · subst hk
        simp [ne_of_lt hgt]
      · rw [find?_cons_of_neg (by simpa using hk), ih h.2,
          find?_cons_of_neg (by simpa using ne_of_lt hgt),
          find?_cons_of_neg (by simpa using hk)]

/-- Looking up after `upsert`. -/
theorem get?_upsert : (m.upsert k new f).get? k' =
      if k' = k then some (f ((m.get? k).getD new)) else m.get? k' :=
  find?_upsertList m.sorted

/-- Writing an entry leaves the entries that a predicate on keys selects without its key. -/
theorem filter_upsert {p : K → Bool} (hk : p k = false) (m : BTreeMap K V) :
    ((m.upsert k new f).entries.filter fun e => p e.1) = m.entries.filter fun e => p e.1 := by
  change ((upsertList k new f m.entries).filter fun e => p e.1) = _
  induction m.entries with
  | nil => simp [upsertList, hk]
  | cons e entries ih =>
    obtain ⟨k', v⟩ := e
    rw [upsertList]
    split_ifs with hlt heq
    · simp [hk]
    · subst heq
      simp [hk]
    · simp only [filter_cons, ih]

/-- Rewrite every value. -/
def mapWithKey (f : K → V → V) (m : BTreeMap K V) : BTreeMap K V where
  entries := m.entries.map fun e => (e.1, f e.1 e.2)
  sorted := by
    have hkeys : (m.entries.map fun e => (e.1, f e.1 e.2)).map Prod.fst =
        m.entries.map Prod.fst := by
      rw [map_map]
      rfl
    rw [hkeys]
    exact m.sorted

/-- Mapping nothing changes nothing. -/
theorem mapWithKey_id : m.mapWithKey (fun _ v => v) = m := by
  cases m with
  | mk =>
    unfold mapWithKey
    congr
    exact map_id _

/-- Looking up after `mapWithKey`. -/
theorem get?_mapWithKey {f : K → V → V} : (m.mapWithKey f).get? k = (m.get? k).map (f k) := by
  apply Option.ext
  intro v
  rw [← mem_entries_iff, Option.map_eq_some_iff]
  constructor
  · intro hmem
    obtain ⟨⟨k', v'⟩, he, heq⟩ := mem_map.mp hmem
    cases heq
    exact ⟨v', mem_entries_iff.mp he, rfl⟩
  · rintro ⟨v', hv', rfl⟩
    exact mem_map.mpr ⟨(k, v'), mem_entries_iff.mpr hv', rfl⟩

/-- Rewrite the value under a key, if there is one. -/
def modify (m : BTreeMap K V) (k : K) (f : V → V) : BTreeMap K V :=
  m.mapWithKey fun k' v => if k' = k then f v else v

/-- Looking up after `modify`. -/
theorem get?_modify : (m.modify k f).get? k' = if k' = k then (m.get? k).map f else m.get? k' := by
  rw [modify, get?_mapWithKey]
  by_cases hk : k' = k
  · subst hk
    simp
  · simp [hk]

section Contents

variable (held : V → List A)

/-- What the values hold, in the order of the keys. -/
def contents (m : BTreeMap K V) : List A := m.entries.flatMap fun e => held e.2

variable {extra gone : List A}

/-- What the values of a map hold. -/
theorem mem_contents {a : A} : a ∈ m.contents held ↔ ∃ k v, m.get? k = some v ∧ a ∈ held v := by
  constructor
  · intro h
    obtain ⟨⟨k, v⟩, he, ha⟩ := mem_flatMap.mp h
    exact ⟨k, v, mem_entries_iff.mp he, ha⟩
  · rintro ⟨k, v, hv, ha⟩
    exact mem_flatMap.mpr ⟨(k, v), mem_entries_iff.mpr hv, ha⟩

variable {held}

/-- Writing an entry adds what the rewritten value holds beyond the old one. -/
theorem contents_upsert (hnew : held new = []) (hf : ∀ v, (held (f v)).Perm (extra ++ held v)) :
    ((m.upsert k new f).contents held).Perm (extra ++ m.contents held) := by
  obtain ⟨entries, hsorted⟩ := m
  change ((upsertList k new f entries).flatMap fun e => held e.2).Perm
    (extra ++ entries.flatMap fun e => held e.2)
  have hfresh : (held (f new)).Perm extra := by simpa [hnew] using hf new
  clear hsorted
  induction entries with
  | nil => simpa [upsertList] using hfresh
  | cons e entries ih =>
    obtain ⟨k', v⟩ := e
    rw [upsertList]
    split_ifs with hlt heq
    · exact hfresh.append_right _
    · simpa [append_assoc] using (hf v).append_right (entries.flatMap fun e => held e.2)
    · calc held v ++ (upsertList k new f entries).flatMap (fun e => held e.2)
          _ |>.Perm (held v ++ (extra ++ entries.flatMap fun e => held e.2)) := ih.append_left _
          _ |>.Perm (extra ++ (held v ++ entries.flatMap fun e => held e.2)) := by
              rw [← append_assoc, ← append_assoc]
              exact perm_append_comm.append_right _

/-- Rewriting a present value removes what the old value held beyond the new one. -/
theorem contents_modify {v : V} (hv : m.get? k = some v) (hf : (held v).Perm (gone ++ held (f v))) :
    (m.contents held).Perm (gone ++ (m.modify k f).contents held) := by
  have hmem := mem_entries_iff.mpr hv
  obtain ⟨entries, hsorted⟩ := m
  change (entries.flatMap fun e => held e.2).Perm (gone ++
    (entries.map fun e => (e.1, if e.1 = k then f e.2 else e.2)).flatMap fun e => held e.2)
  clear hv
  induction entries with
  | nil => cases hmem
  | cons e entries ih =>
    obtain ⟨k', v'⟩ := e
    rw [map_cons, pairwise_cons] at hsorted
    by_cases hk : k' = k
    · -- The other keys are larger, so the rest of the list stays as it is.
      subst hk
      have hsame : (entries.map fun e => (e.1, if e.1 = k' then f e.2 else e.2)) = entries := by
        refine map_congr_left (fun e he => ?_) |>.trans (map_id' entries)
        rw [if_neg (ne_of_gt (hsorted.1 e.1 (mem_map_of_mem he)))]
      have hvv : v = v' := by
        rcases mem_cons.mp hmem with heq | hrest
        · exact (Prod.mk.inj heq).2
        · exact absurd (hsorted.1 k' (mem_map_of_mem hrest)) (lt_irrefl _)
      subst hvv
      rw [map_cons, hsame, if_pos rfl]
      simpa [append_assoc] using hf.append_right (entries.flatMap fun e => held e.2)
    · have hrest : (k, v) ∈ entries := by
        rcases mem_cons.mp hmem with heq | hrest
        · exact absurd (Prod.mk.inj heq).1.symm hk
        · exact hrest
      rw [map_cons, if_neg hk]
      refine ((ih hsorted.2 hrest).append_left (held v')).trans ?_
      rw [← append_assoc, flatMap_cons, ← append_assoc]
      exact perm_append_comm.append_right _

/-- Rewriting every value without a change of what it holds leaves the contents. -/
theorem contents_mapWithKey {f : K → V → V} (hf : ∀ k v, held (f k v) = held v) :
    (m.mapWithKey f).contents held = m.contents held := by
  change (m.entries.map fun e => (e.1, f e.1 e.2)).flatMap (fun e => held e.2) =
    m.entries.flatMap fun e => held e.2
  rw [flatMap_map]
  simp only [hf]

/-- Rewriting every value into one that holds less leaves a sublist of the contents. -/
theorem contents_mapWithKey_sublist {f : K → V → V} (hf : ∀ k v, (held (f k v)).Sublist (held v)) :
    ((m.mapWithKey f).contents held).Sublist (m.contents held) := by
  change ((m.entries.map fun e => (e.1, f e.1 e.2)).flatMap fun e => held e.2).Sublist
    (m.entries.flatMap fun e => held e.2)
  induction m.entries with
  | nil => exact Sublist.refl _
  | cons e entries ih => exact (hf e.1 e.2).append ih

/-- What the values hold, seen through a function. -/
theorem map_contents {B : Type*} {g : A → B} :
    (m.contents held).map g = m.contents fun v => (held v).map g :=
  map_flatMap

end Contents

end BTreeMap

end DynRunner
