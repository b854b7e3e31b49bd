import Mathlib.Data.List.AList

/-!
# Finite maps with an iteration order

A hash map is an association list without repeated keys. The list order is the
order in which one iteration of the map happens to visit its entries. Lookups do
not depend on it, and neither does a fold with a commutative and associative
operation. This file collects the lookup equations and the fold laws that keep an
incrementally maintained summary equal to a summary computed from scratch.
-/

namespace DynRunner

open AList List

/-- A finite map from `K` to `V`. -/
abbrev HashMap (K V : Type*) := AList (fun _ : K => V)

namespace HashMap

variable {K V M : Type*} [DecidableEq K] {m : HashMap K V} {a b : K} {v : V}

/-- Looking up after an insertion. -/
theorem lookup_insert_eq : (m.insert a v).lookup b = if b = a then some v else m.lookup b := by
  by_cases h : b = a
  · subst h
    rw [if_pos rfl]
    exact lookup_insert m
  · rw [if_neg h]
    exact lookup_insert_ne h

/-- Looking up after a removal. -/
theorem lookup_erase_eq : (m.erase a).lookup b = if b = a then none else m.lookup b := by
  by_cases h : b = a
  · subst h
    rw [if_pos rfl]
    exact lookup_erase b m
  · rw [if_neg h]
    exact lookup_erase_ne h

/-- What is left after a removal was there before. -/
theorem lookup_of_erase (h : (m.erase a).lookup b = some v) : m.lookup b = some v := by
  rw [lookup_erase_eq] at h
  split_ifs at h
  exact h

variable {A S W : Type*}

/-- Membership of a key is definedness of its lookup. -/
theorem mem_iff_lookup : a ∈ m ↔ ∃ v, m.lookup a = some v := by
  rw [← lookup_isSome, Option.isSome_iff_exists]

/-- The entries of a map are exactly its defined lookups. -/
theorem mem_entries_iff : (⟨a, v⟩ : Sigma fun _ : K => V) ∈ m.entries ↔ m.lookup a = some v :=
  mem_lookup_iff.symm

/-- A map without defined lookups is empty. -/
theorem eq_empty_of_lookup (h : ∀ a, m.lookup a = none) : m = ∅ := by
  apply ext
  change m.entries = []
  rw [eq_nil_iff_forall_not_mem]
  rintro ⟨a, v⟩ hmem
  have hsome := mem_entries_iff.mp hmem
  rw [h a] at hsome
  cases hsome

/-- Removing an absent key changes nothing. -/
theorem erase_of_lookup_none (h : m.lookup a = none) : m.erase a = m :=
  ext (kerase_of_notMem_keys (lookup_eq_none.mp h))

/-- Erasing a key right after its insertion. -/
theorem erase_insert_self : (m.insert a v).erase a = m.erase a := by
  apply ext
  exact kerase_cons_eq rfl

/-- The entries of a map are, up to order, a present entry and the rest. -/
theorem perm_cons_erase (h : m.lookup a = some v) :
    m.entries.Perm (⟨a, v⟩ :: (m.erase a).entries) := by
  have hmem : (⟨a, v⟩ : Sigma fun _ : K => V) ∈ m.entries := mem_entries_iff.mpr h
  have hkeys : a ∈ m.entries.keys := mem_keys_of_mem hmem
  obtain ⟨w, before, after, _, hentries, herase⟩ := exists_of_kerase hkeys
  have hv : w = v := by
    have hw : m.lookup a = some w := mem_entries_iff.mp (by rw [hentries]; simp)
    rw [h] at hw
    exact (Option.some.inj hw).symm
  subst hv
  change m.entries.Perm (_ :: m.entries.kerase a)
  rw [herase, hentries]
  exact perm_middle

/-- Keep the entries that satisfy a predicate. -/
def retain (p : K → V → Bool) (m : HashMap K V) : HashMap K V where
  entries := m.entries.filter fun e => p e.1 e.2
  nodupKeys := m.nodupKeys.sublist filter_sublist

/-- Looking up after `retain`. -/
theorem lookup_retain {p : K → V → Bool} : (m.retain p).lookup a = (m.lookup a).filter (p a) := by
  apply Option.ext
  intro v
  rw [← mem_entries_iff, Option.filter_eq_some_iff, ← mem_entries_iff]
  exact mem_filter

/-- Replace the values. -/
def mapValues {W : Type*} (f : V → W) (m : HashMap K V) : HashMap K W where
  entries := m.entries.map fun e => ⟨e.1, f e.2⟩
  nodupKeys := by
    have hkeys : (m.entries.map fun e => (⟨e.1, f e.2⟩ : Sigma fun _ : K => W)).keys =
        m.entries.keys := by
      rw [List.keys, List.keys, List.map_map]
      rfl
    rw [NodupKeys, hkeys]
    exact m.nodupKeys

/-- Looking up after `mapValues`. -/
theorem lookup_mapValues {f : V → W} : (m.mapValues f).lookup a = (m.lookup a).map f := by
  apply Option.ext
  intro w
  rw [← mem_entries_iff, Option.map_eq_some_iff]
  constructor
  · intro hmem
    obtain ⟨⟨b, v⟩, hb, heq⟩ := mem_map.mp hmem
    cases heq
    exact ⟨v, mem_entries_iff.mp hb, rfl⟩
  · rintro ⟨v, hv, rfl⟩
    exact mem_map.mpr ⟨⟨a, v⟩, mem_entries_iff.mpr hv, rfl⟩

/-- Rewrite the value under a key, if there is one. -/
def adjust (f : V → V) (m : HashMap K V) (a : K) : HashMap K V :=
  match m.lookup a with
  | none => m
  | some v => m.insert a (f v)

/-- Looking up after `adjust`. -/
theorem lookup_adjust {f : V → V} :
    (m.adjust f a).lookup b = if b = a then (m.lookup a).map f else m.lookup b := by
  unfold adjust
  cases ha : m.lookup a with
  | none =>
    split_ifs with hb
    · rw [hb, ha]
      rfl
    · rfl
  | some => exact lookup_insert_eq

/-- **Folding over a map, observed at one key.** If each round changes an observation only at
its own key, the fold changes it by the entry under that key. -/
theorem foldl_entries_at (step : S → (Sigma fun _ : K => V) → S) (view : S → A)
    (k : K) (f : A → V → A) (hself : ∀ s v, view (step s ⟨k, v⟩) = f (view s) v)
    (hother : ∀ s e, e.1 ≠ k → view (step s e) = view s) (m : HashMap K V) (s : S) :
    view (m.entries.foldl step s) = ((m.lookup k).map (f (view s))).getD (view s) := by
  -- Rounds under other keys change nothing.
  have hskip : ∀ (l : List (Sigma fun _ : K => V)), (∀ e ∈ l, e.1 ≠ k) → ∀ s,
      view (l.foldl step s) = view s := by
    intro l
    induction l with
    | nil => exact fun _ _ => rfl
    | cons e l ih =>
      intro hl s
      rw [foldl_cons, ih (fun e' he' => hl e' (mem_cons_of_mem e he')),
        hother s e (hl e mem_cons_self)]
  cases hk : m.lookup k with
  | none =>
    refine hskip m.entries (fun e he hek => ?_) s
    obtain ⟨a, v⟩ := e
    subst hek
    rw [mem_entries_iff.mp he] at hk
    cases hk
  | some =>
    -- The entry stands at one place of the list; nothing before or after has its key.
    obtain ⟨before, after, hsplit⟩ := append_of_mem (mem_entries_iff.mpr hk)
    have hnodup := m.nodupKeys
    rw [hsplit, List.NodupKeys, List.keys, List.map_append, List.map_cons] at hnodup
    have hbefore : ∀ e ∈ before, e.1 ≠ k := fun e he hek =>
      (nodup_append.mp hnodup).2.2 e.1 (mem_map_of_mem he) k mem_cons_self hek
    have hafter : ∀ e ∈ after, e.1 ≠ k := by
      intro e he hek
      have hmem : e.1 ∈ after.map Sigma.fst := mem_map_of_mem he
      rw [hek] at hmem
      exact (nodup_cons.mp (nodup_append.mp hnodup).2.1).1 hmem
    rw [hsplit, foldl_append, foldl_cons, hskip after hafter, hself, hskip before hbefore]
    rfl

section Fold

variable (op : M → M → M) (unit : M) (weight : K → V → M)

/-- The summary of a map: the weights of all its entries combined by `op`. -/
def foldMap (m : HashMap K V) : M :=
  m.entries.foldr (fun e acc => op (weight e.1 e.2) acc) unit

variable [hcomm : Std.Commutative op] [hassoc : Std.Associative op]

omit [DecidableEq K] in
/-- A summary does not depend on the iteration order. -/
theorem foldMap_perm {m' : HashMap K V} (h : m.entries.Perm m'.entries) :
    foldMap op unit weight m = foldMap op unit weight m' := by
  refine h.foldr_eq' (fun x _ y _ z => ?_) unit
  rw [← hassoc.assoc, hcomm.comm (weight y.1 y.2), hassoc.assoc]

/-- A present entry can be split off a summary. -/
theorem foldMap_of_lookup (h : m.lookup a = some v) :
    foldMap op unit weight m = op (weight a v) (foldMap op unit weight (m.erase a)) := by
  have hperm : m.entries.Perm ((m.erase a).insert a v).entries := by
    rw [entries_insert_of_notMem (lookup_eq_none.mp (lookup_erase a m))]
    exact perm_cons_erase h
  rw [foldMap_perm op unit weight hperm]
  simp only [foldMap]
  rw [entries_insert_of_notMem (lookup_eq_none.mp (lookup_erase a m))]
  rfl

omit hcomm hassoc in
/-- Inserting under a new key adds its weight to the summary. -/
theorem foldMap_insert_of_none (h : m.lookup a = none) :
    foldMap op unit weight (m.insert a v) = op (weight a v) (foldMap op unit weight m) := by
  change op (weight a v) (foldMap op unit weight (m.erase a)) = _
  rw [erase_of_lookup_none h]

end Fold

section Count

variable (p : K → V → Bool)

/-- How many entries satisfy a predicate. -/
def count (m : HashMap K V) : ℕ := m.entries.countP fun e => p e.1 e.2

omit [DecidableEq K] in
@[simp] theorem count_empty : count p (∅ : HashMap K V) = 0 := rfl

/-- Inserting under a key counts the new value and the other entries. -/
theorem count_insert {m : HashMap K V} {a : K} :
    count p (m.insert a v) = count p (m.erase a) + if p a v then 1 else 0 := by
  change countP _ (_ :: m.entries.kerase a) = _
  rw [countP_cons]
  rfl

/-- A present entry can be split off a count. -/
theorem count_of_lookup (h : m.lookup a = some v) :
    count p m = count p (m.erase a) + if p a v then 1 else 0 := by
  unfold count
  rw [(perm_cons_erase h).countP_eq, countP_cons]

/-- Inserting under a new key adds to the count. -/
theorem count_insert_of_none (v : V) (h : m.lookup a = none) :
    count p (m.insert a v) = count p m + if p a v then 1 else 0 := by
  rw [count_insert, erase_of_lookup_none h]

omit [DecidableEq K] in
/-- A count does not depend on the iteration order. -/
theorem count_perm {m' : HashMap K V} (h : m.entries.Perm m'.entries) :
    count p m = count p m' := h.countP_eq _

/-- When all the entries that satisfy a predicate stand under one key, that key decides. -/
theorem count_eq_of_key {k : K} (h : ∀ a v, m.lookup a = some v → p a v → a = k) :
    count p m = if (m.lookup k).any (p k) then 1 else 0 := by
  have hrest : count p (m.erase k) = 0 := by
    refine countP_eq_zero.mpr fun ⟨a, v⟩ hmem hp => ?_
    have hlookup := (mem_entries_iff.mp hmem)
    rw [lookup_erase_eq] at hlookup
    split_ifs at hlookup with ha
    exact ha (h a v hlookup hp)
  cases hk : m.lookup k with
  | none => rw [← erase_of_lookup_none hk, hrest, Option.any_none, if_neg Bool.false_ne_true]
  | some => rw [count_of_lookup p hk, hrest, Nat.zero_add, Option.any_some]

end Count

section InsertAll

variable (key : V → K)

/-- Insert values one after the other, each under its own key. -/
def insertAll (m : HashMap K V) (l : List V) : HashMap K V :=
  l.foldl (fun m v => m.insert (key v) v) m

variable {l : List V}

/-- The last value of a key stays. -/
theorem lookup_insertAll {k : K} :
    (insertAll key m l).lookup k = (l.reverse.find? (key · = k)).or (m.lookup k) := by
  induction l generalizing m with
  | nil => rfl
  | cons v l ih =>
    rw [insertAll, foldl_cons, ← insertAll, ih, lookup_insert_eq, reverse_cons,
      find?_append, Option.or_assoc]
    congr 1
    by_cases hk : key v = k
    · simp [hk]
    · simp [hk, Ne.symm hk]

/-- Values under different new keys all count. -/
theorem count_insertAll {p : K → V → Bool}
    (hkeys : (l.map key).Nodup) (hnew : ∀ v ∈ l, m.lookup (key v) = none) :
    count p (insertAll key m l) = count p m + l.countP fun v => p (key v) v := by
  induction l generalizing m with
  | nil => rfl
  | cons v l ih =>
    rw [map_cons, nodup_cons] at hkeys
    have hrest : ∀ w ∈ l, (m.insert (key v) v).lookup (key w) = none := by
      intro w hw
      rw [lookup_insert_eq, if_neg, hnew w (mem_cons_of_mem v hw)]
      exact fun heq => hkeys.1 (heq ▸ mem_map_of_mem hw)
    rw [insertAll, foldl_cons, ← insertAll, ih hkeys.2 hrest,
      count_insert_of_none p v (hnew v mem_cons_self), countP_cons]
    omega

end InsertAll

/-- What a map holds after a list of insertions. -/
theorem mem_of_lookup_foldl_insert {l : List (K × V)} {k : K}
    (h : (l.foldl (fun m e => m.insert e.1 e.2) m).lookup k = some v) :
    (k, v) ∈ l ∨ m.lookup k = some v := by
  induction l generalizing m with
  | nil => exact .inr h
  | cons e l ih =>
    rcases ih h with hmem | hlookup
    · exact .inl (mem_cons_of_mem _ hmem)
    · rw [lookup_insert_eq] at hlookup
      split_ifs at hlookup with heq
      · subst heq
        cases hlookup
        exact .inl mem_cons_self
      · exact .inr hlookup

/-- Entries that each contribute at most their own key contribute different keys. -/
theorem nodup_flatMap_entries {f : K → V → List K}
    (hf : ∀ k v, m.lookup k = some v → (f k v).Sublist [k]) :
    (m.entries.flatMap fun e => f e.1 e.2).Nodup := by
  have hsub : ∀ l : List (Sigma fun _ : K => V), (∀ e ∈ l, e ∈ m.entries) →
      (l.flatMap fun e => f e.1 e.2).Sublist (l.map Sigma.fst) := by
    intro l
    induction l with
    | nil => exact fun _ => Sublist.refl _
    | cons e l ih =>
      intro hl
      obtain ⟨hhead, htail⟩ := forall_mem_cons.mp hl
      rw [flatMap_cons, map_cons]
      exact (hf e.1 e.2 (mem_entries_iff.mp hhead)).append (ih htail)
  exact (hsub m.entries fun _ h => h).nodup m.nodupKeys

/-- Keys are written one after the other, each with the value of its position. -/
theorem lookup_foldl_zipIdx (value : ℕ → Option V) {write : HashMap K V → K × ℕ → HashMap K V}
    (hwrite : ∀ m key i other, (write m (key, i)).lookup other =
      if other = key then value i else m.lookup other)
    (keys : List K) (n : ℕ) (m : HashMap K V) (key : K) :
    key ∉ keys ∧ ((keys.zipIdx n).foldl write m).lookup key = m.lookup key ∨
      ∃ i, keys[i]? = some key ∧ ((keys.zipIdx n).foldl write m).lookup key = value (n + i) := by
  induction keys generalizing n m with
  | nil => exact .inl ⟨not_mem_nil, rfl⟩
  | cons first keys ih =>
    rw [zipIdx_cons, foldl_cons]
    rcases ih (n + 1) (write m (first, n)) with ⟨hkey, hlookup⟩ | ⟨i, hi, hlookup⟩
    · rw [hlookup, hwrite]
      by_cases hfirst : key = first
      · exact .inr ⟨0, by rw [hfirst, getElem?_cons_zero], if_pos hfirst⟩
      · exact .inl ⟨by simp [hfirst, hkey], if_neg hfirst⟩
    · exact .inr ⟨i + 1, hi, by rw [hlookup, Nat.add_right_comm, Nat.add_assoc]⟩

section Tally

variable {G : Type*} [DecidableEq G]

/-- A counter holds, for each group, how many entries of the map belong to it. An entry may belong
to none. -/
def TalliesSome (counter : HashMap G ℕ) (group : V → Option G) (m : HashMap K V) : Prop :=
  ∀ g, (counter.lookup g).getD 0 = m.count fun _ v => group v = some g

/-- A counter holds, for each group, how many entries of the map belong to it. -/
def Tallies (counter : HashMap G ℕ) (group : V → G) (m : HashMap K V) : Prop :=
  ∀ g, (counter.lookup g).getD 0 = m.count fun _ v => group v = g

section

variable {counter : HashMap G ℕ} {group : V → Option G} {g : G} {w : V}

variable (h : TalliesSome counter group m)

include h

/-- A new value of a group is counted. -/
theorem TalliesSome.insert (ha : m.lookup a = none) (hv : group v = some g) :
    TalliesSome (counter.insert g ((counter.lookup g).getD 0 + 1)) group (m.insert a v) := by
  intro g'
  rw [lookup_insert_eq, count_insert_of_none _ v ha, ← h g', hv]
  by_cases hg : g' = g
  · subst hg
    simp
  · simp [hg, Ne.symm hg]

/-- A value of a group that leaves is counted down. -/
theorem TalliesSome.erase (ha : m.lookup a = some v) (hv : group v = some g) :
    TalliesSome (counter.adjust (· - 1) g) group (m.erase a) := by
  intro g'
  have hcount := count_of_lookup (fun _ v => decide (group v = some g')) ha
  rw [lookup_adjust]
  by_cases hg : g' = g
  · subst hg
    have hbefore := h g'
    rw [if_pos rfl]
    cases hlookup : counter.lookup g' with
    | none =>
      rw [hlookup, Option.getD_none] at hbefore
      simp only [hv, decide_true, if_true] at hcount
      omega
    | some =>
      rw [hlookup, Option.getD_some] at hbefore
      simp only [hv, decide_true, if_true] at hcount
      simp only [Option.map_some, Option.getD_some]
      omega
  · have hother : decide (group v = some g') = false := by simp [hv, Ne.symm hg]
    rw [if_neg hg, h g', hcount, hother]
    rfl

/-- A value of no group leaves unnoticed. -/
theorem TalliesSome.erase_none (ha : m.lookup a = some v) (hv : group v = none) :
    TalliesSome counter group (m.erase a) := by
  intro g'
  rw [h g', count_of_lookup _ ha, hv]
  rfl

/-- A value may change within its group. -/
theorem TalliesSome.replace (ha : m.lookup a = some v) (hgroup : group w = group v) :
    TalliesSome counter group (m.insert a w) := by
  intro g
  rw [h g, count_insert, count_of_lookup _ ha, hgroup]

/-- A value of no group enters unnoticed, also over another one. -/
theorem TalliesSome.insert_none (hw : group w = none)
    (ha : ∀ v, m.lookup a = some v → group v = none) :
    TalliesSome counter group (m.insert a w) := by
  cases hlookup : m.lookup a with
  | none =>
    intro g'
    rw [h g', count_insert_of_none _ w hlookup, hw]
    rfl
  | some v => exact h.replace hlookup (hw.trans (ha v hlookup).symm)

end

variable {counter : HashMap G ℕ} {group : V → G}

omit [DecidableEq K] in
/-- If every value has a group, all are counted. -/
theorem talliesSome_iff :
    TalliesSome counter (fun v => some (group v)) m ↔ Tallies counter group m := by
  simp only [TalliesSome, Tallies, Option.some.injEq]

variable (h : Tallies counter group m)

include h

/-- A new entry raises the counter of its group. -/
theorem Tallies.insert (ha : m.lookup a = none) (v : V) :
    Tallies (counter.insert (group v) ((counter.lookup (group v)).getD 0 + 1)) group
      (m.insert a v) :=
  talliesSome_iff.mp ((talliesSome_iff.mpr h).insert ha rfl)

/-- A removed entry lowers the counter of its group. -/
theorem Tallies.erase (ha : m.lookup a = some v) :
    Tallies (counter.adjust (· - 1) (group v)) group (m.erase a) :=
  talliesSome_iff.mp ((talliesSome_iff.mpr h).erase ha rfl)

/-- Replacing an entry by one of the same group leaves the counters right. -/
theorem Tallies.replace {w : V} (ha : m.lookup a = some v) (hgroup : group w = group v) :
    Tallies counter group (m.insert a w) :=
  talliesSome_iff.mp ((talliesSome_iff.mpr h).replace ha (congrArg some hgroup))

end Tally

end HashMap

end DynRunner
