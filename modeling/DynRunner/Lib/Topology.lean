import DynRunner.Lib.ReverseIndex
import Mathlib.Order.WellFoundedSet

/-!
# Topological order

Kahn's algorithm on a graph that may repeat an edge. A node that lies on a cycle or behind one has
no place in a topological order. Those nodes are exactly the ones that the algorithm leaves with a
count, and it visits all nodes exactly if there are none.
-/

namespace DynRunner

open HashMap Relation List

variable {N : Type} [DecidableEq N]

/-- Visit a node: count its children down, and collect those that reach zero. -/
def visitChildren (childrenOf : ReverseIndex N) (residual : HashMap N ℕ) (p : N) :
    HashMap N ℕ × List N :=
  ((childrenOf.lookup p).getD []).foldl (fun (residual, newlyZero) child =>
    let left := (residual.lookup child).getD 0 - 1
    (residual.insert child left, if left = 0 then newlyZero ++ [child] else newlyZero))
    (residual, [])

/-- Kahn's algorithm: visit the nodes of the queue and put the children that have no unvisited
parent left behind them, arranged in some order. Each node enters the queue at most once, so as
many rounds as there are nodes drain it. Returns how many nodes were visited and the counts that
are left. -/
def topologicalWalk (childrenOf : ReverseIndex N) (arrange : List N → List N) :
    ℕ → List N → HashMap N ℕ → ℕ × HashMap N ℕ
  | 0, _, residual => (0, residual)
  | _, [], residual => (0, residual)
  | rounds + 1, p :: queue, residual =>
    let (residual, newlyZero) := visitChildren childrenOf residual p
    let (visited, residual) :=
      topologicalWalk childrenOf arrange rounds (queue ++ arrange newlyZero) residual
    (visited + 1, residual)

/-- The nodes whose count satisfies a predicate. -/
def nodesWith (p : ℕ → Bool) (residual : HashMap N ℕ) : List N :=
  (residual.entries.filter fun e => p e.2).map Sigma.fst

section Order

variable {edges : List (N × N)} {n : N}

/-- There is an edge from one node to another. -/
def Linked (edges : List (N × N)) (a b : N) : Prop := (a, b) ∈ edges

/-- A node on a cycle or behind one. -/
def Unorderable (edges : List (N × N)) (n : N) : Prop :=
  ∃ root, TransGen (Linked edges) root root ∧ ReflTransGen (Linked edges) root n

omit [DecidableEq N] in
/-- A node is accessible exactly if it has no cycle behind it. -/
theorem not_acc_iff : ¬ Acc (Linked edges) n ↔ Unorderable edges n := by
  constructor
  · intro hacc
    by_contra hfree
    -- On the nodes that lead to `n`, being ahead is a strict order.
    let Ahead (a b : N) : Prop := TransGen (Linked edges) a b ∧ ReflTransGen (Linked edges) b n
    have hstrict : IsStrictOrder N Ahead :=
      { irrefl := fun a ha => hfree ⟨a, ha⟩
        trans := fun a b c hab hbc => ⟨hab.1.trans hbc.1, hbc.2⟩ }
    have hfinite : {a | ReflTransGen (Linked edges) a n}.Finite := by
      refine (finite_toSet (n :: edges.map Prod.fst)).subset fun a ha => ?_
      rcases ha.cases_head with rfl | ⟨b, hab, -⟩
      · exact mem_cons_self
      · exact mem_cons_of_mem _ (mem_map_of_mem hab)
    refine hacc (hfinite.wellFoundedOn (r := Ahead) |>.induction (x := n) .refl ?_)
    intro b hb ih
    exact Acc.intro b fun a hab => ih a (hb.head hab) ⟨.single hab, hb⟩
  · rintro ⟨root, hcycle, hreach⟩ hacc
    have hroot : Acc (Linked edges) root := by
      induction hreach with
      | refl => exact hacc
      | tail _ hstep ih => exact ih (hacc.inv hstep)
    have hloop : ∀ a, Acc (TransGen (Linked edges)) a → ¬ TransGen (Linked edges) a a := by
      intro a ha
      induction ha with
      | intro a _ ih => exact fun haa => ih a haa haa
    exact hloop root hroot.transGen hcycle

end Order

section Kahn

variable {edges : List (N × N)} {childrenOf : ReverseIndex N} {indegree residual : HashMap N ℕ}
  {arrange : List N → List N} {visited queue : List N} {p c : N}

/-- The edges into a node from nodes that have not been visited. -/
def openEdges (edges : List (N × N)) (visited : List N) (c : N) : ℕ :=
  edges.countP fun e => e.2 = c ∧ e.1 ∉ visited

/-- An index of children and a count of parents describe a graph. -/
structure Describes (childrenOf : ReverseIndex N) (indegree : HashMap N ℕ)
    (edges : List (N × N)) : Prop where
  children : ∀ p, (childrenOf.lookup p).getD [] = (edges.filter (·.1 = p)).map Prod.snd
  counts : ∀ c k, indegree.lookup c = some k → k = openEdges edges [] c
  ends : ∀ e ∈ edges, e.1 ∈ indegree ∧ e.2 ∈ indegree

/-- Only the values of the indegrees matter. -/
theorem Describes.congr {indegree' : HashMap N ℕ} (h : Describes childrenOf indegree edges)
    (hsame : ∀ c, indegree'.lookup c = indegree.lookup c) :
    Describes childrenOf indegree' edges := by
  have hmem (c : N) : c ∈ indegree' ↔ c ∈ indegree := by rw [mem_iff_lookup, mem_iff_lookup, hsame]
  refine ⟨h.children, fun c k hc => h.counts c k (hsame c ▸ hc), fun e he => ?_⟩
  exact ⟨(hmem _).mpr (h.ends e he).1, (hmem _).mpr (h.ends e he).2⟩

/-- A node has no open edges if all its sources are visited. -/
theorem openEdges_eq_zero : openEdges edges visited c = 0 ↔ ∀ a, (a, c) ∈ edges → a ∈ visited := by
  simp only [openEdges, countP_eq_zero, decide_eq_true_eq, not_and, not_not, Prod.forall]
  exact ⟨fun h a ha => h a c ha rfl, fun h a b hab hb => h a (hb ▸ hab)⟩

/-- Visiting a node closes the edges from it. -/
theorem openEdges_visit (hp : p ∉ visited) : openEdges edges visited c =
    openEdges edges (visited ++ [p]) c + ((edges.filter (·.1 = p)).map Prod.snd).count c := by
  induction edges with
  | nil => rfl
  | cons e edges ih =>
    unfold openEdges at ih ⊢
    by_cases hfrom : e.1 = p <;> by_cases hto : e.2 = c <;> by_cases hmem : e.1 ∈ visited <;>
      simp_all <;> omega

/-- The counts after the children of a node have been counted down, and the children that have
reached zero. -/
theorem visitAll_spec (children : List N) (newlyZero : List N) (residual : HashMap N ℕ)
    (hcount : ∀ c ∈ children, children.count c ≤ (residual.lookup c).getD 0) :
    ∃ residual' zeros, children.foldl (fun (residual, newlyZero) child =>
        let left := (residual.lookup child).getD 0 - 1
        (residual.insert child left, if left = 0 then newlyZero ++ [child] else newlyZero))
        (residual, newlyZero) = (residual', newlyZero ++ zeros) ∧
      (∀ c, residual'.lookup c = if c ∈ children then
        some ((residual.lookup c).getD 0 - children.count c) else residual.lookup c) ∧
      zeros.Nodup ∧
      ∀ c, c ∈ zeros ↔ c ∈ children ∧ (residual.lookup c).getD 0 = children.count c := by
  induction children generalizing residual newlyZero with
  | nil => exact ⟨residual, [], by simp⟩
  | cons child children ih =>
    have hchild := hcount child mem_cons_self
    rw [count_cons_self] at hchild
    let left := (residual.lookup child).getD 0 - 1
    have hlook (c : N) : ((residual.insert child left).lookup c).getD 0 =
        if c = child then left else (residual.lookup c).getD 0 := by
      rw [lookup_insert_eq]
      split_ifs <;> rfl
    obtain ⟨residual', zeros, hfold, hcounts, hnodup, hzeros⟩ := ih
      (if left = 0 then newlyZero ++ [child] else newlyZero) (residual.insert child left) (by
        intro c hc
        have hle := hcount c (mem_cons_of_mem _ hc)
        rw [hlook]
        split_ifs with heq
        · subst heq
          omega
        · rwa [count_cons_of_ne (Ne.symm heq)] at hle)
    refine ⟨residual', (if left = 0 then [child] else []) ++ zeros, ?_, fun c => ?_,
      ?_, fun c => ?_⟩
    · rw [foldl_cons]
      refine hfold.trans (congrArg _ ?_)
      split_ifs <;> simp
    · rw [hcounts, hlook, lookup_insert_eq]
      by_cases heq : c = child
      · subst heq
        by_cases hc : c ∈ children
        · simp [hc, left, Nat.sub_sub, Nat.add_comm]
        · simp [hc, left, count_eq_zero_of_not_mem hc]
      · simp [heq, count_cons_of_ne (Ne.symm heq)]
    · split_ifs with hzero
      · refine nodup_cons.mpr ⟨fun hmem => ?_, hnodup⟩
        have hpos := count_pos_iff.mpr ((hzeros child).mp hmem).1
        omega
      · exact hnodup
    · rw [mem_append, hzeros, hlook, mem_cons]
      by_cases heq : c = child
      · subst heq
        rw [if_pos rfl, count_cons_self]
        by_cases hc : c ∈ children
        · have hpos := count_pos_iff.mpr hc
          split_ifs <;> simp [hc] <;> omega
        · have hnone := count_eq_zero_of_not_mem hc
          split_ifs <;> simp [hc] <;> omega
      · rw [if_neg heq, count_cons_of_ne (Ne.symm heq)]
        split_ifs <;> simp [heq]

/-- The state of the walk. The visited nodes are accessible, and the queue has the other nodes
without an open edge. -/
structure Walking (edges : List (N × N)) (indegree : HashMap N ℕ) (visited queue : List N)
    (residual : HashMap N ℕ) : Prop where
  counts : ∀ c, residual.lookup c = (indegree.lookup c).map fun _ => openEdges edges visited c
  nodup : (visited ++ queue).Nodup
  nodes : ∀ c ∈ visited ++ queue, c ∈ indegree
  free : ∀ c ∈ indegree, c ∈ visited ++ queue ↔ openEdges edges visited c = 0
  accessible : ∀ c ∈ visited, Acc (Linked edges) c

/-- Visiting the front of the queue. -/
theorem Walking.visit (h : Walking edges indegree visited (p :: queue) residual)
    (hg : Describes childrenOf indegree edges) (harrange : ∀ l, (arrange l).Perm l) :
    Walking edges indegree (visited ++ [p])
      (queue ++ arrange (visitChildren childrenOf residual p).2)
      (visitChildren childrenOf residual p).1 := by
  have hp : p ∉ visited := fun hmem => disjoint_of_nodup_append h.nodup hmem mem_cons_self
  have hnode : ∀ c ∈ (childrenOf.lookup p).getD [], c ∈ indegree := by
    intro c hc
    rw [hg.children, mem_map] at hc
    obtain ⟨e, he, rfl⟩ := hc
    exact (hg.ends e (mem_filter.mp he).1).2
  have hlook : ∀ c ∈ indegree, (residual.lookup c).getD 0 = openEdges edges visited c := by
    intro c hc
    obtain ⟨k, hk⟩ := mem_iff_lookup.mp hc
    rw [h.counts, hk]
    rfl
  have hopen (c : N) : openEdges edges visited c = openEdges edges (visited ++ [p]) c +
      ((childrenOf.lookup p).getD []).count c := by
    rw [hg.children]
    exact openEdges_visit hp
  obtain ⟨residual', zeros, hfold, hcounts, hnodup, hzeros⟩ := visitAll_spec
    ((childrenOf.lookup p).getD []) [] residual (by
      intro c hc
      rw [hlook c (hnode c hc), hopen]
      omega)
  have hvisit : visitChildren childrenOf residual p = (residual', zeros) := hfold
  rw [hvisit]
  have hmem (c : N) : c ∈ (visited ++ [p]) ++ (queue ++ arrange zeros) ↔
      c ∈ visited ++ p :: queue ∨ c ∈ zeros := by
    simp [(harrange zeros).mem_iff, or_assoc]
  have hzero : ∀ c ∈ zeros, 0 < openEdges edges visited c ∧
      openEdges edges (visited ++ [p]) c = 0 ∧ c ∈ indegree := by
    intro c hc
    obtain ⟨hchild, heq⟩ := (hzeros c).mp hc
    have hpos := count_pos_iff.mpr hchild
    rw [hlook c (hnode c hchild)] at heq
    have := hopen c
    exact ⟨by omega, by omega, hnode c hchild⟩
  refine ⟨fun c => ?_, ?_, fun c hc => ?_, fun c hc => ?_, fun c hc => ?_⟩
  · rw [hcounts]
    split_ifs with hc
    · obtain ⟨k, hk⟩ := mem_iff_lookup.mp (hnode c hc)
      have := hopen c
      rw [hlook c (hnode c hc), hk, Option.map_some]
      congr 1
      omega
    · rw [h.counts, hopen c, count_eq_zero_of_not_mem hc, Nat.add_zero]
  · have hshape : (visited ++ [p]) ++ (queue ++ arrange zeros) =
        (visited ++ p :: queue) ++ arrange zeros := by simp
    rw [hshape]
    refine h.nodup.append ((harrange zeros).nodup_iff.mpr hnodup) fun c hc hz => ?_
    have hfree := (h.free c (h.nodes c hc)).mp hc
    have hpos := (hzero c ((harrange zeros).mem_iff.mp hz)).1
    omega
  · rcases (hmem c).mp hc with hold | hz
    · exact h.nodes c hold
    · exact (hzero c hz).2.2
  · rw [hmem, h.free c hc, hzeros, hlook c hc]
    have := hopen c
    by_cases hchild : c ∈ (childrenOf.lookup p).getD []
    · have hpos := count_pos_iff.mpr hchild
      simp only [hchild, true_and]
      omega
    · rw [count_eq_zero_of_not_mem hchild] at this
      simp only [hchild, false_and, or_false]
      omega
  · rcases mem_append.mp hc with hold | hlast
    · exact h.accessible c hold
    · obtain rfl := mem_singleton.mp hlast
      have hqueue : c ∈ visited ++ c :: queue := by simp
      have hfree := (h.free c (h.nodes c hqueue)).mp hqueue
      exact Acc.intro c fun a ha => h.accessible a (openEdges_eq_zero.mp hfree a ha)

/-- The walk goes on until the queue is empty. -/
theorem Walking.finish {rounds : ℕ} (h : Walking edges indegree visited queue residual)
    (hg : Describes childrenOf indegree edges) (harrange : ∀ l, (arrange l).Perm l)
    (hrounds : visited.length + rounds = indegree.keys.length) :
    ∃ all, Walking edges indegree all []
        (topologicalWalk childrenOf arrange rounds queue residual).2 ∧
      visited.length + (topologicalWalk childrenOf arrange rounds queue residual).1 =
        all.length := by
  induction rounds generalizing visited queue residual with
  | zero =>
    have hlength : (visited ++ queue).length ≤ indegree.keys.length :=
      h.nodup.length_le_of_subset fun c hc => AList.mem_keys.mp (h.nodes c hc)
    have hempty : queue = [] := by
      rw [length_append] at hlength
      exact length_eq_zero_iff.mp (by omega)
    subst hempty
    exact ⟨visited, h, rfl⟩
  | succ rounds ih =>
    cases queue with
    | nil => exact ⟨visited, h, rfl⟩
    | cons =>
      obtain ⟨all, hall, hlength⟩ := ih (h.visit hg harrange) (by simp; omega)
      refine ⟨all, hall, ?_⟩
      rw [← hlength, topologicalWalk]
      simp
      omega

/-- The nodes whose residual has a property. -/
theorem mem_nodesWith {q : ℕ → Bool} :
    c ∈ nodesWith q residual ↔ ∃ k, residual.lookup c = some k ∧ q k := by
  simp [nodesWith, ← mem_entries_iff]

/-- The nodes that are still held back. -/
theorem mem_nodesWith_ne : c ∈ nodesWith (· ≠ 0) residual ↔ (residual.lookup c).getD 0 ≠ 0 := by
  rw [mem_nodesWith]
  cases residual.lookup c <;> simp

/-- **Kahn's algorithm.** The nodes that are left with a count are those on a cycle or behind one,
and all nodes are visited exactly if there is no cycle. -/
theorem topologicalWalk_spec (hg : Describes childrenOf indegree edges)
    (harrange : ∀ l, (arrange l).Perm l) (hqueue : queue.Perm (nodesWith (· = 0) indegree)) :
    let walk := topologicalWalk childrenOf arrange indegree.keys.length queue indegree
    (∀ c, c ∈ nodesWith (· ≠ 0) walk.2 ↔ Unorderable edges c) ∧
      (walk.1 = indegree.keys.length ↔ ∀ c, ¬ TransGen (Linked edges) c c) := by
  intro walk
  have hstart : Walking edges indegree [] queue indegree := by
    have hnodup : (nodesWith (· = 0) indegree).Nodup :=
      Nodup.sublist (filter_sublist.map _) indegree.keys_nodup
    refine ⟨fun c => ?_, hqueue.nodup_iff.mpr hnodup, fun c hc => ?_, fun c hc => ?_, by simp⟩
    · cases hc : indegree.lookup c with
      | none => rfl
      | some k => rw [Option.map_some, hg.counts c k hc]
    · obtain ⟨k, hk, -⟩ := mem_nodesWith.mp (hqueue.mem_iff.mp hc)
      exact mem_iff_lookup.mpr ⟨k, hk⟩
    · obtain ⟨k, hk⟩ := mem_iff_lookup.mp hc
      have hcount := hg.counts c k hk
      rw [nil_append, hqueue.mem_iff, mem_nodesWith, ← hcount]
      simp [hk]
  obtain ⟨all, hall, hlength⟩ := hstart.finish hg harrange (Nat.zero_add _)
  have hvisits : walk.1 = all.length := by simpa using hlength
  -- An accessible node is visited, since its parents are.
  have hacc : ∀ c, Acc (Linked edges) c → c ∈ indegree → c ∈ all := by
    intro c hc
    induction hc with
    | intro c _ ih =>
      intro hnode
      have hfree := (hall.free c hnode).mpr
        (openEdges_eq_zero.mpr fun a ha => ih a ha (hg.ends (a, c) ha).1)
      simpa using hfree
  have hnodes : ∀ c, ¬ Acc (Linked edges) c → c ∈ indegree := by
    intro c hc
    by_contra hnode
    exact hc (Acc.intro c fun a ha => absurd (hg.ends (a, c) ha).2 hnode)
  have hleft : ∀ c, c ∈ nodesWith (· ≠ 0) walk.2 ↔ Unorderable edges c := by
    intro c
    rw [mem_nodesWith, ← not_acc_iff, hall.counts]
    by_cases hnode : c ∈ indegree
    · obtain ⟨k, hk⟩ := mem_iff_lookup.mp hnode
      have hfree := hall.free c hnode
      rw [append_nil] at hfree
      have hvisited : c ∈ all ↔ Acc (Linked edges) c :=
        ⟨hall.accessible c, fun hc => hacc c hc hnode⟩
      simp [hk, ← hfree, hvisited]
    · have hc : Acc (Linked edges) c := by
        by_contra hc
        exact hnode (hnodes c hc)
      have hnone := AList.lookup_eq_none.mpr hnode
      simp [hnone, hc]
  have hsubperm : all.Subperm indegree.keys :=
    hall.nodup.sublist (by simp) |>.subperm fun c hc => AList.mem_keys.mp (hall.nodes c (by simpa))
  refine ⟨hleft, fun hvisited c hcycle => ?_, fun hacyclic => ?_⟩
  · -- All nodes are visited and so accessible.
    have hsubset := (hsubperm.perm_of_length_le (by omega)).symm.subset
    have hnot := not_acc_iff.mpr ⟨c, hcycle, .refl⟩
    exact hnot (hall.accessible c (hsubset (AList.mem_keys.mpr (hnodes c hnot))))
  · have hsubset : indegree.keys ⊆ all := fun c hc =>
      hacc c (by
        by_contra hnot
        obtain ⟨root, hcycle, -⟩ := not_acc_iff.mp hnot
        exact hacyclic root hcycle) (AList.mem_keys.mp hc)
    have hge := indegree.keys_nodup.length_le_of_subset hsubset
    have hle := hsubperm.length_le
    omega

end Kahn

end DynRunner
