import DynRunner.Pool.Consistency

/-!
# The checks of a batch

A batch is refused if an id of it is taken, if a dependency of it is unknown, or if the blocked
items and the batch wait for each other in a circle. The cycle check is exact: it finds a walk
exactly if there is a cycle, and the walk stays on nodes that no topological order has a place for.
-/

namespace DynRunner.PendingPool

open HashMap Relation DependencyGraph AList List

variable {I : Type}

section Graph

/-- The edges that an item brings, one from each dependency that is not resolved yet. -/
def itemEdges (preResolved : String → Bool) (item : TaskInfo I) :
    List (TaskIdentity × TaskIdentity) :=
  (item.taskDependsOn.filter fun dep => !preResolved dep.taskId).map
    fun dep => (dep.identity, item.identity)

/-- The dependencies of the blocked items and of a batch that are neither complete nor failed. -/
def batchEdges (pool : PendingPool I) (batch : List (TaskInfo I)) :
    List (TaskIdentity × TaskIdentity) :=
  ((pool.blocked.entries.map fun e => e.2) ++ batch).flatMap
    (itemEdges fun id => decide (id ∈ pool.completedTasks ∨ id ∈ pool.failedTasks))

variable {g : DependencyGraph} {edges : List (TaskIdentity × TaskIdentity)}
  {node dep : TaskIdentity}

section

variable (h : Describes g.childrenOf g.indegree edges)
include h

/-- A node without edges has none open. -/
theorem openEdges_of_not_mem (hnode : node ∉ g.indegree) : openEdges edges [] node = 0 :=
  openEdges_eq_zero.mpr fun a ha => absurd (h.ends (a, node) ha).2 hnode

/-- A touched node has no edges. -/
theorem describes_touch (node : TaskIdentity) :
    Describes (g.touch node).childrenOf (g.touch node).indegree edges := by
  unfold touch
  split_ifs with hnode
  · exact h
  · refine ⟨h.children, fun c k hc => ?_, fun e he => ?_⟩
    · rw [lookup_insert_eq] at hc
      split_ifs at hc with heq
      · rw [heq, openEdges_of_not_mem h hnode]
        exact (Option.some.inj hc).symm
      · exact h.counts c k hc
    · exact ⟨(mem_insert _).mpr (.inr (h.ends e he).1), (mem_insert _).mpr (.inr (h.ends e he).2)⟩

/-- One more edge between two nodes of the graph. -/
theorem describes_edge (hnode : node ∈ g.indegree) (hdep : dep ∈ g.indegree) :
    Describes (g.childrenOf.push dep node)
      (g.indegree.insert node ((g.indegree.lookup node).getD 0 + 1)) (edges ++ [(dep, node)]) := by
  obtain ⟨count, hcount⟩ := mem_iff_lookup.mp hnode
  refine ⟨fun p => ?_, fun c k hc => ?_, fun e he => ?_⟩
  · rw [ReverseIndex.push, lookup_insert_eq]
    by_cases hp : p = dep
    · subst hp
      simp [h.children]
    · simp [h.children, hp, Ne.symm hp]
  · rw [lookup_insert_eq, hcount] at hc
    rw [openEdges, countP_append, ← openEdges]
    split_ifs at hc with heq
    · subst heq
      rw [← h.counts c count hcount, ← Option.some.inj hc]
      simp
    · rw [← h.counts c k hc]
      simp [Ne.symm heq]
  · rcases mem_append.mp he with hold | hnew
    · exact ⟨(mem_insert _).mpr (.inr (h.ends e hold).1),
        (mem_insert _).mpr (.inr (h.ends e hold).2)⟩
    · obtain rfl := mem_singleton.mp hnew
      exact ⟨(mem_insert _).mpr (.inr hdep), (mem_insert _).mpr (.inl rfl)⟩

/-- The edge of one dependency, whose node may be new. -/
theorem describes_dependency (hnode : node ∈ g.indegree) (dep : TaskIdentity) :
    let g' := touch
      { indegree := g.indegree.insert node ((g.indegree.lookup node).getD 0 + 1)
        childrenOf := g.childrenOf.push dep node } dep
    Describes g'.childrenOf g'.indegree (edges ++ [(dep, node)]) ∧ node ∈ g'.indegree := by
  intro g'
  by_cases hdep : dep ∈ g.indegree
  · have hg' : g' = ⟨_, _⟩ := if_pos ((mem_insert _).mpr (.inr hdep))
    rw [hg']
    exact ⟨describes_edge h hnode hdep, (mem_insert _).mpr (.inl rfl)⟩
  · have hne : dep ≠ node := fun heq => hdep (heq ▸ hnode)
    have hg' : g' = ⟨_, _⟩ := if_neg (by simp [mem_insert, hne, hdep])
    have htouched : g.touch dep = { g with indegree := g.indegree.insert dep 0 } := if_neg hdep
    have hedge := describes_edge (describes_touch h dep)
      (show node ∈ (g.touch dep).indegree by simp [htouched, mem_insert, hnode])
      (show dep ∈ (g.touch dep).indegree by simp [htouched, mem_insert])
    rw [htouched] at hedge
    rw [hg']
    refine ⟨hedge.congr fun c => ?_, by simp [mem_insert]⟩
    simp only [lookup_insert_eq, if_neg (Ne.symm hne)]
    by_cases hc : c = node
    · simp [hc, Ne.symm hne]
    · simp [hc]

end

/-- The edges of an item are added to the graph. -/
theorem describes_addEdges (preResolved : String → Bool) (item : TaskInfo I)
    (h : Describes g.childrenOf g.indegree edges) :
    Describes (g.addEdges preResolved item).childrenOf (g.addEdges preResolved item).indegree
      (edges ++ itemEdges preResolved item) := by
  have hnode : item.identity ∈ (g.touch item.identity).indegree := by
    unfold touch
    split_ifs with hmem
    · exact hmem
    · exact (mem_insert _).mpr (.inl rfl)
  replace h := describes_touch h item.identity
  unfold addEdges itemEdges
  dsimp only
  generalize g.touch item.identity = g at h hnode ⊢
  -- The induction is on the dependencies, with the edges so far.
  induction item.taskDependsOn.filter fun dep => !preResolved dep.taskId generalizing g edges with
  | nil => simpa using h
  | cons dep deps ih =>
    obtain ⟨hnext, hmem⟩ := describes_dependency h hnode dep.identity
    rw [map_cons, append_cons]
    exact ih _ hnext hmem

/-- The graph of the cycle check has the edges of the blocked items and the batch. -/
theorem describes_dependencyGraph (pool : PendingPool I) (batch : List (TaskInfo I)) :
    Describes (pool.dependencyGraph batch).childrenOf (pool.dependencyGraph batch).indegree
      (pool.batchEdges batch) := by
  have hfold (preResolved : String → Bool) (items : List (TaskInfo I)) (g : DependencyGraph)
      (edges : List (TaskIdentity × TaskIdentity)) (h : Describes g.childrenOf g.indegree edges) :
      Describes (items.foldl (addEdges preResolved) g).childrenOf
        (items.foldl (addEdges preResolved) g).indegree
        (edges ++ items.flatMap (itemEdges preResolved)) := by
    induction items generalizing g edges with
    | nil => simpa using h
    | cons item items ih =>
      rw [flatMap_cons, ← append_assoc]
      exact ih _ _ (describes_addEdges preResolved item h)
  have hempty : Describes (⟨∅, ∅⟩ : DependencyGraph).childrenOf (⟨∅, ∅⟩ : DependencyGraph).indegree
      [] := ⟨fun _ => rfl, by rintro c k ⟨⟩, fun e he => absurd he not_mem_nil⟩
  have hblocked := hfold (fun id => decide (id ∈ pool.completedTasks ∨ id ∈ pool.failedTasks))
    (pool.blocked.entries.map fun e => e.2) _ _ hempty
  rw [foldl_map, nil_append] at hblocked
  unfold batchEdges
  rw [flatMap_append]
  exact hfold _ batch _ _ hblocked

/-- The walk of an error stays on nodes that the order could not place. -/
theorem mem_cycleWalk {residual : HashMap TaskIdentity ℕ} {rounds : ℕ} {seen : List TaskIdentity}
    {cur : TaskIdentity} (hseen : ∀ n ∈ seen, (residual.lookup n).getD 0 ≠ 0)
    (hcur : (residual.lookup cur).getD 0 ≠ 0) :
    ∀ n ∈ g.cycleWalk residual rounds seen cur, (residual.lookup n).getD 0 ≠ 0 := by
  induction rounds generalizing seen cur with
  | zero => exact hseen
  | succ rounds ih =>
    have hall : ∀ n ∈ seen ++ [cur], (residual.lookup n).getD 0 ≠ 0 := by
      intro n hn
      rcases mem_append.mp hn with hold | hlast
      · exact hseen n hold
      · rwa [mem_singleton.mp hlast]
    unfold cycleWalk
    split_ifs
    · exact hseen
    · dsimp only
      split
      · exact hall
      · next n hnext =>
        have hchild := min?_mem hnext
        exact ih hall (by simpa using (mem_filter.mp hchild).2)

/-- **The cycle check is exact.** -/
theorem findCycle_spec (pool : PendingPool I) (batch : List (TaskInfo I)) :
    (pool.findCycle batch = none ↔ ∀ n, ¬ TransGen (Linked (pool.batchEdges batch)) n n) ∧
      ∀ walk, pool.findCycle batch = some walk → ∃ nodes : List TaskIdentity,
        walk = nodes.map (fun n => (ofLex n).2) ∧
          ∀ n ∈ nodes, Unorderable (pool.batchEdges batch) n := by
  let sort := insertionSort (α := TaskIdentity) (· ≤ ·)
  have hsort : ∀ l, (sort l).Perm l := perm_insertionSort _
  obtain ⟨hleft, hvisited⟩ :=
    topologicalWalk_spec (describes_dependencyGraph pool batch) hsort (hsort _)
  unfold findCycle
  dsimp only
  split_ifs with hall
  · exact ⟨⟨fun _ => hvisited.mp hall, fun _ => rfl⟩, by rintro walk ⟨⟩⟩
  · have hcycle := mt hvisited.mpr hall
    split
    · refine ⟨⟨by rintro ⟨⟩, fun hfree => absurd hfree hcycle⟩, ?_⟩
      rintro walk ⟨⟩
      exact ⟨[], rfl, fun n hn => absurd hn not_mem_nil⟩
    · next first rest hfirst =>
      refine ⟨⟨by rintro ⟨⟩, fun hfree => absurd hfree hcycle⟩, ?_⟩
      rintro walk ⟨⟩
      have hmem := (hsort _).mem_iff.mp (hfirst ▸ mem_cons_self (a := first) (l := rest))
      refine ⟨_, rfl, fun n hn => (hleft n).mp (mem_nodesWith_ne.mpr ?_)⟩
      exact mem_cycleWalk (by simp) (mem_nodesWith_ne.mp hmem) n hn

end Graph

section Checks

/-- A batch whose ids are free and whose dependencies exist. -/
structure WellFormed (pool : PendingPool I) (batch : List (TaskInfo I)) : Prop where
  distinct : (batch.map TaskInfo.identity).Nodup
  unknown : ∀ item ∈ batch, ¬ pool.isDuplicate item
  resolved : ∀ item ∈ batch, ∀ dep ∈ item.taskDependsOn, pool.resolves batch dep

variable {pool : PendingPool I} {batch : List (TaskInfo I)}

/-- A batch with different identities repeats none. -/
theorem repeatedInBatch_eq_none {seen : List TaskIdentity}
    (hdistinct : (batch.map TaskInfo.identity).Nodup)
    (hseen : ∀ item ∈ batch, item.identity ∉ seen) : repeatedInBatch seen batch = none := by
  induction batch generalizing seen with
  | nil => rfl
  | cons item batch ih =>
    obtain ⟨hnew, hrest⟩ := nodup_cons.mp hdistinct
    rw [repeatedInBatch, if_neg (hseen item mem_cons_self)]
    refine ih hrest fun other hother hmem => ?_
    rcases mem_cons.mp hmem with heq | hmem
    · exact hnew (heq ▸ mem_map_of_mem hother)
    · exact hseen other (mem_cons_of_mem _ hother) hmem

/-- No dependency is unknown if all resolve. -/
theorem firstUnknownDep_eq_none : pool.firstUnknownDep batch = none ↔
    ∀ item ∈ batch, ∀ dep ∈ item.taskDependsOn, pool.resolves batch dep := by
  simp [firstUnknownDep]

/-- An error about an id or a dependency of a batch. -/
def aboutIds : PendingPoolError → Bool
  | .duplicateTaskId _ | .unknownTaskDep _ _ => true
  | _ => false

/-- A well formed batch is refused for a cycle only, and another one for an id or a dependency. -/
theorem checkBatch_spec (pool : PendingPool I) (batch : List (TaskInfo I)) :
    (pool.WellFormed batch ∧ pool.checkBatch batch = (pool.findCycle batch).map .taskDepCycle) ∨
      ¬ pool.WellFormed batch ∧ ∃ error, pool.checkBatch batch = some error ∧ aboutIds error := by
  unfold checkBatch
  cases hrepeat : repeatedInBatch [] batch with
  | some =>
    refine .inr ⟨fun h => ?_, _, rfl, rfl⟩
    rw [repeatedInBatch_eq_none h.distinct fun _ _ => not_mem_nil] at hrepeat
    cases hrepeat
  | none =>
    cases hfind : batch.find? pool.isDuplicate with
    | some item =>
      refine .inr ⟨fun h => ?_, _, rfl, rfl⟩
      exact h.unknown item (mem_of_find?_eq_some hfind) (find?_some hfind)
    | none =>
      cases hdeps : pool.firstUnknownDep batch with
      | some =>
        refine .inr ⟨fun h => ?_, _, rfl, rfl⟩
        rw [firstUnknownDep_eq_none.mpr h.resolved] at hdeps
        cases hdeps
      | none =>
        exact .inl ⟨⟨(nodup_of_repeatedInBatch hrepeat).1, find?_eq_none.mp hfind,
          firstUnknownDep_eq_none.mp hdeps⟩, rfl⟩

/-- What `extend` does with a well formed batch. -/
theorem WellFormed.extend (h : pool.WellFormed batch) : pool.extend batch =
    match pool.findCycle batch with
    | some walk => .error (.taskDepCycle walk)
    | none => .ok (batch.foldl commitItem pool) := by
  rcases checkBatch_spec pool batch with ⟨-, hcheck⟩ | ⟨hnot, -⟩
  · unfold PendingPool.extend
    rw [hcheck]
    cases pool.findCycle batch <;> rfl
  · exact absurd h hnot

/-- A batch that is not well formed is refused, and not for a cycle. -/
theorem extend_of_not_wellFormed (h : ¬ pool.WellFormed batch) :
    ∃ error, pool.extend batch = .error error ∧ aboutIds error := by
  rcases checkBatch_spec pool batch with ⟨hwell, -⟩ | ⟨-, error, hcheck, habout⟩
  · exact absurd hwell h
  · refine ⟨error, ?_, habout⟩
    unfold PendingPool.extend
    rw [hcheck]

/-- **The checks of a batch are atomic and exact.** A refused batch leaves the pool as it was. A
well formed batch is refused for a cycle exactly if the unresolved dependencies of the blocked
items and the batch have one. The walk that is reported stays on nodes that lie on a cycle or
behind one, which no topological order has a place for. -/
theorem extend_checks_exact (pool : PendingPool I) (batch : List (TaskInfo I)) :
    (∀ error, pool.extend batch = .error error → pool.step (.extend batch) = pool) ∧
      (pool.WellFormed batch → ((∃ walk, pool.extend batch = .error (.taskDepCycle walk)) ↔
        ∃ n, TransGen (Linked (pool.batchEdges batch)) n n)) ∧
      ∀ walk, pool.extend batch = .error (.taskDepCycle walk) → ∃ nodes : List TaskIdentity,
        walk = nodes.map (fun n => (ofLex n).2) ∧
          ∀ n ∈ nodes, Unorderable (pool.batchEdges batch) n := by
  obtain ⟨hnone, hwalk⟩ := findCycle_spec pool batch
  refine ⟨fun error herror => ?_, fun hwell => ?_, fun walk herror => ?_⟩
  · simp only [step, herror]
  · have hcycle : pool.findCycle batch ≠ none ↔
      ∃ n, TransGen (Linked (pool.batchEdges batch)) n n := by
      rw [ne_eq, hnone, not_forall_not]
    rw [hwell.extend, ← hcycle]
    cases pool.findCycle batch <;> simp
  · by_cases hwell : pool.WellFormed batch
    · refine hwalk walk ?_
      rw [hwell.extend] at herror
      cases hfind : pool.findCycle batch with
      | none => simp [hfind] at herror
      | some => simpa [hfind] using herror
    · obtain ⟨error, hrefused, habout⟩ := extend_of_not_wellFormed hwell
      rw [hrefused] at herror
      rw [Except.error.inj herror] at habout
      cases habout

end Checks

end DynRunner.PendingPool
