import DynRunner.Pool.Drain

/-!
# Extending the pool

A batch is checked as a whole before anything of it enters the pool: no identity twice, none that
the pool knows, every dependency known, and no cycle among the blocked items and the batch. Then
each item is committed: it is recorded as failed if a dependency has failed, queued if nothing is
left to wait for, and blocked otherwise. Identity in the checks is the phase and the id; the maps
that a committed item enters are keyed by the id alone.
-/

namespace DynRunner.PendingPool

variable {I : Type} (pool : PendingPool I)

/-- Every task id that the pool knows, in whatever way. -/
def collectKnownTaskIds : Finset String :=
  (pool.queued.map TaskInfo.taskId).toFinset ∪ pool.blocked.keys.toFinset ∪
    pool.completedTasks ∪ pool.failedTasks ∪ pool.softFailed.keys.toFinset ∪
    pool.dormantTasks ∪ pool.inFlightTasks

/-- The identities of the queued and the blocked items. -/
def collectKnownPhaseTaskIds : List TaskIdentity :=
  pool.queued.map TaskInfo.identity ++ pool.blocked.entries.map fun e => e.2.identity

/-- The first item whose identity an earlier item of the batch has. -/
def repeatedInBatch (seen : List TaskIdentity) : List (TaskInfo I) → Option (TaskInfo I)
  | [] => none
  | item :: items =>
    if item.identity ∈ seen then some item
    else repeatedInBatch (item.identity :: seen) items

/-- Whether the pool already has the identity of an item, or its id in any phase. -/
def isDuplicate (item : TaskInfo I) : Bool :=
  item.identity ∈ pool.collectKnownPhaseTaskIds || item.taskId ∈ pool.collectKnownTaskIds

/-- Whether a dependency of the batch names a task that exists. -/
def resolves (batch : List (TaskInfo I)) (dep : TaskDep) : Bool :=
  dep.identity ∈ pool.collectKnownPhaseTaskIds || dep.identity ∈ batch.map TaskInfo.identity ||
    dep.taskId ∈ pool.collectKnownTaskIds

/-- The first dependency that does not resolve, with the id of the item that declares it. -/
def firstUnknownDep (batch : List (TaskInfo I)) : Option (TaskDep × String) :=
  batch.findSome? fun item =>
    (item.taskDependsOn.find? fun dep => !pool.resolves batch dep).map (·, item.taskId)

/-- The graph that the cycle check walks: the parent count of each node and its children. -/
structure DependencyGraph where
  indegree : HashMap TaskIdentity ℕ
  childrenOf : ReverseIndex TaskIdentity

namespace DependencyGraph

/-- Make sure that a node has a count. -/
def touch (g : DependencyGraph) (node : TaskIdentity) : DependencyGraph :=
  if node ∈ g.indegree then g else { g with indegree := g.indegree.insert node 0 }

/-- Add the node of an item and an edge from each dependency that is not resolved yet. -/
def addEdges (preResolved : String → Bool) (g : DependencyGraph) (item : TaskInfo I) :
    DependencyGraph :=
  let node := item.identity
  (item.taskDependsOn.filter fun dep => !preResolved dep.taskId).foldl (fun g dep =>
    DependencyGraph.touch
      { indegree := g.indegree.insert node ((g.indegree.lookup node).getD 0 + 1)
        childrenOf := g.childrenOf.push dep.identity node } dep.identity)
    (g.touch node)

/-- Follow the smallest child that could not be ordered, until a node repeats or none is left. -/
def cycleWalk (g : DependencyGraph) (residual : HashMap TaskIdentity ℕ) :
    ℕ → List TaskIdentity → TaskIdentity → List TaskIdentity
  | 0, seen, _ => seen
  | rounds + 1, seen, cur =>
    if cur ∈ seen then seen
    else
      let next := (((g.childrenOf.lookup cur).getD []).filter fun c =>
        (residual.lookup c).getD 0 ≠ 0).min?
      match next with
      | none => seen ++ [cur]
      | some n => g.cycleWalk residual rounds (seen ++ [cur]) n

end DependencyGraph

variable (pool : PendingPool I)

/-- The graph of the blocked items and the batch. -/
def dependencyGraph (batch : List (TaskInfo I)) : DependencyGraph :=
  let preResolved := fun id => decide (id ∈ pool.completedTasks ∨ id ∈ pool.failedTasks)
  batch.foldl (DependencyGraph.addEdges preResolved)
    (pool.blocked.entries.foldl (fun g e => g.addEdges preResolved e.2) ⟨∅, ∅⟩)

/-- The ids of a walk along a cycle, if the graph has one. -/
def findCycle (batch : List (TaskInfo I)) : Option (List String) :=
  let g := pool.dependencyGraph batch
  let size := g.indegree.keys.length
  let sort := List.insertionSort (α := TaskIdentity) (· ≤ ·)
  let (visited, residual) :=
    topologicalWalk g.childrenOf sort size (sort (nodesWith (· = 0) g.indegree)) g.indegree
  if visited = size then none
  else
    match sort (nodesWith (· ≠ 0) residual) with
    | [] => some []
    | first :: _ =>
      some ((g.cycleWalk residual (size + 1) [] first).map fun node => (ofLex node).2)

/-- What is wrong with a batch, if anything. -/
def checkBatch (batch : List (TaskInfo I)) : Option PendingPoolError :=
  match repeatedInBatch [] batch with
  | some item => some (.duplicateTaskId item.taskId)
  | none =>
    match batch.find? pool.isDuplicate with
    | some item => some (.duplicateTaskId item.taskId)
    | none =>
      match pool.firstUnknownDep batch with
      | some (dep, referencedBy) => some (.unknownTaskDep dep.taskId referencedBy)
      | none => (pool.findCycle batch).map .taskDepCycle

variable (item : TaskInfo I)

/-- The declared dependencies of an item that are neither completed nor affine. -/
def unresolvedDeps : List String :=
  ((item.taskDependsOn.map TaskDep.taskId).filter fun id =>
    id ∉ pool.completedTasks ∧ id ∉ pool.affinePrereqIds).dedup

/-- Whether a dependency of an item has failed for good. -/
def anyFailedDep : Bool :=
  item.taskDependsOn.any fun dep => dep.taskId ∈ pool.failedTasks

/-- Register an item as waiting for the given tasks. -/
def block (unresolved : List String) : PendingPool I :=
  { pool with
    dependentsOf := pool.dependentsOf.link unresolved item.taskId
    taskDeps := pool.taskDeps.insert item.taskId unresolved
    blockedPerPhase := pool.blockedPerPhase.insert item.phaseId
      ((pool.blockedPerPhase.lookup item.phaseId).getD 0 + 1)
    blocked := pool.blocked.insert item.taskId item }

/-- Route one item: to the failed set, to its bucket, or to the blocked map. -/
def commitItem : PendingPool I :=
  if pool.anyFailedDep item then
    { pool with failedTasks := insert item.taskId pool.failedTasks }
  else
    match pool.unresolvedDeps item with
    | [] => pool.pushBack item
    | unresolved => pool.block item unresolved

/-- Check a batch, then commit its items one after the other. -/
def extend (batch : List (TaskInfo I)) : Except PendingPoolError (PendingPool I) :=
  match pool.checkBatch batch with
  | some error => .error error
  | none => .ok (batch.foldl commitItem pool)

end DynRunner.PendingPool
