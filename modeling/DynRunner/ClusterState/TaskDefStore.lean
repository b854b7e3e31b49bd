import DynRunner.Lib.HashMap
import DynRunner.Core.Task

/-!
# The frozen task-definition store

The immutable core of every task descriptor, interned by content hash under a
compact id. A primary places a definition at the id it put on the wire; a node
without a wire id mints a local one. Ids are natural numbers here: the 32-bit
allocator never wraps in a run that fits in memory.
-/

namespace DynRunner

abbrev TaskDefId := ℕ

abbrev SecondaryCellId := ℕ

/-- The id of a definition that no store has stamped yet (`u32::MAX`). -/
def TaskDefId.unbound : TaskDefId := 4294967295

/-- A dependency edge of a frozen definition. -/
structure TaskDepRef where
  defId : TaskDefId
  inheritOutputs : Bool
  deriving DecidableEq, Repr

/-- The frozen core of a `TaskInfo`, carrying its own ids so that a snapshot of a
task is self-describing. -/
structure FrozenTaskDef (I : Type) where
  defId : TaskDefId
  affineId : Option SecondaryCellId
  path : String
  identifier : I
  phaseId : PhaseId
  typeId : String
  kind : TaskKind
  affinityId : Option String
  taskId : String
  taskDependsOn : List TaskDepRef
  deriving DecidableEq, Repr

/-- The mutable tail of a `TaskInfo`. -/
structure TaskRouting where
  preferredSecondaries : List String
  preferredVersion : TaskVersion
  resolvedPath : Option String
  deriving DecidableEq, Repr

/-- Why a wire-carried id was refused. -/
inductive DefBijectionError
  | hashRebound (hash : TaskHash) (existing wire : TaskDefId)
  | idRebound (id : TaskDefId)
  deriving DecidableEq, Repr

variable {I : Type}

/-- Split a descriptor into its frozen core, its routing tail and its string
dependencies. The core is not interned and carries no dependency yet. -/
def FrozenTaskDef.fromTaskInfo (t : TaskInfo I) : FrozenTaskDef I × TaskRouting × List TaskDep :=
  ({ defId := TaskDefId.unbound, affineId := none, path := t.path, identifier := t.identifier,
     phaseId := t.phaseId, typeId := t.typeId, kind := t.kind, affinityId := t.affinityId,
     taskId := t.taskId, taskDependsOn := [] },
  { preferredSecondaries := t.preferredSecondaries, preferredVersion := t.preferredVersion,
     resolvedPath := t.resolvedPath },
   t.taskDependsOn)

/-- Rebuild a descriptor from a frozen core, a routing tail and resolved dependencies. -/
def FrozenTaskDef.toTaskInfo (d : FrozenTaskDef I) (routing : TaskRouting)
    (deps : List TaskDep) : TaskInfo I :=
  { path := d.path, identifier := d.identifier, phaseId := d.phaseId, typeId := d.typeId,
    kind := d.kind, affinityId := d.affinityId, taskId := d.taskId, taskDependsOn := deps,
    preferredSecondaries := routing.preferredSecondaries,
    preferredVersion := routing.preferredVersion, resolvedPath := routing.resolvedPath }

/-- The registry of frozen definitions. `defs` maps an occupied slot to its
definition. -/
structure TaskDefStore (I : Type) where
  /-- The definitions, by id. -/
  defs : HashMap TaskDefId (FrozenTaskDef I)
  /-- The id that a content hash is bound to. -/
  hashToId : HashMap TaskHash TaskDefId
  /-- The next id that has not been given. -/
  nextId : ℕ
  /-- The id of a task in its phase. -/
  identityToId : HashMap (PhaseId × String) TaskDefId
  /-- The first id that a bare task id was bound to. -/
  taskIdToId : HashMap String TaskDefId
  /-- The cell that a content hash is bound to. -/
  cellHashToId : HashMap TaskHash SecondaryCellId
  /-- The cells that are reserved for a hash. -/
  cellIdReserved : HashMap TaskHash SecondaryCellId
  /-- The content hash behind a cell. -/
  cellIdToHash : HashMap SecondaryCellId TaskHash
  /-- The next cell that has not been given. -/
  nextCellId : ℕ

namespace TaskDefStore

/-- The empty store. -/
def empty : TaskDefStore I := ⟨∅, ∅, 0, ∅, ∅, ∅, ∅, ∅, 0⟩

variable (s : TaskDefStore I)

/-- The definition in a slot. -/
def resolve (id : TaskDefId) : Option (FrozenTaskDef I) := s.defs.lookup id

/-- `entry(key).or_insert(value)`. -/
def orInsert {K V : Type} [DecidableEq K] (m : HashMap K V) (key : K) (value : V) : HashMap K V :=
  if key ∈ m then m else m.insert key value

/-- Fill a slot, registering the definition's identity; the first binding of an
identity stays. -/
def putSlot (id : TaskDefId) (frozen : FrozenTaskDef I) : TaskDefStore I :=
  { s with
    identityToId := orInsert s.identityToId (frozen.phaseId, frozen.taskId) id
    taskIdToId := orInsert s.taskIdToId frozen.taskId id
    defs := s.defs.insert id frozen
    nextId := max s.nextId (id + 1) }

/-- The id of a `(phase, task)` identity, falling back to the task id alone. -/
def idForIdentity (phaseId : PhaseId) (taskId : String) : Option TaskDefId :=
  (s.identityToId.lookup (phaseId, taskId)).or (s.taskIdToId.lookup taskId)

/-- Mint the next local id. -/
def alloc : TaskDefId × TaskDefStore I :=
  (s.nextId, { s with nextId := s.nextId + 1 })

/-- Intern by content, reporting whether a slot was filled. -/
def internReportingPlacement (hash : TaskHash) (frozen : FrozenTaskDef I) :
    (TaskDefId × Bool) × TaskDefStore I :=
  match s.hashToId.lookup hash with
  | some existing => ((existing, false), s)
  | none =>
    let (id, s) := s.alloc
    let s := s.putSlot id frozen
    ((id, true), { s with hashToId := s.hashToId.insert hash id })

/-- Intern by content. -/
def intern (hash : TaskHash) (frozen : FrozenTaskDef I) : TaskDefStore I :=
  (s.internReportingPlacement hash frozen).2

/-- Reserve an id for a hash before its definition is placed. -/
def allocForHash (hash : TaskHash) : TaskDefId × TaskDefStore I :=
  match s.hashToId.lookup hash with
  | some existing => (existing, s)
  | none =>
    let (id, s) := s.alloc
    (id, { s with hashToId := s.hashToId.insert hash id })

/-- Place a definition at a wire-carried id, enforcing the hash-id bijection. -/
def internAt (id : TaskDefId) (hash : TaskHash) (frozen : FrozenTaskDef I) :
    Except DefBijectionError (TaskDefId × TaskDefStore I) :=
  match s.hashToId.lookup hash with
  | some existing =>
    if existing ≠ id then .error (.hashRebound hash existing id)
    else match s.resolve existing with
      | none => .ok (existing, s.putSlot existing { frozen with defId := existing })
      | some _ => .ok (existing, s)
  | none =>
    match s.resolve id with
    | some _ => .error (.idRebound id)
    | none =>
      let s := s.putSlot id { frozen with defId := id }
      .ok (id, { s with hashToId := s.hashToId.insert hash id })

/-- Set the dependency edges of a filled slot. -/
def fillDepRefs (id : TaskDefId) (refs : List TaskDepRef) : TaskDefStore I :=
  match s.defs.lookup id with
  | some d => { s with defs := s.defs.insert id { d with taskDependsOn := refs } }
  | none => s

/-- Turn string dependencies into edges: the stamped id first, then the identity. -/
def depRefsFromDeps (deps : List TaskDep) : List TaskDepRef :=
  deps.map fun dep =>
    { defId := ((dep.defId).or (s.idForIdentity dep.phaseId dep.taskId)).getD TaskDefId.unbound
      inheritOutputs := dep.inheritOutputs }

/-- Rebuild string dependencies from edges; an edge that resolves nowhere keeps an
empty identity. -/
def resolveDepRefsWithFallback (refs : List TaskDepRef)
    (fallback : TaskDefId → Option (PhaseId × String)) : List TaskDep :=
  refs.map fun r =>
    match ((s.resolve r.defId).map fun d => (d.phaseId, d.taskId)).or (fallback r.defId) with
    | some (phaseId, taskId) => ⟨taskId, phaseId, r.inheritOutputs, none⟩
    | none => ⟨"", "", r.inheritOutputs, none⟩

/-- Re-anchor the local allocator past every id below `floor`. -/
def resumeAllocFloor (floor : ℕ) : TaskDefStore I :=
  { s with nextId := max s.nextId floor }

/-- Reserve a cell id for a hash before its registration is applied. -/
def allocForCellHash (hash : TaskHash) : SecondaryCellId × TaskDefStore I :=
  match s.cellHashToId.lookup hash with
  | some committed => (committed, s)
  | none =>
    match s.cellIdReserved.lookup hash with
    | some reserved => (reserved, s)
    | none =>
      (s.nextCellId, { s with
        nextCellId := s.nextCellId + 1
        cellIdReserved := s.cellIdReserved.insert hash s.nextCellId })

/-- Commit a wire-carried cell id, enforcing the hash-cell bijection. -/
def internCellAt (id : SecondaryCellId) (hash : TaskHash) :
    Except DefBijectionError (TaskDefStore I) :=
  match s.cellHashToId.lookup hash with
  | some existing =>
    if existing ≠ id then .error (.hashRebound hash existing id) else .ok s
  | none =>
    if id ∈ s.cellIdToHash then .error (.idRebound id)
    else .ok { s with
      cellHashToId := s.cellHashToId.insert hash id
      cellIdToHash := s.cellIdToHash.insert id hash
      cellIdReserved := s.cellIdReserved.erase hash
      nextCellId := max s.nextCellId (id + 1) }

end TaskDefStore

end DynRunner
