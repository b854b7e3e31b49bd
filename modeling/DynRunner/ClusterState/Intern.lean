import DynRunner.ClusterState.Settled

/-!
# Interning task definitions into the ledger

A new entry first places its frozen definition: at the id the wire carries, or at a
local id when there is none or when that id belongs to a settled task. A definition
that contradicts an established binding is dropped, and the entry with it.
-/

namespace DynRunner

variable {I : Type}

/-- `intern_task_def` on the store alone: place by content, then resolve the string
dependencies. `none` is the failed `expect` on a hash that is reserved but not
placed. -/
def TaskDefStore.internTaskDef (defs : TaskDefStore I) (hash : TaskHash) (task : TaskInfo I) :
    TaskDefStore I × Option (FrozenTaskDef I × TaskRouting) :=
  let (frozen, routing, deps) := FrozenTaskDef.fromTaskInfo task
  let ((id, placed), defs) := defs.internReportingPlacement hash frozen
  let defs := if placed then defs.fillDepRefs id (defs.depRefsFromDeps deps) else defs
  (defs, (defs.resolve id).map fun d => (d, routing))

/-- Place a definition at a wire id, then resolve its dependencies on a fresh placement. -/
def TaskDefStore.internTaskDefAtWire (defs : TaskDefStore I) (wire : TaskDefId) (hash : TaskHash)
    (task : TaskInfo I) : TaskDefStore I × Option (FrozenTaskDef I × TaskRouting) :=
  let (frozen, routing, deps) := FrozenTaskDef.fromTaskInfo task
  let fresh := (defs.resolve wire).isNone
  match defs.internAt wire hash frozen with
  | .error _ => (defs, none)
  | .ok (id, placedDefs) =>
    let placedDefs := if fresh then
        placedDefs.fillDepRefs id (placedDefs.depRefsFromDeps deps)
      else placedDefs
    (placedDefs, (placedDefs.resolve id).map fun d => (d, routing))

/-- `reanchor_restored_affine_id`: keep the cell binding a restored definition carries. -/
def TaskDefStore.reanchorRestoredAffineId (defs : TaskDefStore I) (hash : TaskHash)
    (d : FrozenTaskDef I) : TaskDefStore I :=
  match d.affineId with
  | none => defs
  | some affineId =>
    match defs.internCellAt affineId hash with
    | .ok anchored => anchored
    | .error _ => defs

namespace ClusterState

variable (s : ClusterState I)

/-- `intern_task_def_at`. -/
def internTaskDefAt (defId : Option TaskDefId) (hash : TaskHash)
    (task : TaskInfo I) : ClusterState I × Option (FrozenTaskDef I × TaskRouting) :=
  let (defs, placed) := match defId with
    | none => s.definitions.internTaskDef hash task
    | some wire =>
      -- A wire id held by a settled task is invisible to the slot check.
      if s.settled.isDefIdSettled wire then s.definitions.internTaskDef hash task
      else s.definitions.internTaskDefAtWire wire hash task
  ({ s with definitions := defs }, placed)

/-- `register_restored_def`: re-anchor the definition of a restored entry at the id it
carries, by content when that id is missing or taken. -/
def registerRestoredDef (hash : TaskHash) (d : FrozenTaskDef I) : ClusterState I :=
  let defs :=
    if d.defId = TaskDefId.unbound ∨ s.settled.isDefIdSettled d.defId = true then
      s.definitions.intern hash d
    else match s.definitions.internAt d.defId hash d with
      | .ok (_, defs) => defs
      | .error _ => s.definitions.intern hash d
  { s with definitions := defs.reanchorRestoredAffineId hash d }

/-- `resume_def_alloc_floor`: keep the local allocator above every id in use. -/
def resumeDefAllocFloor : ClusterState I :=
  let settledFloor := (s.settled.maxDefId.map (· + 1)).getD 0
  { s with definitions := s.definitions.resumeAllocFloor (max s.definitions.nextId settledFloor) }

/-- Agreement of two states on everything but the definition store. -/
def SameButDefinitions (s t : ClusterState I) : Prop :=
  t = { s with definitions := t.definitions }

/-- A new task changes the definitions and nothing else. -/
theorem internTaskDefAt_same (defId : Option TaskDefId) (hash : TaskHash)
    (task : TaskInfo I) : s.SameButDefinitions (s.internTaskDefAt defId hash task).1 := rfl

/-- Resuming the floor changes the definitions and nothing else. -/
theorem resumeDefAllocFloor_same : s.SameButDefinitions s.resumeDefAllocFloor := rfl

/-- A restored definition changes the definitions and nothing else. -/
theorem registerRestoredDef_same (hash : TaskHash) (d : FrozenTaskDef I) :
    s.SameButDefinitions (s.registerRestoredDef hash d) := rfl

end ClusterState

end DynRunner
