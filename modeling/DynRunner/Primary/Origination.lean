import DynRunner.ClusterState.Apply

/-!
# Originating mutations

Every mutation that a node originates passes one place before it is applied and broadcast. There
it gets its version, the current attempt of its task, the definition ids of the tasks it
introduces and of their dependencies, and a registration for every task with a per-secondary
cell. What a mutation does is decided by the ledger's apply rule; the descriptors that the rule
resumes are handed back to the originator.
-/

namespace DynRunner

variable {I : Type}

/-- Whether a task of this kind has a cell for each secondary. -/
def TaskKind.hasSecondaryCell : TaskKind → Bool
  | .secondaryAffine | .secondaryEagerPrep => true
  | _ => false

namespace ClusterMutation

/-- `tasks_to_stamp`: the descriptors that a mutation introduces, each with its definition id. -/
def tasksToStamp : ClusterMutation I → List (TaskInfo I × Option TaskDefId)
  | .taskAdded _ task defId => [(task, defId)]
  | .tasksSpawned tasks defIds => tasks.zipIdx.map fun t => (t.1, (defIds[t.2]?).join)
  | _ => []

/-- The mutation with the given descriptors and ids in their place. -/
def withStamped : ClusterMutation I → List (TaskInfo I × Option TaskDefId) → ClusterMutation I
  | .taskAdded hash _ _, [(task, defId)] => .taskAdded hash task defId
  | .tasksSpawned _ _, stamped => .tasksSpawned (stamped.map Prod.fst) (stamped.map Prod.snd)
  | m, _ => m

end ClusterMutation

/-- A node that originates mutations: its replica, and the sequence number it gave last to each
task. -/
structure Originator (I : Type) where
  cluster : ClusterState I
  taskSeq : HashMap String ℕ

namespace Originator

/-- `next_task_version`. -/
def nextTaskVersion (o : Originator I) (hash : TaskHash) : TaskVersion × Originator I :=
  let seq := (o.taskSeq.lookup hash).getD 0 + 1
  (⟨o.cluster.control.primaryEpoch, seq⟩, { o with taskSeq := o.taskSeq.insert hash seq })

/-- The attempt of a task, fat or settled. -/
def currentAttempt (o : Originator I) (hash : TaskHash) : ℕ :=
  match o.cluster.tasks.lookup hash with
  | some st => st.attempt
  | none => ((o.cluster.settledEntry hash).map fun entry => entry.joinKey.attempt).getD 0

/-- Stamp one mutation. A retry brings its own attempt. -/
def stampVersion (o : Originator I) : ClusterMutation I → ClusterMutation I × Originator I
  | .taskAssigned hash secondary worker _ _ =>
    let (version, o') := o.nextTaskVersion hash
    (.taskAssigned hash secondary worker version (o.currentAttempt hash), o')
  | .taskFailed hash kind error _ _ =>
    let (version, o') := o.nextTaskVersion hash
    (.taskFailed hash kind error version (o.currentAttempt hash), o')
  | .taskPreferredSecondariesUpdated hash secondaries _ =>
    let (version, o) := o.nextTaskVersion hash
    (.taskPreferredSecondariesUpdated hash secondaries version, o)
  | .taskReinjected hash _ =>
    let (version, o) := o.nextTaskVersion hash
    (.taskReinjected hash version, o)
  | .taskRequeued hash _ =>
    let (version, o) := o.nextTaskVersion hash
    (.taskRequeued hash version, o)
  | .taskRetried hash attempt _ =>
    let (version, o) := o.nextTaskVersion hash
    (.taskRetried hash attempt version, o)
  | .taskCompleted hash resultData _ =>
    (.taskCompleted hash resultData (o.currentAttempt hash), o)
  | m => (m, o)

/-- `stamp_versions`. -/
def stampVersions : Originator I → List (ClusterMutation I) →
    List (ClusterMutation I) × Originator I
  | o, [] => ([], o)
  | o, m :: ms =>
    let (m, o) := o.stampVersion m
    let (ms, o) := o.stampVersions ms
    (m :: ms, o)

section DefIds

variable [DefaultHasher] [Identifier I]

/-- The definition ids of a batch by identity. -/
abbrev BatchIds := HashMap (PhaseId × String) TaskDefId

/-- Reserve an id for every descriptor that has none. -/
def reserveDefIds : Originator I → BatchIds → List (TaskInfo I × Option TaskDefId) →
    List (TaskInfo I × Option TaskDefId) × Originator I × BatchIds
  | o, ids, [] => ([], o, ids)
  | o, ids, (task, defId) :: entries =>
    let (id, o) := match defId with
      | some existing => (existing, o)
      | none =>
        let (id, defs) := o.cluster.definitions.allocForHash (computeTaskHash task)
        (id, { o with cluster := { o.cluster with definitions := defs } })
    let (entries, o, ids) := o.reserveDefIds (ids.insert (task.phaseId, task.taskId) id) entries
    ((task, some id) :: entries, o, ids)

/-- First pass of `stamp_def_ids`: the ids of the tasks themselves. -/
def stampTaskIds : Originator I → BatchIds → List (ClusterMutation I) →
    List (ClusterMutation I) × Originator I × BatchIds
  | o, ids, [] => ([], o, ids)
  | o, ids, m :: ms =>
    let (entries, o, ids) := o.reserveDefIds ids m.tasksToStamp
    let (ms, o, ids) := o.stampTaskIds ids ms
    (m.withStamped entries :: ms, o, ids)

/-- Give a dependency the id of its prerequisite: of the batch first, then of the store. -/
def stampDep (o : Originator I) (ids : BatchIds) (dep : TaskDep) : TaskDep :=
  { dep with
    defId := dep.defId.or ((ids.lookup (dep.phaseId, dep.taskId)).or
      (o.cluster.definitions.idForIdentity dep.phaseId dep.taskId)) }

/-- Second pass of `stamp_def_ids`: the ids of the dependencies. -/
def stampDeps (o : Originator I) (ids : BatchIds) (m : ClusterMutation I) : ClusterMutation I :=
  m.withStamped (m.tasksToStamp.map fun entry =>
    ({ entry.1 with taskDependsOn := entry.1.taskDependsOn.map (o.stampDep ids) }, entry.2))

/-- `stamp_def_ids`. -/
def stampDefIds (o : Originator I) (ms : List (ClusterMutation I)) :
    List (ClusterMutation I) × Originator I :=
  let (ms, o, ids) := o.stampTaskIds ∅ ms
  (ms.map (o.stampDeps ids), o)

/-- `inject_cell_registrations`: the registrations that go with the added tasks. -/
def cellRegistrations : Originator I → List (ClusterMutation I) →
    List (ClusterMutation I) × Originator I
  | o, [] => ([], o)
  | o, .taskAdded hash task _ :: ms =>
    if task.kind.hasSecondaryCell then
      let (cellId, defs) := o.cluster.definitions.allocForCellHash hash
      let (registrations, o) :=
        cellRegistrations { o with cluster := { o.cluster with definitions := defs } } ms
      (.secondaryCellRegistered hash cellId :: registrations, o)
    else o.cellRegistrations ms
  | o, _ :: ms => o.cellRegistrations ms

/-- All passes over a batch, in their order. -/
def stamp (o : Originator I) (ms : List (ClusterMutation I)) :
    List (ClusterMutation I) × Originator I :=
  let (ms, o) := o.stampVersions ms
  let (ms, o) := o.stampDefIds ms
  let (registrations, o) := o.cellRegistrations ms
  (ms ++ registrations, o)

end DefIds

/-- What applying a batch returns: the node, the mutations that changed something, and the
descriptors that were resumed. -/
structure AppliedBatch (I : Type) where
  originator : Originator I
  applied : List (ClusterMutation I)
  resumedForDispatch : List (TaskInfo I)

variable [DefaultHasher] [Identifier I] [RecordCodec I] [DonePayloadCodec]

/-- Apply one stamped mutation. -/
def applyStamped (acc : AppliedBatch I) (m : ClusterMutation I) : AppliedBatch I :=
  let result := acc.originator.cluster.apply m
  { originator := { acc.originator with cluster := result.state }
    applied := if result.outcome = .applied then acc.applied ++ [m] else acc.applied
    resumedForDispatch := acc.resumedForDispatch ++ result.resumed }

/-- `apply_locally_for_broadcast`. -/
def applyLocallyForBroadcast (o : Originator I) (ms : List (ClusterMutation I)) : AppliedBatch I :=
  let (ms, o) := o.stamp ms
  ms.foldl applyStamped ⟨o, [], []⟩

end Originator

end DynRunner
