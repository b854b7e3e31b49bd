import DynRunner.ClusterState.Merge
import DynRunner.ClusterState.Custom

/-!
# Applying cluster mutations

The apply rule of every mutation that touches the task ledger, the custom messages
or the control registers. Assignments, completions and failures go through the join;
the other task mutations rewrite an entry in the states they name and are ignored in
all others.
-/

namespace DynRunner

variable {I : Type}

/-- Mutations of the control registers. -/
inductive ControlMutation
  | primaryChanged (new : String) (epoch : ℕ)
  | phaseDepsSet (deps : List (PhaseId × List PhaseId))
  | phaseMayBeEmptySet (phases : List PhaseId)
  | phaseNoBarrierSet (phases : List PhaseId)
  | respawnPolicySet (maxPerSecondary maxTotal cooldownMs : ℕ)
  | runComplete
  | runAborted (reason : String)
  | gracefulAbortRequested
  | windDownRequested (secondaryId : String) (memberGen : ℕ)
  | discoveryDebtDeclared
  | discoverySettled
  | phaseEnded (phase : PhaseId)
  deriving DecidableEq, Repr

/-- The replicated mutations. Membership and per-secondary cell writes touch no part
of the state modelled here. -/
inductive ClusterMutation (I : Type)
  | taskAdded (hash : TaskHash) (task : TaskInfo I) (defId : Option TaskDefId)
  | taskAssigned (hash : TaskHash) (secondary : String) (worker : ℕ) (version : TaskVersion)
      (attempt : ℕ)
  | taskCompleted (hash : TaskHash) (resultData : Option (List ℕ)) (attempt : ℕ)
  | taskFailed (hash : TaskHash) (kind : ErrorType) (error : String) (version : TaskVersion)
      (attempt : ℕ)
  | taskReinjected (hash : TaskHash) (version : TaskVersion)
  | taskRequeued (hash : TaskHash) (version : TaskVersion)
  | taskRetried (hash : TaskHash) (attempt : ℕ) (version : TaskVersion)
  | taskBlocked (hash on : TaskHash)
  | taskSkippedAlreadyDone (hash : TaskHash)
  | setupCompleted (hash : TaskHash)
  | taskPreferredSecondariesUpdated (hash : TaskHash) (secondaries : List String)
      (version : TaskVersion)
  | tasksSpawned (tasks : List (TaskInfo I)) (defIds : List (Option TaskDefId))
  | secondaryCellRegistered (hash : TaskHash) (cellId : SecondaryCellId)
  | customMessagePosted (origin : String) (seq : ℕ) (topic : String) (data : List ℕ)
      (isHighVolume : Bool)
  | customMessageHandled (origin : String) (seq : ℕ)
  | customMessageFailed (origin : String) (seq : ℕ)
  | control (m : ControlMutation)
  deriving DecidableEq, Repr

/-- Decoding of the worker's done payload (a JSON document). -/
class DonePayloadCodec where
  decode : List ℕ → Option TaskOutputs

namespace Sample

/-- A decoder to run the model with; it accepts no payload. -/
scoped instance refusingDecoder : DonePayloadCodec := ⟨fun _ => none⟩

end Sample

/-- `decode_done_payload_outputs`: a malformed payload counts as empty outputs. -/
def decodeDonePayloadOutputs [DonePayloadCodec] (resultData : Option (List ℕ)) :
    Option TaskOutputs :=
  resultData.map fun bytes => (DonePayloadCodec.decode bytes).getD []

/-- `primary_register_adopt`: a higher epoch, or the lower id at the same epoch. -/
def primaryRegisterAdopt (localEpoch : ℕ) (localId : Option String) (incEpoch : ℕ)
    (incId : String) : Bool :=
  if localEpoch < incEpoch then true
  else if incEpoch < localEpoch then false
  else match localId with
    | none => true
    | some current => decide (incId < current)

/-- Set a register that may be written once. -/
def setOnce {α : Type} (current incoming : List α) : List α × ApplyOutcome :=
  if current.isEmpty && !incoming.isEmpty then (incoming, .applied) else (current, .noOp)

/-- The control mutations other than the primary register. -/
def Control.apply (c : Control) : ControlMutation → Control × ApplyOutcome
  | .primaryChanged new epoch =>
    if primaryRegisterAdopt c.primaryEpoch c.currentPrimary epoch new then
      ({ c with currentPrimary := some new, primaryEpoch := epoch }, .applied)
    else (c, .noOp)
  | .phaseDepsSet deps =>
    if c.phaseDeps.isEmpty then ({ c with phaseDeps := deps }, .applied) else (c, .noOp)
  | .phaseMayBeEmptySet phases =>
    let (phases, outcome) := setOnce c.phaseMayBeEmpty phases
    ({ c with phaseMayBeEmpty := phases }, outcome)
  | .phaseNoBarrierSet phases =>
    let (phases, outcome) := setOnce c.phaseNoBarrier phases
    ({ c with phaseNoBarrier := phases }, outcome)
  | .respawnPolicySet maxPerSecondary maxTotal cooldownMs =>
    match c.respawnPolicy with
    | some _ => (c, .noOp)
    | none => ({ c with respawnPolicy := some (maxPerSecondary, maxTotal, cooldownMs) }, .applied)
  | .runComplete =>
    if c.runComplete then (c, .noOp) else ({ c with runComplete := true }, .applied)
  | .runAborted reason =>
    match c.runAborted with
    | some _ => (c, .noOp)
    | none => ({ c with runAborted := some reason }, .applied)
  | .gracefulAbortRequested =>
    if c.gracefulAbortRequested then (c, .noOp)
    else ({ c with gracefulAbortRequested := true }, .applied)
  | .windDownRequested secondaryId memberGen =>
    if (secondaryId, memberGen) ∈ c.windDownRequested then (c, .noOp)
    else ({ c with windDownRequested := (secondaryId, memberGen) :: c.windDownRequested }, .applied)
  | .discoveryDebtDeclared =>
    if c.discoveryDebt ≠ .undeclared then (c, .noOp)
    else ({ c with discoveryDebt := .owed }, .applied)
  | .discoverySettled =>
    if c.discoveryDebt = .settled then (c, .noOp)
    else ({ c with discoveryDebt := .settled }, .applied)
  | .phaseEnded phase =>
    if phase ∈ c.phasesEnded then (c, .noOp)
    else ({ c with phasesEnded := phase :: c.phasesEnded }, .applied)

/-- What an apply returns: the state, the outcome, the descriptors it resumed and the
spawned descriptors it surfaced as pending. -/
structure ApplyResult (I : Type) where
  /-- The state afterwards. -/
  state : ClusterState I
  /-- Whether the mutation changed anything. -/
  outcome : ApplyOutcome
  /-- The tasks that were paused and may go on. -/
  resumed : List (TaskInfo I)
  /-- The tasks that are new and may be dispatched. -/
  newlyPending : List (TaskInfo I)

/-- How a dependency counts at spawn time. -/
inductive DepVerdict
  | resolved
  | cascadeFail
  | unfulfillable
  | unresolved
  deriving DecidableEq, Repr

/-- The verdict on a settled dependency. -/
def SettledClass.depVerdict : SettledClass → DepVerdict
  | .completed | .skippedAlreadyDone | .setupCompleted => .resolved
  | .invalidTask | .failedFinal .nonRecoverable => .cascadeFail
  | .failedFinal _ => .unresolved

/-- The verdict on a fat dependency. -/
def TaskStatus.depVerdict : TaskStatus → DepVerdict
  | .failed .nonRecoverable _ _ | .invalidTask .. => .cascadeFail
  | .failed .. => .unresolved
  | .unfulfillable .. => .unfulfillable
  | .completed | .skippedAlreadyDone | .setupCompleted => .resolved
  | .pending .. | .inFlight .. | .blocked .. => .unresolved

/-- How a spawned task enters the ledger. -/
inductive SpawnClass
  | cascadeFail
  | blockedOn (on : TaskHash)
  | pending
  deriving DecidableEq, Repr

/-- The initial state variant of a spawned task. -/
def SpawnClass.status : SpawnClass → TaskStatus
  | .cascadeFail => .failed .nonRecoverable "upstream-failed" .default
  | .blockedOn on => .blocked on
  | .pending => .pending .default

/-- Whether an entry carries the given identity. -/
def TaskState.hasIdentity (state : TaskState I) (phaseId : PhaseId) (taskId : String) : Bool :=
  state.definition.taskId = taskId && state.definition.phaseId = phaseId

@[inherit_doc TaskState.hasIdentity]
def SettledEntry.hasIdentity (entry : SettledEntry I) (phaseId : PhaseId) (taskId : String) :
    Bool :=
  entry.taskId = taskId && entry.phaseId = phaseId

namespace ClusterState

/-- `task_hash_for_dep`: the first fat entry with the identity, else the first settled one. -/
def taskHashForDep (s : ClusterState I) (phaseId : PhaseId) (taskId : String) :
    Option TaskHash :=
  ((s.tasks.entries.find? fun e => e.2.hasIdentity phaseId taskId).map (·.1)).or
    ((s.settled.index.entries.find? fun e => e.2.hasIdentity phaseId taskId).map (·.1))

/-- How a dependency that names a ledger hash counts for a task being spawned. -/
def depVerdict (s : ClusterState I) (depHash : TaskHash) : DepVerdict :=
  match s.settledEntry depHash with
  | some entry => entry.settledClass.depVerdict
  | none => match s.tasks.lookup depHash with
    | some state => state.status.depVerdict
    | none => .resolved

/-- The dependency loop of `apply_tasks_spawned`. A permanently failed dependency ends
it; otherwise the first unfulfillable and the first unresolved one are remembered,
and the former takes precedence. -/
def classifyDeps (s : ClusterState I) :
    List TaskDep → Option TaskHash → Option TaskHash → SpawnClass
  | [], some on, _ => .blockedOn on
  | [], none, some on => .blockedOn on
  | [], none, none => .pending
  | dep :: deps, onUnfulfillable, onPending =>
    match s.taskHashForDep dep.phaseId dep.taskId with
    | none => s.classifyDeps deps onUnfulfillable onPending
    | some depHash =>
      match s.depVerdict depHash with
      | .cascadeFail => .cascadeFail
      | .resolved => s.classifyDeps deps onUnfulfillable onPending
      | .unfulfillable => s.classifyDeps deps (onUnfulfillable.or (some depHash)) onPending
      | .unresolved => s.classifyDeps deps onUnfulfillable (onPending.or (some depHash))

/-- How a task would enter the ledger if it were spawned now. -/
def spawnClass (s : ClusterState I) (task : TaskInfo I) : SpawnClass :=
  s.classifyDeps task.taskDependsOn none none

section Apply

/-- Tasks and ids that travel in two parallel vectors are paired up again. -/
theorem zipIdx_map_wireDefId {batch : List (TaskInfo I × Option TaskDefId)} :
    (batch.map (·.1)).zipIdx.map (fun t => (t.1, ((batch.map (·.2))[t.2]?).join)) = batch := by
  apply List.ext_getElem
  · simp
  · intro n h₁ h₂
    have hn : n < batch.length := h₂
    simp [hn]

variable [DefaultHasher]

/-- One iteration of `apply_tasks_spawned`. -/
def spawnTask [Identifier I] (acc : ApplyResult I) (spawned : TaskInfo I × Option TaskDefId) :
    ApplyResult I :=
  let (task, wireDefId) := spawned
  let hash := computeTaskHash task
  if acc.state.containsTask hash then acc
  else
    let spawnClass := acc.state.spawnClass task
    match acc.state.internTaskDefAt wireDefId hash task with
    | (s, none) => { acc with state := s }
    | (s, some (frozen, routing)) =>
      { acc with
        state := s.setTaskState hash ⟨frozen, routing, 0, spawnClass.status⟩
        outcome := .applied
        newlyPending :=
          if spawnClass = .pending ∧ task.kind ≠ .secondaryEagerPrep then acc.newlyPending ++ [task]
          else acc.newlyPending }

/-- `apply_tasks_spawned`. -/
def applyTasksSpawned [Identifier I] (s : ClusterState I) (tasks : List (TaskInfo I))
    (defIds : List (Option TaskDefId)) : ApplyResult I :=
  (tasks.zipIdx.map fun t => (t.1, (defIds[t.2]?).join)).foldl spawnTask ⟨s, .noOp, [], []⟩

variable [RecordCodec I] (s : ClusterState I)

/-- `apply_secondary_cell_registered`: a fresh binding also stamps the fat entry. -/
def applySecondaryCellRegistered (hash : TaskHash)
    (cellId : SecondaryCellId) : ClusterState I × ApplyOutcome :=
  let already := s.definitions.cellHashToId.lookup hash = some cellId
  match s.definitions.internCellAt cellId hash with
  | .error _ => (s, .noOp)
  | .ok defs =>
    if already then ({ s with definitions := defs }, .noOp)
    else
      ({ s with
        definitions := defs
        tasks := match s.tasks.lookup hash with
          | some st => s.tasks.insert hash
            { st with definition := { st.definition with affineId := some cellId } }
          | none => s.tasks }, .applied)

/-- The `TaskPreferredSecondariesUpdated` arm: newer routing preferences replace older. -/
def applyPreferredSecondaries (hash : TaskHash) (secondaries : List String)
    (version : TaskVersion) : ClusterState I × ApplyOutcome :=
  match s.tasks.lookup hash with
  | none => (s, .noOp)
  | some st =>
    if version ≤ st.routing.preferredVersion then (s, .noOp)
    else
      ({ s with tasks := s.tasks.insert hash { st with routing :=
          { st.routing with preferredSecondaries := secondaries, preferredVersion := version } } },
        .applied)

/-- The arms that rewrite a fat entry in the states they name: `rewrite` gives the new
variant and attempt, or `none` where the mutation is ignored. -/
def applyRewrite (hash : TaskHash)
    (rewrite : TaskState I → Option (TaskStatus × ℕ)) : ClusterState I × ApplyOutcome :=
  match s.tasks.lookup hash with
  | none => (s, .noOp)
  | some st =>
    match rewrite st with
    | none => (s, .noOp)
    | some (status, attempt) =>
      (s.rewriteTaskState hash { st with status := status, attempt := attempt }, .applied)

/-- `TaskReinjected`: an unfulfillable task is offered again. -/
def reinjectRewrite (version : TaskVersion) (st : TaskState I) : Option (TaskStatus × ℕ) :=
  match st.status with
  | .unfulfillable .. => some (.pending version, st.attempt)
  | _ => none

/-- `TaskRequeued`: a running task goes back to the pool. -/
def requeueRewrite (version : TaskVersion) (st : TaskState I) : Option (TaskStatus × ℕ) :=
  match st.status with
  | .inFlight .. => some (.pending version, st.attempt)
  | _ => none

/-- `TaskRetried`: a failed task starts the given attempt. -/
def retryRewrite (attempt : ℕ) (version : TaskVersion) (st : TaskState I) :
    Option (TaskStatus × ℕ) :=
  match st.status with
  | .failed .. => some (.pending version, attempt)
  | _ => none

/-- `TaskBlocked`: a pending task is paused. -/
def blockRewrite (on : TaskHash) (st : TaskState I) : Option (TaskStatus × ℕ) :=
  match st.status with
  | .pending .. => some (.blocked on, st.attempt)
  | _ => none

/-- `TaskSkippedAlreadyDone`: a pending task turns out to be done. -/
def skipRewrite (st : TaskState I) : Option (TaskStatus × ℕ) :=
  match st.status with
  | .pending .. => some (.skippedAlreadyDone, st.attempt)
  | _ => none

/-- `SetupCompleted`: a pending or running setup task succeeds. -/
def setupRewrite (st : TaskState I) : Option (TaskStatus × ℕ) :=
  match st.status with
  | .pending .. | .inFlight .. => some (.setupCompleted, st.attempt)
  | _ => none

/-- The shared shape of the assignment, completion and failure arms: look the entry up
under the probe key, build the candidate on its definition and routing, and merge. -/
def applyCandidate (hash : TaskHash) (probe : TaskJoinKey)
    (status : TaskStatus) (attempt : ℕ) (outputs : Option TaskOutputs) : ApplyResult I :=
  match s.taskEntryUnsettling hash probe with
  | (s, none) => ⟨s, .noOp, [], []⟩
  | (s, some st) =>
    let result := s.mergeTaskState hash { st with status := status, attempt := attempt } outputs
    ⟨result.state, if result.outcome = .noOp then .noOp else .applied, result.resumed, []⟩

/-- A state and an outcome, with nothing resumed or surfaced. -/
def quiet (r : ClusterState I × ApplyOutcome) : ApplyResult I := ⟨r.1, r.2, [], []⟩

/-- `apply_with_resumed_blocked`. -/
def apply [Identifier I] [DonePayloadCodec] (s : ClusterState I) :
    ClusterMutation I → ApplyResult I
  | .taskAdded hash task defId =>
    if s.settledContains hash then ⟨s, .noOp, [], []⟩
    else if hash ∈ s.tasks then ⟨s, .noOp, [], []⟩
    else match s.internTaskDefAt defId hash task with
      | (s, none) => ⟨s, .noOp, [], []⟩
      | (s, some (frozen, routing)) =>
        ⟨s.setTaskState hash ⟨frozen, routing, 0, .pending .default⟩, .applied, [], []⟩
  | .taskAssigned hash secondary worker version attempt =>
    s.applyCandidate hash (keyInFlight attempt version) (.inFlight secondary worker version)
      attempt none
  | .taskCompleted hash resultData attempt =>
    s.applyCandidate hash (keyCompleted attempt) .completed attempt
      (decodeDonePayloadOutputs resultData)
  | .taskFailed hash kind error version attempt =>
    s.applyCandidate hash (probeKeyForFailedMutation kind error version attempt)
      (TaskStatus.ofFailure kind error version) attempt none
  | .taskReinjected hash version => quiet (s.applyRewrite hash (reinjectRewrite version))
  | .taskRequeued hash version => quiet (s.applyRewrite hash (requeueRewrite version))
  | .taskRetried hash attempt version =>
    let s := (s.taskEntryUnsettling hash (keyPending attempt version)).1
    quiet (s.applyRewrite hash (retryRewrite attempt version))
  | .taskBlocked hash on => quiet (s.applyRewrite hash (blockRewrite on))
  | .taskSkippedAlreadyDone hash => quiet (s.applyRewrite hash skipRewrite)
  | .setupCompleted hash =>
    match s.applyRewrite hash setupRewrite with
    | (s, .noOp) => ⟨s, .noOp, [], []⟩
    | (s, .applied) =>
      let (s, resumed) := s.resumeBlockedOn hash
      ⟨s, .applied, resumed, []⟩
  | .taskPreferredSecondariesUpdated hash secondaries version =>
    quiet (s.applyPreferredSecondaries hash secondaries version)
  | .tasksSpawned tasks defIds => s.applyTasksSpawned tasks defIds
  | .secondaryCellRegistered hash cellId => quiet (s.applySecondaryCellRegistered hash cellId)
  | .customMessagePosted origin seq topic data isHighVolume =>
    quiet (s.applyCustomMessagePosted origin seq topic data isHighVolume)
  | .customMessageHandled origin seq => quiet (s.applyCustomMessageHandled origin seq)
  | .customMessageFailed origin seq => quiet (s.applyCustomMessageFailed origin seq)
  | .control m =>
    let (control, outcome) := s.control.apply m
    -- Only an adopted primary change re-anchors the definition-id allocator.
    match m, outcome with
    | .primaryChanged .., .applied => ⟨{ s with control }.resumeDefAllocFloor, .applied, [], []⟩
    | _, outcome => ⟨{ s with control }, outcome, [], []⟩

end Apply

end ClusterState

end DynRunner
