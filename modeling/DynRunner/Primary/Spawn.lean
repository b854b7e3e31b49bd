import DynRunner.Primary.Model

/-!
# Spawning tasks at runtime

A batch of new tasks is admitted to the publication queue, applied to the ledger in chunks and, as
far as its tasks are pending there, put into the pool. Before a chunk is applied it is validated:
a task that the ledger has, that occurs twice, whose dependencies are known neither to the ledger
nor to the chunk, or whose phase is still closed is rejected, and the others are published.
-/

namespace DynRunner

variable {I : Type}

/-- Why a spawned task was rejected. -/
inductive SpawnError
  | duplicateTaskHash (hash : TaskHash)
  | duplicateInBatch (hash : TaskHash)
  | unknownDependency (taskHash : TaskHash) (depTaskId : String)
  | barrierViolation (taskHash : TaskHash) (phaseId : PhaseId)
  deriving DecidableEq, Repr

section Validator

variable [DefaultHasher] [Identifier I]

/-- What the validator asks the ledger and the pool, with the identities of its batch. -/
structure SpawnChecks where
  isTaskPresentByHash : TaskHash → Bool
  isKnownTaskId : PhaseId → String → Bool
  phaseAcceptsRuntimeSpawn : PhaseId → Bool
  batchIdentities : List TaskIdentity

/-- The first declared dependency that nothing knows. -/
def SpawnChecks.badDep (checks : SpawnChecks) (task : TaskInfo I) : Option TaskDep :=
  task.taskDependsOn.find? fun dep =>
    dep.identity ∉ checks.batchIdentities && !checks.isKnownTaskId dep.phaseId dep.taskId

/-- The first check that a task fails, given the hashes seen before it in the batch. -/
def SpawnChecks.error (checks : SpawnChecks) (seenInBatch : List TaskHash) (task : TaskInfo I) :
    Option SpawnError :=
  let hash := computeTaskHash task
  if checks.isTaskPresentByHash hash then some (.duplicateTaskHash hash)
  else if hash ∈ seenInBatch then some (.duplicateInBatch hash)
  else match checks.badDep task with
    | some dep => some (.unknownDependency hash dep.taskId)
    | none =>
      if checks.phaseAcceptsRuntimeSpawn task.phaseId then none
      else some (.barrierViolation hash task.phaseId)

/-- The per-task pass. A hash counts as seen once it is known not to be in the ledger. -/
def SpawnChecks.partition (checks : SpawnChecks) :
    List TaskHash → List (TaskInfo I × ℕ) → List (TaskInfo I) × List (ℕ × SpawnError)
  | _, [] => ([], [])
  | seenInBatch, (task, idx) :: rest =>
    let hash := computeTaskHash task
    let seen := if checks.isTaskPresentByHash hash then seenInBatch else hash :: seenInBatch
    let (valid, errors) := checks.partition seen rest
    match checks.error seenInBatch task with
    | some error => (valid, (idx, error) :: errors)
    | none => (task :: valid, errors)

/-- `validate_spawn_tasks`: the tasks to publish, and the errors by position. -/
def validateSpawnTasks (isTaskPresentByHash : TaskHash → Bool)
    (isKnownTaskId : PhaseId → String → Bool) (phaseAcceptsRuntimeSpawn : PhaseId → Bool)
    (tasks : List (TaskInfo I)) : List (TaskInfo I) × List (ℕ × SpawnError) :=
  SpawnChecks.partition ⟨isTaskPresentByHash, isKnownTaskId, phaseAcceptsRuntimeSpawn,
    tasks.map TaskInfo.identity⟩ [] tasks.zipIdx

/-- `detect_in_batch_dupes`: the positions whose identity occurred before, each with the hash of
the first task that has it. -/
def detectInBatchDupes : HashMap TaskIdentity TaskHash → List (TaskInfo I × ℕ) →
    List (ℕ × TaskHash)
  | _, [] => []
  | seen, (task, idx) :: rest =>
    match seen.lookup task.identity with
    | some first => (idx, first) :: detectInBatchDupes seen rest
    | none => detectInBatchDupes (seen.insert task.identity (computeTaskHash task)) rest

end Validator

namespace Coordinator

/-- The number of tasks that one chunk applies (`APPLY_SPAWN_CHUNK_SIZE`). -/
def applySpawnChunkSize : ℕ := 256

variable [DefaultHasher] [Identifier I] [RecordCodec I] [DonePayloadCodec] (c : Coordinator I)

/-- Whether a phase takes spawned tasks now: it needs no barrier, or every phase it depends on has
drained. -/
def phaseAcceptsRuntimeSpawn (phaseId : PhaseId) : Bool :=
  decide (phaseId ∈ c.cluster.control.phaseNoBarrier) ||
    match c.cluster.control.phaseDeps.find? fun e => e.1 = phaseId with
    | none => true
    | some (_, deps) => deps.all fun dep =>
      match c.pool.phaseState.lookup dep with
      | none => true
      | some state => decide (state = .drained ∨ state = .done)

/-- Whether the ledger defines an identity. -/
def isDefined (phaseId : PhaseId) (taskId : String) : Bool :=
  (c.cluster.taskHashForDep phaseId taskId).isSome

/-- The validation of a chunk against the ledger and the phases of the coordinator. -/
def validateChunk (tasks : List (TaskInfo I)) : List (TaskInfo I) × List (ℕ × SpawnError) :=
  validateSpawnTasks c.cluster.containsTask c.isDefined c.phaseAcceptsRuntimeSpawn tasks

/-- Route a published task by the state in which the ledger has it. -/
def routeSpawned (hash : TaskHash) : Coordinator I :=
  match c.cluster.tasks.lookup hash with
  | none => c
  | some st =>
    match st.status with
    | .pending _ => { c with pool := c.pool.reinject (c.cluster.taskToInfo st) }
    | .failed kind _ _ => { c with failedTasks := c.failedTasks.insert hash kind }
    | _ => c

/-- `apply_spawn_tasks_chunk`. The errors carry the positions in the whole batch. -/
def applySpawnTasksChunk (tasks : List (TaskInfo I)) (baseIndex : ℕ) :
    Coordinator I × List (ℕ × SpawnError) :=
  let (validTasks, errors) := c.validateChunk tasks
  if validTasks.isEmpty then
    -- A batch that is rejected as a whole is reported at the end of the run, but for the tasks
    -- that were there already.
    let lost := errors.filter fun e => !(e.2 matches .duplicateTaskHash _)
    ({ c with
      spawnRejectedTaskIds := c.spawnRejectedTaskIds ++
        lost.filterMap fun e => (tasks[e.1]?).map TaskInfo.taskId },
      errors.map fun e => (e.1 + baseIndex, e.2))
  else
    let spawnedAffine := (validTasks.filter fun t => t.kind.isSecondaryAffine).map TaskInfo.taskId
    let c := c.applyAndBroadcast [.tasksSpawned validTasks []]
    let c := { c with
      pool := c.pool.markAffinePrereqs spawnedAffine
      totalTasks := c.cluster.taskCount }
    ((validTasks.map computeTaskHash).foldl routeSpawned c,
      errors.map fun e => (e.1 + baseIndex, e.2))

/-- `invalidate_all_pending`: abort the run, then fail every task that has not ended. -/
def invalidateAllPending (reason : String) : Coordinator I :=
  let c := c.applyAndBroadcast [.control (.runAborted reason)]
  let live := c.cluster.tasks.entries.filter fun e => !e.2.status.isTerminal
  c.applyAndBroadcast (live.map fun e =>
    .taskFailed e.1 (.invalidTask reason) "run-wide invalidation (duplicate task identity)"
      .default 0)

/-- The reason of a run that is aborted for repeated identities. -/
def duplicateReason (dupes : List (ℕ × TaskHash)) : String :=
  toString dupes.length ++
    " duplicate task identity/identities within a single runtime spawn batch: " ++
    "; ".intercalate (dupes.map fun e => "duplicate task hash " ++ e.2)

/-- `apply_spawn_tasks`: refuse a batch that repeats an identity; otherwise admit it and line up
what is to be published. -/
def applySpawnTasks (tasks : List (TaskInfo I)) : Coordinator I :=
  if tasks.isEmpty then c
  else match detectInBatchDupes ∅ tasks.zipIdx with
    | dupe :: dupes => c.invalidateAllPending (duplicateReason (dupe :: dupes))
    | [] =>
      let (spawnQueue, released) := c.spawnQueue.admitBatch tasks c.isDefined
      { c with
        spawnQueue
        spawnContinuationQueue :=
          if released.isEmpty then c.spawnContinuationQueue
          else c.spawnContinuationQueue ++ [⟨released, 0⟩] }

/-- `pump_spawn_continuation`: apply one chunk of the batch in front. -/
def pumpSpawnContinuation : Coordinator I × List (ℕ × SpawnError) :=
  match c.spawnContinuationQueue with
  | [] => (c, [])
  | cont :: rest =>
    let chunk := cont.remaining.take applySpawnChunkSize
    let remaining := cont.remaining.drop applySpawnChunkSize
    let (c, errors) := { c with spawnContinuationQueue := rest }.applySpawnTasksChunk chunk
      cont.nextBaseIndex
    ({ c with
      spawnContinuationQueue :=
        if remaining.isEmpty then c.spawnContinuationQueue
        else ⟨remaining, cont.nextBaseIndex + chunk.length⟩ :: c.spawnContinuationQueue }, errors)

end Coordinator

end DynRunner
