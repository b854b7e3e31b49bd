import DynRunner.Primary.Spawn
import DynRunner.Primary.Terminals

/-!
# Commands

The consumer of a run can fail a task for good, offer an unfulfillable task again and spawn new
tasks. A failed task takes the tasks that wait for it along: they are paused if it can be offered
again, and recorded as failed otherwise.
-/

namespace DynRunner

variable {I : Type}

/-- `task_meta_for_hash`: the phase and the id of a task, fat or settled. -/
def ClusterState.taskMetaForHash (s : ClusterState I) (hash : TaskHash) :
    Option (PhaseId × String) :=
  match s.tasks.lookup hash with
  | some st => some (st.definition.phaseId, st.definition.taskId)
  | none => (s.settledEntry hash).map fun entry => (entry.phaseId, entry.taskId)

/-- Whether a failure leaves the task to be offered again. -/
def ErrorType.isUnfulfillable : ErrorType → Bool
  | .unfulfillable _ => true
  | _ => false

namespace Coordinator

variable [DefaultHasher] [Identifier I] [RecordCodec I] [DonePayloadCodec] (c : Coordinator I)

/-- `fail_permanent_cascade_mutations`: fail a task in the pool and in the accounting, and build
the mutations. Returns the phase of the task as well. -/
def failPermanentCascadeMutations (hash : TaskHash) (error : ErrorType)
    (reason : String) : Option (PhaseId × List (ClusterMutation I) × Coordinator I) :=
  (c.cluster.taskMetaForHash hash).map fun (phaseId, taskId) =>
    let (pool, cascaded) := c.pool.onItemFailedPermanent phaseId taskId
    let failedTasks := c.failedTasks.insert hash error
    let hashes := cascaded.map computeTaskHash
    if error.isUnfulfillable then
      (phaseId, .taskFailed hash error reason .default 0 ::
        hashes.map fun depHash => .taskBlocked depHash hash, { c with pool, failedTasks })
    else
      let failedTasks := hashes.foldl (fun m depHash => m.insert depHash error) failedTasks
      (phaseId, [.taskFailed hash error reason .default 0], { c with pool, failedTasks })

/-- `apply_fail_permanent`. Returns whether the task is known. -/
def applyFailPermanent (hash : TaskHash) (error : ErrorType)
    (reason : String) : Coordinator I × Bool :=
  match c.failPermanentCascadeMutations hash error reason with
  | none => (c, false)
  | some (phaseId, mutations, c) =>
    ((c.applyAndBroadcast mutations).noteItemFailed phaseId none none, true)

/-- The first part of a batch: the pool and the accounting of every task in turn. -/
def failPermanentAll (c : Coordinator I) : List (TaskHash × ErrorType × String) →
    List PhaseId × List (ClusterMutation I) × Coordinator I
  | [] => ([], [], c)
  | (hash, error, reason) :: items =>
    match c.failPermanentCascadeMutations hash error reason with
    | none => c.failPermanentAll items
    | some (phaseId, mutations, c) =>
      let (decrements, rest, c) := c.failPermanentAll items
      (phaseId :: decrements, mutations ++ rest, c)

/-- `apply_fail_permanent_batch`: one origination for all tasks of the batch. -/
def applyFailPermanentBatch (items : List (TaskHash × ErrorType × String)) : Coordinator I :=
  let (decrements, mutations, c) := c.failPermanentAll items
  decrements.foldl (fun c phaseId => { c with pool := c.pool.onItemFinished phaseId none })
    (c.applyAndBroadcast mutations)

/-- `apply_reinject_task`: an unfulfillable task is queued again, as long as it has a reinjection
left. Returns whether it was. -/
def applyReinjectTask (hash : TaskHash) (budgetLeft : Bool) : Coordinator I × Bool :=
  match c.cluster.tasks.lookup hash with
  | none => (c, false)
  | some st =>
    match st.status with
    | .unfulfillable .. =>
      if budgetLeft then
        ({ c with
          failedTasks := c.failedTasks.erase hash
          pool := c.pool.reinject (c.cluster.taskToInfo st) }.applyAndBroadcast
            [.taskReinjected hash .default], true)
      else (c, false)
    | _ => (c, false)

/-- `apply_update_preferred_secondaries`. Returns whether the task is known. -/
def applyUpdatePreferredSecondaries (hash : TaskHash)
    (secondaries : List String) : Coordinator I × Bool :=
  if c.cluster.containsTask hash then
    ({ c with
      pool := c.pool.updateFirstMatchInPlace (fun task => computeTaskHash task = hash)
        fun task => { task with preferredSecondaries := secondaries } }.applyAndBroadcast
          [.taskPreferredSecondariesUpdated hash secondaries .default], true)
  else (c, false)

end Coordinator

end DynRunner
