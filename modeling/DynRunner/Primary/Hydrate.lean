import DynRunner.Primary.Terminals

/-!
# Hydrating a promoted primary

A secondary that becomes primary rebuilds the working state of a coordinator from its replica of
the ledger. Every entry contributes to some of the seeds: the tasks that have ended become known
to the pool, the pending and paused ones are put into it, and the running ones enter the in-flight
ledger and occupy the worker slots that the secondaries have advertised.
-/

namespace DynRunner

variable {I : Type}

/-- What hydration reads beside the ledger: the live secondaries, the number of workers that each
has advertised, and the size by which tasks are ordered. -/
structure Fleet (I : Type) where
  /-- The secondaries that are alive. -/
  liveKnownSecondaries : List String
  /-- How many workers a secondary has. -/
  workerCount : String → Option ℕ
  /-- How large a task is. -/
  size : TaskInfo I → ℕ

/-- What one ledger entry contributes to hydration. -/
structure HydrationSeed (I : Type) where
  /-- The tasks that a retry pass may queue again. -/
  allBinaries : List (TaskInfo I) := []
  /-- The ids of imports. -/
  affinePrereqIds : List String := []
  /-- The phases in which something has ended. -/
  phasesWithTerminal : List PhaseId := []
  /-- The phases in which something is open. -/
  phasesWithLiveWork : List PhaseId := []
  /-- The hashes that count as completed. -/
  completed : List TaskHash := []
  /-- The ids that count as finished. -/
  completedTaskIds : List String := []
  /-- The hashes that count as failed. -/
  failed : List (TaskHash × ErrorType) := []
  /-- The failures that may still be tried again. -/
  softFailed : List (String × PhaseId) := []
  /-- The ids that are parked. -/
  dormant : List String := []
  /-- The items of the pool. -/
  items : List (TaskInfo I) := []
  /-- The tasks that are running. -/
  inFlight : List (TaskHash × InFlightEntry I) := []

namespace ClusterState

/-- The contribution of a fat entry. Eager preparation has no part in the run's tasks. -/
def taskSeed (s : ClusterState I) (hash : TaskHash) (st : TaskState I) : HydrationSeed I :=
  let taskId := st.definition.taskId
  let phaseId := st.definition.phaseId
  let task := s.taskToInfo st
  let seed : HydrationSeed I :=
    { allBinaries := [task]
      affinePrereqIds := if st.definition.kind.isSecondaryAffine then [taskId] else [] }
  if st.definition.kind = .secondaryEagerPrep then {}
  else match st.status with
    | .failed kind _ _ =>
      { seed with
        phasesWithTerminal := [phaseId]
        softFailed := [(taskId, phaseId)]
        failed := if st.definition.kind.hasSecondaryCell then [] else [(hash, kind)] }
    | .completed | .skippedAlreadyDone | .setupCompleted =>
      { seed with
        phasesWithTerminal := [phaseId], completed := [hash], completedTaskIds := [taskId] }
    | .unfulfillable .. =>
      { seed with phasesWithTerminal := [phaseId], completed := [hash], dormant := [taskId] }
    | .invalidTask .. =>
      { seed with
        phasesWithTerminal := [phaseId], completed := [hash], softFailed := [(taskId, phaseId)] }
    | .blocked _ | .pending _ => { seed with phasesWithLiveWork := [phaseId], items := [task] }
    | .inFlight secondary worker _ =>
      { seed with
        phasesWithLiveWork := [phaseId]
        inFlight := [(hash, ⟨phaseId, secondary, some worker, task⟩)] }

/-- The contribution of a settled entry, as that of a fat terminal of its class. -/
def settledSeed (hash : TaskHash) (entry : SettledEntry I) : HydrationSeed I :=
  match entry.settledClass with
  | .completed | .skippedAlreadyDone | .setupCompleted =>
    { phasesWithTerminal := [entry.phaseId]
      completed := [hash]
      completedTaskIds := [entry.taskId] }
  | .failedFinal kind =>
    { phasesWithTerminal := [entry.phaseId]
      softFailed := [(entry.taskId, entry.phaseId)]
      failed := if entry.record.state.definition.kind.hasSecondaryCell then [] else [(hash, kind)] }
  | .invalidTask =>
    { phasesWithTerminal := [entry.phaseId]
      completed := [hash]
      softFailed := [(entry.taskId, entry.phaseId)] }

/-- The contributions of all entries, fat ones first. -/
def hydrationSeeds (s : ClusterState I) : List (HydrationSeed I) :=
  s.tasks.entries.map (fun e => s.taskSeed e.1 e.2) ++
    s.settled.index.entries.map fun e => settledSeed e.1 e.2

/-- The tasks that were running, with the entry that the in-flight ledger gets for each. -/
def inherited (s : ClusterState I) : List (TaskHash × InFlightEntry I) :=
  s.hydrationSeeds.flatMap HydrationSeed.inFlight

/-- The running tasks with the worker that each runs on, of every kind. -/
def occupancy (s : ClusterState I) : List (TaskHash × String × ℕ × TaskInfo I) :=
  s.tasks.entries.filterMap fun e =>
    match e.2.status with
    | .inFlight secondary worker _ => some (e.1, secondary, worker, s.taskToInfo e.2)
    | _ => none

/-- The phase graph as a map. -/
def phaseDepsMap (s : ClusterState I) : HashMap PhaseId (List PhaseId) :=
  (s.control.phaseDeps.map fun e => (⟨e.1, e.2⟩ : Sigma fun _ : PhaseId => List PhaseId)).toAList

end ClusterState

/-- The secondaries that have advertised their workers, by name. -/
def Fleet.roster (fleet : Fleet I) : List (String × ℕ) :=
  (fleet.liveKnownSecondaries.dedup.insertionSort (· ≤ ·)).filterMap fun id =>
    (fleet.workerCount id).map fun count => (id, count)

/-- Idle slots for all advertised workers: the first worker of every secondary, then the second
of those that have one, and so on. -/
def Fleet.idleSlots (fleet : Fleet I) : List (RemoteWorkerState I) :=
  let rounds := (fleet.roster.map Prod.snd).foldl max 0
  let owners := (List.range rounds).flatMap fun round =>
    fleet.roster.filterMap fun (id, count) => if round < count then some id else none
  owners.zipIdx.map fun (id, workerId) => ⟨workerId, id, .idle⟩

namespace Coordinator

/-- `reconstruct_workers_from_cluster_state`. -/
def reconstructWorkers (fleet : Fleet I) (c : Coordinator I) : Coordinator I :=
  c.cluster.occupancy.foldl (fun c (hash, secondary, worker, task) =>
    c.seatInherited hash secondary worker task) { c with workers := fleet.idleSlots }

/-- What is put into the pool: the pending and the paused tasks, the largest first. -/
def hydrationItems (fleet : Fleet I) (s : ClusterState I) : List (TaskInfo I) :=
  (s.hydrationSeeds.flatMap HydrationSeed.items).insertionSort
    fun a b => fleet.size b ≤ fleet.size a

/-- Make known to the pool what has ended and what is running. -/
def seedPool (s : ClusterState I) (pool : PendingPool I) : PendingPool I :=
  let seeds := s.hydrationSeeds
  let pool := pool.setNoBarrierPhases s.control.phaseNoBarrier
  let pool := pool.markTasksCompleted (seeds.flatMap HydrationSeed.completedTaskIds)
  let pool := pool.markTasksFailedPendingRetry (seeds.flatMap HydrationSeed.softFailed)
  let pool := pool.markTasksDormant (seeds.flatMap HydrationSeed.dormant)
  let pool := pool.markAffinePrereqs (seeds.flatMap HydrationSeed.affinePrereqIds)
  pool.markTasksInFlight (s.inherited.map fun e => (e.2.task.taskId, e.2.phase))

/-- The phases whose end is recorded and of which nothing is left. -/
def endedPhases (s : ClusterState I) : List PhaseId :=
  (s.hydrationSeeds.flatMap HydrationSeed.phasesWithTerminal).dedup.filter fun phase =>
    phase ∉ s.hydrationSeeds.flatMap HydrationSeed.phasesWithLiveWork ∧
      phase ∈ s.control.phasesEnded

/-- The pool that hydration builds: what has ended and what is running is made known to it before
the pending tasks are put in. -/
def hydratePool (fleet : Fleet I) (s : ClusterState I) :
    Except PendingPoolError (PendingPool I) :=
  let items := hydrationItems fleet s
  let phaseIds := items.map TaskInfo.phaseId ++ s.inherited.map (fun e => e.2.phase) ++
    s.phaseDepsMap.entries.flatMap fun e => e.1 :: e.2
  match PendingPool.new phaseIds s.phaseDepsMap with
  | .error error => .error error
  | .ok pool =>
    match (seedPool s pool).extend items with
    | .error error => .error error
    | .ok pool =>
      .ok (if (endedPhases s).isEmpty then pool else pool.seedCompletedPhases (endedPhases s))

/-- `hydrate_from_cluster_state`. -/
def hydrateFromClusterState (fleet : Fleet I) (c : Coordinator I) :
    Except PendingPoolError (Coordinator I) :=
  let seeds := c.cluster.hydrationSeeds
  match hydratePool fleet c.cluster with
  | .error error => .error error
  | .ok pool =>
    let c := reconstructWorkers fleet { c with
      pool
      completedTasks := (seeds.flatMap HydrationSeed.completed).toFinset
      failedTasks := (seeds.flatMap HydrationSeed.failed).foldl (fun m e => m.insert e.1 e.2) ∅
      allBinaries := seeds.flatMap HydrationSeed.allBinaries }
    .ok { c with
      inFlight := c.cluster.inherited.foldl (fun m e => m.insert e.1 e.2) c.inFlight
      totalTasks := c.cluster.taskCount }

end Coordinator

end DynRunner
