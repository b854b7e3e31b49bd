import DynRunner.Primary.Lifecycle
import DynRunner.Primary.Reconcile

/-!
# Runs of a primary

A primary hydrates the ledger that it starts from, be it the seed of a cold start or the ledger
of a primary before it, and then handles one event after the other. The pass over the phases that
ends the handling of most events is split into its own events, so a run here may order the parts
of a pass and the other events in any way. The tasks that the primary itself finds too large for
every secondary are failed by commands, one after the other. The reservations of the pool, which
order the queue only, have no part in a run here.
-/

namespace DynRunner

variable {I : Type}

open Coordinator

/-- What a primary handles. -/
inductive PrimaryEvent (I : Type)
  | dispatch (workerIdx : ℕ) (worker : WorkerId) (key : BucketKey) (index : ℕ) (delivered : Bool)
  | executeSetup (hash : TaskHash) (outcome : SetupOutcome)
  | assignSetup (hash : TaskHash) (member : String) (delivered : Bool)
  | setupTerminal (hash : TaskHash) (outcome : SetupOutcome)
  | dispatchAffineWork (workerIdx : ℕ) (hash : TaskHash) (delivered : Bool)
  | dispatchCell (workerIdx : ℕ) (hash : TaskHash) (delivered : Bool)
  | taskComplete (secondary : String) (workerId : ℕ) (hash : TaskHash)
      (resultData : Option (List ℕ))
  | taskFailed (report : FailureReport)
  | illegallyAssigned (secondary : String) (workerId : ℕ) (assigned : TaskHash)
      (incumbent : Option TaskHash)
  | inflightRoster (secondary : String) (current : Bool) (entries : List (TaskHash × ℕ))
  | taskRequest (workerIdx : ℕ)
  | secondaryDied (secondary : String)
  | silentHeldWork (secondary : String)
  | clusterMutation (fleet : Fleet I) (departed : List String) (capacityGrew : Bool)
      (ms : List (ClusterMutation I))
  | capacityGrowth (fleet : Fleet I)
  | spawnTasks (tasks : List (TaskInfo I))
  | pumpSpawnContinuation
  | failPermanent (hash : TaskHash) (error : ErrorType) (reason : String)
  | failPermanentBatch (items : List (TaskHash × ErrorType × String))
  | unsatisfiable (hash : TaskHash) (phaseId : PhaseId) (sent : Bool)
  | doomed (tasks : List (TaskHash × PhaseId))
  | reinjectTask (hash : TaskHash) (budgetLeft : Bool)
  | updatePreferredSecondaries (hash : TaskHash) (secondaries : List String)
  | pollDrainTransitions
  | retryPhase (plan : MemoryPlan I) (phase : PhaseId) (kind : BucketKind) (budgetLeft : Bool)
  | finalizePhase (phase : PhaseId)
  | recordPhaseEnd (phase : PhaseId)
  | drainEmptyActivePhases
  | resurfaceDrainedPending
  | requeueOrphans (depAlive : String → Bool)
  | fleetDead

namespace Coordinator

variable [DecidableEq I] [DefaultHasher] [Identifier I] [RecordCodec I] [DonePayloadCodec]

/-- The handling of one event. -/
def step (c : Coordinator I) : PrimaryEvent I → Coordinator I
  | .dispatch workerIdx worker key index delivered =>
    c.dispatchSelected workerIdx worker key index delivered
  | .executeSetup hash outcome => c.executeSetupLocally hash outcome
  | .assignSetup hash member delivered => c.assignSetupOffPrimary hash member delivered
  | .setupTerminal hash outcome => c.handleSetupTerminal hash outcome
  | .dispatchAffineWork workerIdx hash delivered => c.dispatchAffineWork workerIdx hash delivered
  | .dispatchCell workerIdx hash delivered => c.dispatchCell workerIdx hash delivered
  | .taskComplete secondary workerId hash resultData =>
    c.handleTaskComplete secondary workerId hash resultData
  | .taskFailed report => c.handleTaskFailed report
  | .illegallyAssigned secondary workerId assigned incumbent =>
    c.handleIllegallyAssigned secondary workerId assigned incumbent
  | .inflightRoster secondary current entries => c.handleInflightRoster secondary current entries
  | .taskRequest workerIdx => c.reconcileInheritedSlot workerIdx
  | .secondaryDied secondary => c.requeueDeadSecondary secondary
  | .silentHeldWork secondary => c.requeueSilentHeldWork secondary
  | .clusterMutation fleet departed capacityGrew ms =>
    c.handleClusterMutation fleet departed capacityGrew ms
  | .capacityGrowth fleet => reconstructWorkers fleet c
  | .spawnTasks tasks => c.applySpawnTasks tasks
  | .pumpSpawnContinuation => c.pumpSpawnContinuation.1
  | .failPermanent hash error reason => (c.applyFailPermanent hash error reason).1
  | .failPermanentBatch items => c.applyFailPermanentBatch items
  | .unsatisfiable hash phaseId sent => c.failUnsatisfiableAffineWork hash phaseId sent
  | .doomed tasks => c.terminalizeDoomedAffineWork tasks
  | .reinjectTask hash budgetLeft => (c.applyReinjectTask hash budgetLeft).1
  | .updatePreferredSecondaries hash secondaries =>
    (c.applyUpdatePreferredSecondaries hash secondaries).1
  | .pollDrainTransitions => { c with pool := c.pool.pollDrainTransitions.1 }
  | .retryPhase plan phase kind budgetLeft =>
    (c.tryRunPhaseRetryBucket plan phase kind budgetLeft).1
  | .finalizePhase phase => c.finalizePhaseSoftFailures phase
  | .recordPhaseEnd phase => c.recordPhaseEnd phase
  | .drainEmptyActivePhases => { c with pool := c.pool.drainEmptyActivePhases }
  | .resurfaceDrainedPending => { c with pool := c.pool.resurfaceDrainedPending }
  | .requeueOrphans depAlive => c.requeueOrphans depAlive
  | .fleetDead => { c with pool := c.pool.drainQueued.1 }

/-- The handling of several events. -/
def runAll (c : Coordinator I) (events : List (PrimaryEvent I)) : Coordinator I :=
  events.foldl step c

/-- The states of the runs that start from a ledger with a given property and take only steps
that are allowed. -/
inductive Run (start : Fleet I → ClusterState I → Prop)
    (allowed : Coordinator I → PrimaryEvent I → Prop) : Coordinator I → Prop
  | hydrated {fleet : Fleet I} {c₀ c : Coordinator I} (hnew : c₀.inFlight = ∅)
      (hstart : start fleet c₀.cluster) (hhydrate : hydrateFromClusterState fleet c₀ = .ok c) :
      Run start allowed c
  | step {c : Coordinator I} (event : PrimaryEvent I) (hrun : Run start allowed c)
      (hallowed : allowed c event) : Run start allowed (c.step event)

/-- What holds after hydration and is kept by every allowed step holds throughout a run. -/
theorem Run.induct {start : Fleet I → ClusterState I → Prop}
    {allowed : Coordinator I → PrimaryEvent I → Prop} {P : Coordinator I → Prop}
    (hhydrated : ∀ (fleet : Fleet I) (c₀ c : Coordinator I), c₀.inFlight = ∅ →
      start fleet c₀.cluster → hydrateFromClusterState fleet c₀ = .ok c → P c)
    (hstep : ∀ (c : Coordinator I) (event : PrimaryEvent I), P c → allowed c event →
      P (c.step event)) {c : Coordinator I} (hrun : Run start allowed c) : P c := by
  induction hrun with
  | hydrated hnew hstart hhydrate => exact hhydrated _ _ _ hnew hstart hhydrate
  | step event _ hallowed ih => exact hstep _ event ih hallowed

end Coordinator

end DynRunner
