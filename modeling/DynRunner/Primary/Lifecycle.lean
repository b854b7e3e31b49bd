import DynRunner.Primary.Dispatch
import DynRunner.Primary.Hydrate

/-!
# The drain edge of a phase

When nothing of a phase is left to run, the primary tries the retries that are left, makes the
remaining failures final, tells the consumer that the phase has ended and, if the ledger agrees,
records the end. An empty pool and idle slots end the run.
-/

namespace DynRunner

variable {I : Type}

/-- The failures that a retry pass covers. -/
inductive BucketKind
  | recoverable
  | oom
  deriving DecidableEq, Repr

/-- Whether a failure belongs to a bucket. -/
def BucketKind.covers : BucketKind → ErrorType → Bool
  | .recoverable, .recoverable => true
  | .oom, .resourceExhausted kind => kind = "memory"
  | _, _ => false

/-- What decides where a task that ran out of memory is tried again: the secondaries, those with
the most memory first, and the memory that a task is expected to need. -/
structure MemoryPlan (I : Type) where
  secondaries : List String
  estimate : TaskInfo I → ℕ

/-- `assign_oom_preferred_secondaries`: the largest tasks go to the largest secondaries. -/
def MemoryPlan.assignOomPreferredSecondaries (plan : MemoryPlan I) (kind : BucketKind)
    (candidates : List (TaskInfo I)) : List (TaskInfo I) :=
  match kind with
  | .recoverable => candidates
  | .oom =>
    if plan.secondaries.isEmpty then candidates
    else
      (candidates.insertionSort fun a b => plan.estimate b ≤ plan.estimate a).zipIdx.map
        fun (task, i) => { task with
          preferredSecondaries := (plan.secondaries[i % plan.secondaries.length]?).toList }

namespace PendingPool

/-- `is_empty`: nothing is queued, in flight or blocked. -/
def isEmpty (pool : PendingPool I) : Bool :=
  pool.queued.isEmpty && (pool.inFlightPerPhase.entries.all fun e => e.2 = 0) &&
    pool.blocked.entries.isEmpty

/-- `is_run_complete`. -/
def isRunComplete (pool : PendingPool I) : Bool :=
  pool.isEmpty && !pool.phaseState.entries.any fun e => e.2 = .active || e.2 = .draining

end PendingPool

namespace Coordinator

variable [DefaultHasher] [Identifier I] [RecordCodec I] [DonePayloadCodec] (c : Coordinator I)

/-- The slots that hold a task. -/
def activeWorkers : ℕ := c.workers.countP fun w => w.state.holds.isSome

/-- The pool-drain exit of `run_complete_check`: nothing is owed, the pool is complete and no
slot holds a task. -/
def poolDrainExit : Bool :=
  c.cluster.control.discoveryDebt ≠ .owed && c.pool.isRunComplete && c.activeWorkers == 0

/-- The failed tasks of a phase that a bucket covers. -/
def retryCandidates (phase : PhaseId) (kind : BucketKind) : List (TaskInfo I) :=
  c.allBinaries.filter fun task => task.phaseId = phase &&
    (c.failedTasks.lookup (computeTaskHash task)).any kind.covers

/-- A failed task is forgotten as failed and queued again. -/
def retryOne (task : TaskInfo I) : Coordinator I :=
  { c with
    failedTasks := c.failedTasks.erase (computeTaskHash task)
    pool := c.pool.reinject task }

/-- The retry that the ledger is told of, if it has the task as failed. -/
def retryMutation (task : TaskInfo I) : Option (ClusterMutation I) :=
  match c.cluster.tasks.lookup (computeTaskHash task) with
  | none => none
  | some st => match st.status with
    | .failed .. => some (.taskRetried (computeTaskHash task) (st.attempt + 1) .default)
    | _ => none

/-- `try_run_phase_retry_bucket`: one pass over the failures of a phase, if there are any and the
budget of the phase is not used up. Returns whether a task was queued again. -/
def tryRunPhaseRetryBucket (plan : MemoryPlan I) (phase : PhaseId)
    (kind : BucketKind) (budgetLeft : Bool) : Coordinator I × Bool :=
  let candidates := plan.assignOomPreferredSecondaries kind (c.retryCandidates phase kind)
  if candidates.isEmpty || !budgetLeft then (c, false)
  else
    let c := candidates.foldl retryOne c
    (c.applyAndBroadcast (candidates.filterMap c.retryMutation), true)

/-- `finalize_phase_soft_failures`. -/
def finalizePhaseSoftFailures (phase : PhaseId) : Coordinator I :=
  let (pool, finalized) := c.pool.finalizeSoftFailures phase
  let (c, mutations) := finalized.foldl (fun (c, mutations) (rootId, cascaded) =>
    let (c, new) := c.buildCascadeTerminalMutations rootId cascaded
    (c, mutations ++ new)) ({ c with pool }, [])
  c.applyAndBroadcast mutations

/-- The end of a phase is recorded in the ledger and in the pool. -/
def recordPhaseEnd (phase : PhaseId) : Coordinator I :=
  let c := c.applyAndBroadcast [.control (.phaseEnded phase)]
  { c with pool := c.pool.markPhaseDone phase }

end Coordinator

end DynRunner
