import DynRunner.ClusterState.JoinKey

/-!
# The replicated cluster state

The part of the state every ledger operation reads or writes: the in-memory ("fat")
entries, the settled entries whose bodies live on disk, the definition store, and
the summaries kept beside them. A file segment of the spill is represented by the
records it holds: an index entry carries the record its segment, offset and length
locate, and what reading it back gives is a parameter.
-/

namespace DynRunner

variable {I : Type}

/-- Buckets of the outcome summary. -/
inductive OutcomeBucket
  | succeeded
  | failRetry
  | failOom
  | failFinal
  | skipped
  | setupSucceeded
  deriving DecidableEq, Repr

/-- Per-bucket counts of the terminal entries. -/
structure OutcomeSummary where
  succeeded : ℕ
  failRetry : ℕ
  failOom : ℕ
  failFinal : ℕ
  skipped : ℕ
  setupSucceeded : ℕ
  deriving DecidableEq, Repr

variable (s : OutcomeSummary)

/-- The count of a bucket. -/
def OutcomeSummary.field : OutcomeBucket → ℕ
  | .succeeded => s.succeeded
  | .failRetry => s.failRetry
  | .failOom => s.failOom
  | .failFinal => s.failFinal
  | .skipped => s.skipped
  | .setupSucceeded => s.setupSucceeded

/-- `field_mut`: rewrite the count of a bucket. -/
def OutcomeSummary.fieldMut (f : ℕ → ℕ) : OutcomeBucket → OutcomeSummary
  | .succeeded => { s with succeeded := f s.succeeded }
  | .failRetry => { s with failRetry := f s.failRetry }
  | .failOom => { s with failOom := f s.failOom }
  | .failFinal => { s with failFinal := f s.failFinal }
  | .skipped => { s with skipped := f s.skipped }
  | .setupSucceeded => { s with setupSucceeded := f s.setupSucceeded }

/-- Move one entry from an old bucket to a new one; the decrement saturates at zero. -/
def OutcomeSummary.swap (old new : Option OutcomeBucket) : OutcomeSummary :=
  let s := match old with
    | some b => s.fieldMut (· - 1) b
    | none => s
  match new with
  | some b => s.fieldMut (· + 1) b
  | none => s

/-- The bucket of a failure kind. -/
def bucketForFailedKind : ErrorType → OutcomeBucket
  | .recoverable => .failRetry
  | .resourceExhausted kind => if kind = "memory" then .failOom else .failFinal
  | .nonRecoverable | .unfulfillable _ | .invalidTask _ => .failFinal

/-- The bucket of a state variant, if it is terminal. -/
def outcomeBucketOf : TaskStatus → Option OutcomeBucket
  | .completed => some .succeeded
  | .failed kind _ _ => some (bucketForFailedKind kind)
  | .unfulfillable .. | .invalidTask .. => some .failFinal
  | .skippedAlreadyDone => some .skipped
  | .setupCompleted => some .setupSucceeded
  | .pending .. | .inFlight .. | .blocked .. => none

/-- Per-bucket count and XOR fold of the ledger's content terms. -/
@[ext]
structure RangeDigest where
  folds : Fin rangeCount → UInt64
  counts : Fin rangeCount → ℕ

/-- The largest 32-bit count; bucket counts saturate there. -/
abbrev u32Max : ℕ := 4294967295

namespace RangeDigest

/-- The digest of an empty ledger. -/
def empty : RangeDigest := ⟨fun _ => 0, fun _ => 0⟩

variable [DefaultHasher]

/-- Fold in the term of a new entry. -/
def add (d : RangeDigest) (key : TaskHash) (term : UInt64) : RangeDigest :=
  let r := rangeIndex key
  { folds := Function.update d.folds r (d.folds r ^^^ term)
    counts := Function.update d.counts r (min (d.counts r + 1) u32Max) }

/-- Replace the term of an existing entry; the count is unchanged. -/
def swap (d : RangeDigest) (key : TaskHash) (oldTerm newTerm : UInt64) : RangeDigest :=
  let r := rangeIndex key
  { d with folds := Function.update d.folds r (d.folds r ^^^ (oldTerm ^^^ newTerm)) }

end RangeDigest

/-- Terminal classes an entry can settle in. -/
inductive SettledClass
  | completed
  | skippedAlreadyDone
  | setupCompleted
  | invalidTask
  | failedFinal (kind : ErrorType)
  deriving DecidableEq, Repr

/-- The bucket of a settled class. -/
def settledBucketOf : SettledClass → OutcomeBucket
  | .completed => .succeeded
  | .failedFinal kind => bucketForFailedKind kind
  | .invalidTask => .failFinal
  | .skippedAlreadyDone => .skipped
  | .setupCompleted => .setupSucceeded

/-- The body of a spilled entry. -/
structure SettledRecord (I : Type) where
  hash : TaskHash
  state : TaskState I
  outputs : Option TaskOutputs
  deriving DecidableEq, Repr

/-- An entry of the settled index. `record` is the body its segment holds at the
entry's offset. -/
structure SettledEntry (I : Type) where
  /-- The id of the task. -/
  taskId : String
  /-- Its phase. -/
  phaseId : PhaseId
  /-- What the task depended on. -/
  taskDependsOn : List TaskDep
  /-- How it ended. -/
  settledClass : SettledClass
  /-- The join key of the entry that was written out. -/
  joinKey : TaskJoinKey
  /-- The id of its definition. -/
  defId : TaskDefId
  /-- Its term of the digest of the tasks. -/
  digestContribution : UInt64
  /-- Its term of the digest of the outputs. -/
  outputsDigestContribution : Option UInt64
  /-- What the record of the entry says. -/
  record : SettledRecord I

/-- The settled index with its running digest accumulators. `hasWriter` says whether
a spill segment is attached for writing. -/
structure SettledStore (I : Type) where
  /-- The entries that are settled. -/
  index : HashMap TaskHash (SettledEntry I)
  /-- The hash behind each definition id. -/
  defIdToHash : HashMap TaskDefId TaskHash
  /-- The fold of the terms of the entries. -/
  tasksHashAcc : UInt64
  /-- The fold of the terms of their outputs. -/
  taskOutputsHashAcc : UInt64
  /-- How many of them have outputs. -/
  settledOutputsCount : ℕ
  /-- Whether this node writes records. -/
  hasWriter : Bool

/-- The store with nothing settled. -/
def SettledStore.empty : SettledStore I := ⟨∅, ∅, 0, 0, 0, false⟩

/-- Kinds of per-phase event tallies. -/
inductive PhaseTally
  | completed
  | failed
  deriving DecidableEq, Repr

/-- Delivery state of a custom message. -/
inductive CustomMsgState
  | unhandled (topic : String) (data : List ℕ) (isHighVolume : Bool)
  | handled
  | failed
  deriving DecidableEq, Repr

/-- Where a node stands with the discovery of the run's tasks. -/
inductive DiscoveryDebt
  | undeclared
  | owed
  | settled
  deriving DecidableEq, Repr

/-- The registers that no task entry depends on: the primary register, the phase
graph and the run latches. -/
structure Control where
  currentPrimary : Option String
  primaryEpoch : ℕ
  phaseDeps : List (PhaseId × List PhaseId)
  phaseMayBeEmpty : List PhaseId
  phaseNoBarrier : List PhaseId
  respawnPolicy : Option (ℕ × ℕ × ℕ)
  runComplete : Bool
  runAborted : Option String
  gracefulAbortRequested : Bool
  windDownRequested : List (String × ℕ)
  discoveryDebt : DiscoveryDebt
  phasesEnded : List PhaseId
  deriving DecidableEq, Repr

/-- The registers of a fresh node. -/
def Control.empty : Control := ⟨none, 0, [], [], [], none, false, none, false, [], .undeclared, []⟩

/-- The replicated state of a node. -/
structure ClusterState (I : Type) where
  /-- The entries in memory. -/
  tasks : HashMap TaskHash (TaskState I)
  /-- The entries that were written out. -/
  settled : SettledStore I
  /-- The definitions of the tasks, shared by all entries. -/
  definitions : TaskDefStore I
  /-- The tasks that are paused, by what they wait for. -/
  blockedBy : HashMap TaskHash (List TaskHash)
  /-- How many tasks ended in which way. -/
  outcomeTally : OutcomeSummary
  /-- The digest of every range of the tasks. -/
  rangeFoldMemo : RangeDigest
  /-- How many events every phase has counted. -/
  phaseEventTallies : HashMap (PhaseId × PhaseTally) ℕ
  /-- The outputs of the completed tasks. -/
  taskOutputs : HashMap TaskHash TaskOutputs
  /-- The messages of the inbox that are not covered by a watermark. -/
  customMessages : HashMap (String × ℕ) CustomMsgState
  /-- Up to which number the messages of an origin have ended. -/
  customTerminalWatermarks : HashMap String ℕ
  /-- The registers and flags of the run. -/
  control : Control

/-- `ClusterState::new`. -/
def ClusterState.empty : ClusterState I :=
  { tasks := ∅, settled := .empty, definitions := .empty, blockedBy := ∅
    outcomeTally := ⟨0, 0, 0, 0, 0, 0⟩, rangeFoldMemo := .empty, phaseEventTallies := ∅
    taskOutputs := ∅, customMessages := ∅, customTerminalWatermarks := ∅, control := .empty }

end DynRunner
