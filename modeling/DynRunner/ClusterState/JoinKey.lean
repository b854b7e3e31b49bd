import DynRunner.ClusterState.TaskState

/-!
# The join key of a task state

One constructor for each state variant, the probe key of a failure report, and the
content terms the anti-entropy digests fold. The order facts at the end say how
the variants of one attempt compare, which is all the later proofs use.
-/

namespace DynRunner

open TaskJoinKey DefaultHasher

variable {I : Type} [DefaultHasher]

/-- Content hash of a `Completed` payload. -/
def completedPayloadHash : UInt64 := hashOne [.u8 0]

/-- Content hash of a `Failed` payload. -/
def failedPayloadHash (kindWire lastError : String) : UInt64 :=
  hashOne [.u8 1, .str kindWire, .str lastError]

/-- Content hash of an `Unfulfillable` payload. -/
def unfulfillablePayloadHash (reason lastError : String) : UInt64 :=
  hashOne [.u8 2, .str reason, .str lastError]

/-- Content hash of an `InvalidTask` payload. -/
def invalidTaskPayloadHash (reason lastError : String) : UInt64 :=
  hashOne [.u8 3, .str reason, .str lastError]

/-- Content hash of a `SkippedAlreadyDone` payload. -/
def skippedPayloadHash : UInt64 := hashOne [.u8 4]

/-- Content hash of a `SetupCompleted` payload. -/
def setupCompletedPayloadHash : UInt64 := hashOne [.u8 5]

section Keys

omit [DefaultHasher]

/-- Key of a `Pending` state. -/
def keyPending (attempt : ℕ) (version : TaskVersion) : TaskJoinKey :=
  ⟨attempt, .nonTerminal, .failedLike, version, .pending, .failed, 0⟩

/-- Key of an `InFlight` state. -/
def keyInFlight (attempt : ℕ) (version : TaskVersion) : TaskJoinKey :=
  ⟨attempt, .nonTerminal, .failedLike, version, .inFlight, .failed, 0⟩

/-- Key of a `Blocked` state; it ignores the prerequisite. -/
def keyBlocked (attempt : ℕ) : TaskJoinKey :=
  ⟨attempt, .blocked, .failedLike, .default, .pending, .failed, 0⟩

/-- Key of a `Failed` state. -/
def keyFailed (attempt : ℕ) (version : TaskVersion) (payloadHash : UInt64) : TaskJoinKey :=
  ⟨attempt, .terminal, .failedLike, version, .pending, .failed, payloadHash⟩

/-- Key of an `Unfulfillable` state. -/
def keyUnfulfillable (attempt : ℕ) (version : TaskVersion) (payloadHash : UInt64) : TaskJoinKey :=
  ⟨attempt, .terminal, .failedLike, version, .pending, .unfulfillable, payloadHash⟩

/-- Key of an `InvalidTask` state. -/
def keyInvalidTask (attempt : ℕ) (version : TaskVersion) (payloadHash : UInt64) : TaskJoinKey :=
  ⟨attempt, .terminal, .invalidTask, version, .pending, .failed, payloadHash⟩

end Keys

/-- Key of a `Completed` state. -/
def keyCompleted (attempt : ℕ) : TaskJoinKey :=
  ⟨attempt, .terminal, .completed, .default, .pending, .failed, completedPayloadHash⟩

/-- Key of a `SkippedAlreadyDone` state. -/
def keySkipped (attempt : ℕ) : TaskJoinKey :=
  ⟨attempt, .terminal, .skippedAlreadyDone, .default, .pending, .failed, skippedPayloadHash⟩

/-- Key of a `SetupCompleted` state. -/
def keySetupCompleted (attempt : ℕ) : TaskJoinKey :=
  ⟨attempt, .terminal, .setupCompleted, .default, .pending, .failed, setupCompletedPayloadHash⟩

/-- The join key of a state variant at an attempt. -/
def TaskStatus.joinKey (attempt : ℕ) : TaskStatus → TaskJoinKey
  | .pending version => keyPending attempt version
  | .inFlight _ _ version => keyInFlight attempt version
  | .blocked _ => keyBlocked attempt
  | .completed => keyCompleted attempt
  | .failed kind lastError version =>
    keyFailed attempt version (failedPayloadHash kind.wireValue lastError)
  | .unfulfillable reason lastError version =>
    keyUnfulfillable attempt version (unfulfillablePayloadHash reason lastError)
  | .invalidTask reason lastError version =>
    keyInvalidTask attempt version (invalidTaskPayloadHash reason lastError)
  | .skippedAlreadyDone => keySkipped attempt
  | .setupCompleted => keySetupCompleted attempt

/-- The join key of a ledger entry. -/
def taskJoinKey (state : TaskState I) : TaskJoinKey := state.status.joinKey state.attempt

/-- The key a failure report will carry once it is turned into a state. -/
def probeKeyForFailedMutation (kind : ErrorType) (error : String) (version : TaskVersion)
    (attempt : ℕ) : TaskJoinKey :=
  match kind with
  | .unfulfillable reason =>
    keyUnfulfillable attempt version (unfulfillablePayloadHash reason error)
  | .invalidTask reason => keyInvalidTask attempt version (invalidTaskPayloadHash reason error)
  | other => keyFailed attempt version (failedPayloadHash other.wireValue error)

/-- The state variant a failure report turns into. -/
def TaskStatus.ofFailure (kind : ErrorType) (error : String) (version : TaskVersion) : TaskStatus :=
  match kind with
  | .unfulfillable reason => .unfulfillable reason error version
  | .invalidTask reason => .invalidTask reason error version
  | other => .failed other error version

/-- `task_join_key_dominates`: only a strictly greater key replaces an entry. -/
def taskJoinKeyDominates (incoming localKey : TaskJoinKey) : Bool := decide (localKey < incoming)

/-- The key folded to a single word. -/
def TaskJoinKey.hashed (k : TaskJoinKey) : UInt64 :=
  hashOne [.u32 k.attempt, .u8 k.band.rank, .u8 k.terminalRank.rank,
    .u64 k.version.primaryEpoch, .u32 k.version.seq, .u8 k.nonterminalRank.rank,
    .u8 k.failedlike.rank, .u64 k.payloadContentHash.toNat]

/-- The content term of an entry with join key `k` under key `key`. -/
def digestTermOfKey (key : TaskHash) (k : TaskJoinKey) : UInt64 :=
  hashOne [.str key, .u64 k.hashed.toNat]

/-- `task_digest_term`: the content term of a ledger entry. -/
def taskDigestTerm (key : TaskHash) (state : TaskState I) : UInt64 :=
  digestTermOfKey key (taskJoinKey state)

/-- Number of hash-prefix buckets of the range digest. -/
abbrev rangeCount : ℕ := 256

/-- The bucket of a ledger key. -/
def rangeIndex (key : TaskHash) : Fin rangeCount :=
  ⟨(hashOne [.str key]).toNat % rangeCount, Nat.mod_lt _ (by decide)⟩

omit [DefaultHasher] in
@[simp] theorem taskJoinKeyDominates_iff {incoming localKey : TaskJoinKey} :
    taskJoinKeyDominates incoming localKey = true ↔ localKey < incoming := by
  simp [taskJoinKeyDominates]

/-- The probe key of a failure report is the key of the state it turns into. -/
theorem joinKey_ofFailure (kind : ErrorType) (error : String) (version : TaskVersion)
    (attempt : ℕ) : (TaskStatus.ofFailure kind error version).joinKey attempt =
      probeKeyForFailedMutation kind error version attempt := by
  cases kind <;> rfl

variable {attempt : ℕ} {status : TaskStatus}

@[simp] theorem joinKey_attempt : (status.joinKey attempt).attempt = attempt := by
  cases status <;> rfl

/-- The band of a variant: paused, terminal or neither. -/
theorem joinKey_band : (status.joinKey attempt).band = if status.isTerminal then .terminal
      else if status.blockedOn.isSome then .blocked else .nonTerminal := by
  cases status <;> rfl

variable {k l : TaskJoinKey}

omit [DefaultHasher] in
/-- A higher attempt always wins. -/
theorem TaskJoinKey.lt_of_attempt_lt (h : k.attempt < l.attempt) : k < l := lt_iff.mpr (Or.inl h)

omit [DefaultHasher] in
/-- Within an attempt a higher band wins. -/
theorem TaskJoinKey.lt_of_band_lt (ha : k.attempt = l.attempt)
    (hb : k.band.rank < l.band.rank) : k < l :=
  lt_iff.mpr (Or.inr ⟨ha, Or.inl hb⟩)

omit [DefaultHasher] in
/-- The attempt never decreases along the key order. -/
theorem TaskJoinKey.attempt_le_of_le (h : k ≤ l) : k.attempt ≤ l.attempt := by
  by_contra hlt
  exact absurd (lt_of_attempt_lt (Nat.lt_of_not_le hlt)) (not_lt.mpr h)

end DynRunner
