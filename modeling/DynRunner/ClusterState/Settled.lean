import DynRunner.ClusterState.Write

/-!
# Settling terminal entries to disk

A terminal entry that can only be revived by a dominating write may be spilled: its
body goes to a segment file, a small index entry stays in memory. Spilling takes two
steps, `collectSpillBatch` and, after the write, `commitSpill`; the ledger may change
in between. An incoming write that dominates a settled entry reads the body back.
-/

namespace DynRunner

variable {I : Type}

/-- What reading a flushed record back from its segment gives: the decoded record,
or `none` when the read or the decoding fails. File access and the record encoding
are outside the modelled code. -/
class RecordCodec (I : Type) where
  readBack : SettledRecord I → Option (SettledRecord I)

namespace Sample

/-- A codec to run the model with. Like the record encoding it skips the resolved path of
the routing tail and keeps the rest. -/
scoped instance skippingCodec : RecordCodec I where
  readBack record := some { record with state := { record.state with
    routing := { record.state.routing with resolvedPath := none } } }

end Sample

/-- A candidate captured by `collect_spill_batch`. -/
structure SpillCandidate (I : Type) where
  hash : TaskHash
  state : TaskState I
  outputs : Option TaskOutputs
  joinKey : TaskJoinKey
  deriving DecidableEq

/-- A flushed record: the captured key, and the body now held by the segment. -/
structure WrittenRecord (I : Type) where
  hash : TaskHash
  joinKey : TaskJoinKey
  record : SettledRecord I
  deriving DecidableEq

/-- The outcome of a successful `write_spill_batch`: one written record for each
candidate, in order. -/
def writeSpillBatch (batch : List (SpillCandidate I)) : List (WrittenRecord I) :=
  batch.map fun cand => ⟨cand.hash, cand.joinKey, ⟨cand.hash, cand.state, cand.outputs⟩⟩

/-- Failure kinds that a retry bucket picks up again. -/
def ErrorType.retryable : ErrorType → Bool
  | .recoverable => true
  | .resourceExhausted kind => kind = "memory"
  | _ => false

/-- `settle_eligible`: the states that leave memory. -/
def settleEligible : TaskStatus → Bool
  | .completed | .skippedAlreadyDone | .setupCompleted | .invalidTask .. => true
  | .failed kind _ _ => !kind.retryable
  | .pending .. | .inFlight .. | .blocked .. | .unfulfillable .. => false

/-- `settled_class_of`. -/
def settledClassOf : TaskStatus → Option SettledClass
  | .completed => some .completed
  | .skippedAlreadyDone => some .skippedAlreadyDone
  | .setupCompleted => some .setupCompleted
  | .invalidTask .. => some .invalidTask
  | .failed kind _ _ => if kind.retryable then none else some (.failedFinal kind)
  | _ => none

variable (s : SettledStore I)

/-- `identity_for_def_id`: the identity of a settled definition. -/
def SettledStore.identityForDefId (id : TaskDefId) : Option (PhaseId × String) :=
  (s.defIdToHash.lookup id).bind fun hash =>
    (s.index.lookup hash).map fun entry => (entry.phaseId, entry.taskId)

/-- `is_def_id_settled`. -/
def SettledStore.isDefIdSettled (id : TaskDefId) : Bool :=
  decide (id ∈ s.defIdToHash)

/-- `max_def_id`: the highest bound id among the settled entries. -/
def SettledStore.maxDefId : Option ℕ :=
  (s.index.entries.filterMap fun e =>
    if e.2.defId = TaskDefId.unbound then none else some e.2.defId).max?

namespace ClusterState

variable (s : ClusterState I)

/-- `settled_contains`. -/
def settledContains (hash : TaskHash) : Bool := decide (hash ∈ s.settled.index)

/-- `settled_entry`. -/
def settledEntry (hash : TaskHash) : Option (SettledEntry I) :=
  s.settled.index.lookup hash

/-- `contains_task`: fat or settled. -/
def containsTask (hash : TaskHash) : Bool :=
  decide (hash ∈ s.tasks) || s.settledContains hash

/-- `resolve_dep_refs`: edges back to identities, through the settled index where the
definition store has no slot. -/
def resolveDepRefs (refs : List TaskDepRef) : List TaskDep :=
  s.definitions.resolveDepRefsWithFallback refs s.settled.identityForDefId

/-- `task_to_info`. -/
def taskToInfo (state : TaskState I) : TaskInfo I :=
  state.definition.toTaskInfo state.routing (s.resolveDepRefs state.definition.taskDependsOn)

/-- `attach_spill_segment`: from now on entries may settle. -/
def attachSpillSegment : ClusterState I :=
  { s with settled := { s.settled with hasWriter := true } }

/-- `install_settled_base`: adopt a donor's settled store and seed the outcome tally
from it. -/
def installSettledBase (base : SettledStore I) : ClusterState I :=
  { s with
    settled := { base with hasWriter := s.settled.hasWriter }
    outcomeTally := base.index.entries.foldl
      (fun tally e => tally.swap none (some (settledBucketOf e.2.settledClass))) s.outcomeTally }

section Spill

variable [DefaultHasher]

/-- `collect_spill_batch`: clone up to `maxEntries` eligible entries. -/
def collectSpillBatch (s : ClusterState I) (maxEntries : ℕ) : List (SpillCandidate I) :=
  if s.settled.hasWriter then
    ((s.tasks.entries.filter fun e => settleEligible e.2.status).take maxEntries).map fun e =>
      ⟨e.1, e.2, s.taskOutputs.lookup e.1, taskJoinKey e.2⟩
  else []

/-- The content term of a task's published outputs. -/
def outputsDigestTerm (hash : TaskHash) (outputs : TaskOutputs) : UInt64 :=
  DefaultHasher.hashOne (.str hash :: .u64 outputs.length :: outputs.flatMap fun kv =>
    match kv.2 with
    | .inline value => [.str kv.1, .u64 0, .str value]
    | .file path => [.str kv.1, .u64 1, .str path])

/-- The index entry that replaces a fat entry. -/
def settledEntryOf (s : ClusterState I) (written : WrittenRecord I) (state : TaskState I)
    (settledClass : SettledClass) : SettledEntry I :=
  { taskId := state.definition.taskId
    phaseId := state.definition.phaseId
    taskDependsOn := s.resolveDepRefs state.definition.taskDependsOn
    settledClass := settledClass
    joinKey := written.joinKey
    defId := state.definition.defId
    digestContribution := taskDigestTerm written.hash state
    outputsDigestContribution := (s.taskOutputs.lookup written.hash).map
      (outputsDigestTerm written.hash)
    record := written.record }

/-- Evict one fat entry into the settled index. -/
def settle (s : ClusterState I) (hash : TaskHash) (entry : SettledEntry I) : ClusterState I :=
  { s with
    tasks := s.tasks.erase hash
    taskOutputs := s.taskOutputs.erase hash
    settled := { s.settled with
      index := s.settled.index.insert hash entry
      defIdToHash := if entry.defId = TaskDefId.unbound then s.settled.defIdToHash
        else s.settled.defIdToHash.insert entry.defId hash
      tasksHashAcc := s.settled.tasksHashAcc ^^^ entry.digestContribution
      taskOutputsHashAcc := s.settled.taskOutputsHashAcc ^^^
        entry.outputsDigestContribution.getD 0
      settledOutputsCount := s.settled.settledOutputsCount +
        if entry.outputsDigestContribution.isSome then 1 else 0 } }

/-- One iteration of `commit_spill`: evict the entry unless it is gone, has moved to
another key since it was captured, or is no longer in a settled class. -/
def commitRecord (s : ClusterState I) (written : WrittenRecord I) : ClusterState I :=
  match s.tasks.lookup written.hash with
  | none => s
  | some state =>
    if taskJoinKey state ≠ written.joinKey then s
    else match settledClassOf state.status with
      | none => s
      | some settledClass =>
        s.settle written.hash (s.settledEntryOf written state settledClass)

/-- `commit_spill`. -/
def commitSpill (s : ClusterState I) (receipt : List (WrittenRecord I)) : ClusterState I :=
  receipt.foldl commitRecord s

end Spill

/-- Bring a settled entry back into memory with the body read from its segment. -/
def rehydrate (s : ClusterState I) (hash : TaskHash) (entry : SettledEntry I)
    (record : SettledRecord I) : ClusterState I :=
  { s with
    tasks := s.tasks.insert hash record.state
    taskOutputs := match entry.outputsDigestContribution, record.outputs with
      | some _, some outputs => TaskDefStore.orInsert s.taskOutputs hash outputs
      | _, _ => s.taskOutputs
    settled := { s.settled with
      index := s.settled.index.erase hash
      defIdToHash := if entry.defId = TaskDefId.unbound then s.settled.defIdToHash
        else s.settled.defIdToHash.erase entry.defId
      tasksHashAcc := s.settled.tasksHashAcc ^^^ entry.digestContribution
      taskOutputsHashAcc := s.settled.taskOutputsHashAcc ^^^
        entry.outputsDigestContribution.getD 0
      settledOutputsCount := s.settled.settledOutputsCount -
        if entry.outputsDigestContribution.isSome then 1 else 0 } }

variable [RecordCodec I]

/-- `settled_record`: the body of a settled entry. -/
def settledRecord (s : ClusterState I) (hash : TaskHash) :
    Option (TaskState I × Option TaskOutputs) :=
  (s.settledEntry hash).bind fun entry =>
    (RecordCodec.readBack entry.record).map fun record => (record.state, record.outputs)

/-- `unsettle_if_dominated`. -/
def unsettleIfDominated (s : ClusterState I) (hash : TaskHash) (incomingKey : TaskJoinKey) :
    ClusterState I × Bool :=
  match s.settledEntry hash with
  | none => (s, false)
  | some entry =>
    if taskJoinKeyDominates incomingKey entry.joinKey then
      match RecordCodec.readBack entry.record with
      | none => (s, false)
      | some record => (s.rehydrate hash entry record, true)
    else (s, false)

/-- `task_entry_unsettling`: look an entry up, reading it back first when the probe
dominates its settled key. -/
def taskEntryUnsettling (s : ClusterState I) (hash : TaskHash) (incomingKey : TaskJoinKey) :
    ClusterState I × Option (TaskState I) :=
  let s := if hash ∈ s.tasks then s else (s.unsettleIfDominated hash incomingKey).1
  (s, s.tasks.lookup hash)

end ClusterState

end DynRunner
