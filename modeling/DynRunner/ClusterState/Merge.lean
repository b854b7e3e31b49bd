import DynRunner.ClusterState.Intern

/-!
# Merging one task state into the ledger

The join that live mutations and snapshot restores share. A winning entry is
written; a first completion resumes the tasks paused on it; a permanent failure
fails the tasks paused on it, and, through the same join, the tasks paused on those.
-/

namespace DynRunner

variable {I : Type}

/-- What a merge did. -/
inductive MergeOutcome
  | noOp
  | applied (newlyCompleted failureWon : Bool)
  deriving DecidableEq, Repr

/-- `bump_grow_max`. -/
def bumpGrowMax {K : Type} [DecidableEq K] (m : HashMap K ℕ) (k : K) (count : ℕ) : HashMap K ℕ :=
  m.insert k (max ((m.lookup k).getD 0) count)

/-- `merge_grow_max`. -/
def mergeGrowMax {K : Type} [DecidableEq K] (m incoming : HashMap K ℕ) : HashMap K ℕ :=
  incoming.entries.foldl (fun m e =>
    match m.lookup e.1 with
    | some v => if v < e.2 then m.insert e.1 e.2 else m
    | none => m.insert e.1 e.2) m

/-- The entry a paused task becomes when its prerequisite fails for good. -/
def TaskState.upstreamFailed (state : TaskState I) : TaskState I :=
  { state with status := .failed .nonRecoverable "upstream-failed" .default }

/-- The entry a paused task becomes when its prerequisite succeeds. -/
def TaskState.resumed (state : TaskState I) : TaskState I :=
  { state with status := .pending .default }

namespace ClusterState

/-- `phase_event_tally_for`. -/
def phaseEventTallyFor (s : ClusterState I) (key : PhaseId × PhaseTally) : ℕ :=
  (s.phaseEventTallies.lookup key).getD 0

/-- `record_phase_event_tally`. -/
def recordPhaseEventTally (s : ClusterState I) (key : PhaseId × PhaseTally) (count : ℕ) :
    ClusterState I :=
  { s with phaseEventTallies := bumpGrowMax s.phaseEventTallies key count }

/-- `record_task_outputs_value`: the first recorded outputs of a task stay. -/
def recordTaskOutputsValue (s : ClusterState I) (hash : TaskHash) (outputs : Option TaskOutputs) :
    ClusterState I :=
  match outputs with
  | none => s
  | some outputs =>
    if hash ∈ s.tasks then
      { s with taskOutputs := TaskDefStore.orInsert s.taskOutputs hash outputs }
    else s

variable [DefaultHasher]

/-- One iteration of `resume_blocked_on`. -/
def resumeOne (acc : ClusterState I × List (TaskInfo I)) (h : TaskHash) :
    ClusterState I × List (TaskInfo I) :=
  match acc.1.tasks.lookup h with
  | some state =>
    if state.status.blockedOn.isSome then
      (acc.1.setTaskState h state.resumed, acc.2 ++ [acc.1.taskToInfo state])
    else acc
  | none => acc

/-- `resume_blocked_on`: move every task paused on the prerequisite back to pending. -/
def resumeBlockedOn (s : ClusterState I) (prereqHash : TaskHash) :
    ClusterState I × List (TaskInfo I) :=
  ((s.blockedBy.lookup prereqHash).getD []).foldl resumeOne (s, [])

/-- The entries paused on a failed prerequisite, each with its failed replacement. -/
def blockedDependents (s : ClusterState I) (failedPrereqHash : TaskHash) :
    List (TaskHash × TaskState I) :=
  s.tasks.entries.filterMap fun e =>
    if e.2.status.blockedOn = some failedPrereqHash then some (e.1, e.2.upstreamFailed) else none

/-- Count the event of a winning terminal state for its phase. -/
def recordWin (s : ClusterState I) (incoming : TaskState I) (newlyCompleted : Bool) :
    ClusterState I :=
  if newlyCompleted || incoming.status.isFailureTerminal then
    let key := (incoming.definition.phaseId,
      if newlyCompleted then PhaseTally.completed else PhaseTally.failed)
    s.recordPhaseEventTally key (s.phaseEventTallyFor key + 1)
  else s

/-- The write of a winning state: count it, resume what it unblocks, store it, and
record its outputs. -/
def writeWinner (s : ClusterState I) (hash : TaskHash) (incoming : TaskState I)
    (newlyCompleted : Bool) (incomingOutputs : Option TaskOutputs) :
    ClusterState I × List (TaskInfo I) :=
  let s := s.recordWin incoming newlyCompleted
  let (s, resumed) := if newlyCompleted then s.resumeBlockedOn hash else (s, [])
  let s := s.setTaskState hash incoming
  (if newlyCompleted then s.recordTaskOutputsValue hash incomingOutputs else s, resumed)

variable [RecordCodec I]

/-- What a merge returns: the state, the outcome and the resumed descriptors. -/
structure MergeResult (I : Type) where
  state : ClusterState I
  outcome : MergeOutcome
  resumed : List (TaskInfo I)

/-- The verdict on an incoming state against the fat entry: `none` when it does not
dominate, otherwise whether the entry was already completed. -/
def fatVerdict (s : ClusterState I) (hash : TaskHash) (incoming : TaskState I) : Option Bool :=
  match s.tasks.lookup hash with
  | none => some false
  | some localState =>
    if taskJoinKeyDominates (taskJoinKey incoming) (taskJoinKey localState) then
      some (localState.status = .completed)
    else none

/-- The gate of `merge_task_state`: a settled entry that the incoming key dominates is
read back first, one that it does not dominate refuses the merge. -/
def mergeGate (s : ClusterState I) (hash : TaskHash) (incoming : TaskState I) :
    ClusterState I × Option Bool :=
  if hash ∈ s.tasks then (s, s.fatVerdict hash incoming)
  else if s.settledContains hash then
    match s.unsettleIfDominated hash (taskJoinKey incoming) with
    | (s, true) => (s, s.fatVerdict hash incoming)
    | (s, false) => (s, none)
  else (s, s.fatVerdict hash incoming)

/-- `merge_task_state` with `cascade_fail_blocked_dependents` inlined. The fuel bounds
the depth of the failure cascade; each level turns a paused entry into a failed one,
so the number of entries is always enough. -/
def mergeTaskStateFuel : ℕ → ClusterState I → TaskHash → TaskState I → Option TaskOutputs →
    MergeResult I
  | 0, s, _, _, _ => ⟨s, .noOp, []⟩
  | fuel + 1, s, hash, incoming, incomingOutputs =>
    match s.mergeGate hash incoming with
    | (s, none) => ⟨s, .noOp, []⟩
    | (s, some wasCompleted) =>
      let newlyCompleted := incoming.status = .completed && !wasCompleted
      let (s, resumed) := s.writeWinner hash incoming newlyCompleted incomingOutputs
      let s := if incoming.status.isCascadeTerminal then
          (s.blockedDependents hash).foldl
            (fun s d => (mergeTaskStateFuel fuel s d.1 d.2 none).state) s
        else s
      ⟨s, .applied newlyCompleted incoming.status.isFailureTerminal, resumed⟩

/-- `merge_task_state`. -/
def mergeTaskState (s : ClusterState I) (hash : TaskHash) (incoming : TaskState I)
    (incomingOutputs : Option TaskOutputs) : MergeResult I :=
  mergeTaskStateFuel (s.tasks.entries.length + 2) s hash incoming incomingOutputs

end ClusterState

end DynRunner
