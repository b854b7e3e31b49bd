import DynRunner.ClusterState.Snapshot
import DynRunner.Lib.Runs

/-!
# What a ledger operation can do

Every apply and every restore is a finite sequence of elementary steps: writing one
entry that is not settled, reading one settled entry back, changing the definition
or routing of an entry without touching its key, and changes outside the ledger. The
invariants of the ledger are proved for these four steps only.
-/

namespace DynRunner

open HashMap

variable {I : Type}

/-- The message that a mutation is about. -/
def ClusterMutation.message : ClusterMutation I → Option (String × ℕ)
  | .customMessagePosted origin seq .. => some (origin, seq)
  | .customMessageHandled origin seq | .customMessageFailed origin seq => some (origin, seq)
  | _ => none

/-- The mutations that are about the entry of one task. -/
def ClusterMutation.isAboutEntry : ClusterMutation I → Bool
  | .taskAssigned .. | .taskCompleted .. | .taskFailed .. | .taskReinjected .. | .taskRequeued ..
  | .taskRetried .. | .taskBlocked .. | .taskSkippedAlreadyDone .. | .setupCompleted ..
  | .taskPreferredSecondariesUpdated .. => true
  | _ => false

namespace ClusterState

/-- Two states with the same ledger and the same summaries of it. -/
structure SameLedger (s t : ClusterState I) : Prop where
  tasks : t.tasks = s.tasks
  settled : t.settled = s.settled
  blockedBy : t.blockedBy = s.blockedBy
  outcomeTally : t.outcomeTally = s.outcomeTally
  rangeFoldMemo : t.rangeFoldMemo = s.rangeFoldMemo

theorem SameLedger.refl (s : ClusterState I) : SameLedger s s := ⟨rfl, rfl, rfl, rfl, rfl⟩

variable {s t : ClusterState I} {h hash : TaskHash} {entry : SettledEntry I}
  {key probe : TaskJoinKey} {counts : Bool}

theorem SameLedger.trans {u : ClusterState I} (h : SameLedger s t) (h' : SameLedger t u) :
    SameLedger s u :=
  ⟨h'.tasks.trans h.tasks, h'.settled.trans h.settled, h'.blockedBy.trans h.blockedBy,
    h'.outcomeTally.trans h.outcomeTally, h'.rangeFoldMemo.trans h.rangeFoldMemo⟩

/-- Agreement of two states on everything beside the task ledger. -/
structure SameBeside (s t : ClusterState I) : Prop where
  definitions : t.definitions = s.definitions
  customMessages : t.customMessages = s.customMessages
  customTerminalWatermarks : t.customTerminalWatermarks = s.customTerminalWatermarks
  control : t.control = s.control

theorem SameBeside.refl (s : ClusterState I) : SameBeside s s := ⟨rfl, rfl, rfl, rfl⟩

theorem SameBeside.trans {u : ClusterState I} (h : SameBeside s t) (h' : SameBeside t u) :
    SameBeside s u :=
  ⟨h'.definitions.trans h.definitions, h'.customMessages.trans h.customMessages,
    h'.customTerminalWatermarks.trans h.customTerminalWatermarks, h'.control.trans h.control⟩

/-- What concerns the definitions leaves the ledger. -/
theorem SameButDefinitions.sameLedger (h : s.SameButDefinitions t) : SameLedger s t := by
  rw [SameButDefinitions] at h
  constructor <;> rw [h]

variable (s)

/-- A hash that may be written: it is in memory, or nowhere. -/
def Writable (h : TaskHash) : Prop :=
  (∃ st, s.tasks.lookup h = some st) ∨ s.settled.index.lookup h = none

/-- The record of a win leaves the ledger. -/
theorem recordWin_sameLedger (incoming : TaskState I)
    (newlyCompleted : Bool) : SameLedger s (s.recordWin incoming newlyCompleted) := by
  unfold recordWin
  split
  · exact ⟨rfl, rfl, rfl, rfl, rfl⟩
  · exact SameLedger.refl s

/-- Recording outputs leaves the ledger. -/
theorem recordTaskOutputsValue_sameLedger (hash : TaskHash)
    (outputs : Option TaskOutputs) : SameLedger s (s.recordTaskOutputsValue hash outputs) := by
  unfold recordTaskOutputsValue
  split
  · exact SameLedger.refl s
  · split
    · exact ⟨rfl, rfl, rfl, rfl, rfl⟩
    · exact SameLedger.refl s

variable {s}

/-- A hash that is neither in memory nor settled is writable. -/
theorem writable_of_not_containsTask (h : s.containsTask hash = false) : s.Writable hash := by
  right
  apply AList.lookup_eq_none.mpr
  simp only [containsTask, settledContains, Bool.or_eq_false_iff, decide_eq_false_iff_not] at h
  exact h.2

variable [DefaultHasher] [RecordCodec I]

/-- An elementary change of the ledger. -/
inductive LedgerStep : ClusterState I → ClusterState I → Prop
  | frame {s t : ClusterState I} (same : SameLedger s t) : LedgerStep s t
  | write (s : ClusterState I) (h : TaskHash) (new : TaskState I) (free : s.Writable h) :
      LedgerStep s (s.setTaskState h new)
  | retouch (s : ClusterState I) (h : TaskHash) {st new : TaskState I}
      (present : s.tasks.lookup h = some st) (status : new.status = st.status)
      (attempt : new.attempt = st.attempt) :
      LedgerStep s { s with tasks := s.tasks.insert h new }
  | rehydrate (s : ClusterState I) (h : TaskHash) {entry : SettledEntry I}
      {record : SettledRecord I} (settled : s.settled.index.lookup h = some entry)
      (absent : s.tasks.lookup h = none) (read : RecordCodec.readBack entry.record = some record) :
      LedgerStep s (s.rehydrate h entry record)

/-- A finite sequence of elementary changes. -/
abbrev LedgerSteps : ClusterState I → ClusterState I → Prop := Relation.ReflTransGen LedgerStep

/-- The same ledger is reached by no step. -/
theorem SameLedger.steps (h : SameLedger s t) : LedgerSteps s t := .single (.frame h)

/-- A write of a writable hash, as a sequence. -/
theorem LedgerSteps.write (new : TaskState I)
    (free : s.Writable h) : LedgerSteps s (s.setTaskState h new) :=
  .single (.write s h new free)

/-- Elementary changes with nothing beside the ledger: the definition store, the custom messages
and the control registers stay as they are, and without a winner so do the event tallies. -/
structure EntrySteps (counts : Bool) (s t : ClusterState I) : Prop where
  steps : LedgerSteps s t
  beside : SameBeside s t
  events : counts = false → t.phaseEventTallies = s.phaseEventTallies

theorem EntrySteps.refl (s : ClusterState I) : EntrySteps counts s s :=
  ⟨.refl, .refl s, fun _ => rfl⟩

theorem EntrySteps.trans {u : ClusterState I} (h : EntrySteps counts s t)
    (h' : EntrySteps counts t u) : EntrySteps counts s u :=
  ⟨h.steps.trans h'.steps, h.beside.trans h'.beside,
    fun hcounts => (h'.events hcounts).trans (h.events hcounts)⟩

/-- Steps that do not count are steps that may count. -/
theorem EntrySteps.counted (h : EntrySteps false s t) : EntrySteps true s t :=
  ⟨h.steps, h.beside, fun hcounts => by cases hcounts⟩

/-- Writing an entry is a step. -/
theorem EntrySteps.write (new : TaskState I) (free : s.Writable h) :
    EntrySteps counts s (s.setTaskState h new) :=
  ⟨LedgerSteps.write new free, ⟨rfl, rfl, rfl, rfl⟩, fun _ => rfl⟩

/-- Resuming one task writes at most one entry. -/
theorem resumeOne_steps (acc : ClusterState I × List (TaskInfo I)) (h : TaskHash) :
    EntrySteps counts acc.1 (resumeOne acc h).1 := by
  unfold resumeOne
  cases hst : acc.1.tasks.lookup h with
  | none => exact .refl _
  | some st =>
    dsimp only
    split
    · exact EntrySteps.write _ (.inl ⟨st, hst⟩)
    · exact .refl _

variable (s)

/-- Resuming what waits takes steps of the ledger. -/
theorem resumeBlockedOn_steps (h : TaskHash) : EntrySteps counts s (s.resumeBlockedOn h).1 :=
  foldl_related .refl .trans Prod.fst resumeOne_steps _ (s, [])

/-- The record of a win is a counted step. -/
theorem recordWin_steps (incoming : TaskState I) (newlyCompleted : Bool) :
    EntrySteps true s (s.recordWin incoming newlyCompleted) := by
  refine ⟨(recordWin_sameLedger s incoming newlyCompleted).steps, ?_, fun h => by cases h⟩
  unfold recordWin
  split <;> exact ⟨rfl, rfl, rfl, rfl⟩

/-- Recording outputs takes no step of the ledger. -/
theorem recordTaskOutputsValue_steps (hash : TaskHash) (outputs : Option TaskOutputs) :
    EntrySteps counts s (s.recordTaskOutputsValue hash outputs) := by
  unfold recordTaskOutputsValue
  split
  · exact .refl s
  · split
    · exact ⟨SameLedger.steps ⟨rfl, rfl, rfl, rfl, rfl⟩, ⟨rfl, rfl, rfl, rfl⟩, fun _ => rfl⟩
    · exact .refl s

/-- Restoring outputs takes no step of the ledger. -/
theorem restoreOutputs_steps (outputs : HashMap TaskHash TaskOutputs) :
    EntrySteps false s (s.restoreOutputs outputs) := by
  refine foldl_related .refl .trans (fun t => t) (fun t e => ?_) _ s
  split
  · exact .refl t
  · exact recordTaskOutputsValue_steps t e.1 (some e.2)

variable {s}

/-- A writable hash stays writable: no elementary change removes a fat entry or settles
one. -/
theorem LedgerStep.writable (hstep : LedgerStep s t) (free : s.Writable h) : t.Writable h := by
  cases hstep with
  | frame same => simpa only [Writable, same.tasks, same.settled] using free
  | write k new =>
    rcases free with ⟨st, hst⟩ | hnone
    · left
      rw [setTaskState_lookup]
      split
      · exact ⟨new, rfl⟩
      · exact ⟨st, hst⟩
    · exact .inr hnone
  | @retouch k st new _ _ _ =>
    rcases free with ⟨st, hst⟩ | hnone
    · left
      rw [lookup_insert_eq]
      split
      · exact ⟨new, rfl⟩
      · exact ⟨st, hst⟩
    · exact .inr hnone
  | @rehydrate k entry record _ _ _ =>
    rcases free with ⟨st, hst⟩ | hnone
    · left
      change ∃ st', (s.tasks.insert k record.state).lookup h = some st'
      rw [lookup_insert_eq]
      split
      · exact ⟨_, rfl⟩
      · exact ⟨st, hst⟩
    · right
      change (s.settled.index.erase k).lookup h = none
      rw [lookup_erase_eq]
      split
      · rfl
      · exact hnone

/-- What may be written stays so. -/
theorem LedgerSteps.writable (hsteps : LedgerSteps s t) (free : s.Writable h) : t.Writable h := by
  induction hsteps with
  | refl => exact free
  | tail _ hstep ih => exact hstep.writable ih

/-- No elementary change settles an entry. -/
theorem LedgerStep.settled_lookup (hstep : LedgerStep s t)
    (hentry : t.settled.index.lookup h = some entry) : s.settled.index.lookup h = some entry := by
  cases hstep with
  | frame same => rwa [same.settled] at hentry
  | write => exact hentry
  | retouch => exact hentry
  | rehydrate => exact lookup_of_erase hentry

/-- Steps settle nothing. -/
theorem LedgerSteps.settled_lookup (hsteps : LedgerSteps s t)
    (hentry : t.settled.index.lookup h = some entry) : s.settled.index.lookup h = some entry := by
  induction hsteps with
  | refl => exact hentry
  | tail _ hstep ih => exact ih (hstep.settled_lookup hentry)

/-- Writing a winner takes steps of the ledger. -/
theorem writeWinner_steps (s : ClusterState I) (hash : TaskHash) (incoming : TaskState I)
    (newlyCompleted : Bool) (outputs : Option TaskOutputs) (free : s.Writable hash) :
    EntrySteps true s (s.writeWinner hash incoming newlyCompleted outputs).1 := by
  have hwin := recordWin_steps s incoming newlyCompleted
  have hfree := hwin.steps.writable free
  cases newlyCompleted with
  | false => exact hwin.trans (EntrySteps.write incoming hfree)
  | true =>
    have hresume : EntrySteps true _ _ := resumeBlockedOn_steps (s.recordWin incoming true) hash
    refine hwin.trans (hresume.trans ((EntrySteps.write incoming ?_).trans
      (recordTaskOutputsValue_steps _ hash outputs)))
    exact hresume.steps.writable hfree

/-- Reading back a dominated settled entry that is not in memory. -/
theorem unsettleIfDominated_steps (s : ClusterState I) (hash : TaskHash) (key : TaskJoinKey)
    (absent : s.tasks.lookup hash = none) :
    EntrySteps false s (s.unsettleIfDominated hash key).1 := by
  unfold unsettleIfDominated settledEntry
  cases hentry : s.settled.index.lookup hash with
  | none => exact .refl s
  | some entry =>
    dsimp only
    split
    · cases hread : RecordCodec.readBack entry.record with
      | none => exact .refl s
      | some =>
        exact ⟨.single (.rehydrate s hash hentry absent hread), ⟨rfl, rfl, rfl, rfl⟩, fun _ => rfl⟩
    · exact .refl s

omit [DefaultHasher] in
/-- A successful read-back leaves the entry in memory. -/
theorem unsettleIfDominated_present (h : (s.unsettleIfDominated hash key).2 = true) :
    ∃ st, (s.unsettleIfDominated hash key).1.tasks.lookup hash = some st := by
  unfold unsettleIfDominated at h ⊢
  split
  · rename_i hentry
    simp only [hentry, Bool.false_eq_true] at h
  · rename_i entry hentry
    simp only [hentry] at h
    split
    · rename_i hdom
      simp only [hdom, if_true] at h
      split
      · rename_i hread
        simp only [hread, Bool.false_eq_true] at h
      · rename_i record _
        exact ⟨record.state, AList.lookup_insert s.tasks⟩
    · rename_i hdom
      simp only [hdom, if_false, Bool.false_eq_true] at h

/-- The gate of a merge changes nothing beyond a possible read-back, and lets only a
writable hash through. -/
theorem mergeGate_steps (s : ClusterState I) (hash : TaskHash) (incoming : TaskState I) :
    EntrySteps false s (s.mergeGate hash incoming).1 ∧
      ∀ b, (s.mergeGate hash incoming).2 = some b →
        (s.mergeGate hash incoming).1.Writable hash := by
  unfold mergeGate
  by_cases hfat : hash ∈ s.tasks
  · rw [if_pos hfat]
    exact ⟨.refl s, fun _ _ => .inl (mem_iff_lookup.mp hfat)⟩
  · rw [if_neg hfat]
    by_cases hset : s.settledContains hash = true
    · rw [if_pos hset]
      have hsteps := unsettleIfDominated_steps s hash (taskJoinKey incoming)
        (AList.lookup_eq_none.mpr hfat)
      have hpresent : (s.unsettleIfDominated hash (taskJoinKey incoming)).2 = true → _ :=
        unsettleIfDominated_present
      cases hun : s.unsettleIfDominated hash (taskJoinKey incoming) with
      | mk t unsettled =>
        rw [hun] at hsteps hpresent
        cases unsettled with
        | false => exact ⟨hsteps, fun b hb => by cases hb⟩
        | true => exact ⟨hsteps, fun _ _ => .inl (hpresent rfl)⟩
    · rw [if_neg hset]
      refine ⟨.refl s, fun _ _ => .inr (AList.lookup_eq_none.mpr ?_)⟩
      simpa [settledContains] using hset

/-- A merge, with the failure cascade it starts, is a sequence of elementary changes. -/
theorem mergeTaskStateFuel_steps (fuel : ℕ) (s : ClusterState I) (hash : TaskHash)
    (incoming : TaskState I) (outputs : Option TaskOutputs) :
    EntrySteps true s (mergeTaskStateFuel fuel s hash incoming outputs).state := by
  induction fuel generalizing s hash incoming outputs with
  | zero => exact .refl s
  | succ fuel ih =>
    obtain ⟨hsteps, hwritable⟩ := mergeGate_steps s hash incoming
    rw [mergeTaskStateFuel]
    cases hgate : s.mergeGate hash incoming with
    | mk t verdict =>
      rw [hgate] at hsteps hwritable
      cases verdict with
      | none => exact hsteps.counted
      | some wasCompleted =>
        have hwrite := writeWinner_steps t hash incoming
          (incoming.status = .completed && !wasCompleted) outputs (hwritable _ rfl)
        refine hsteps.counted.trans (hwrite.trans ?_)
        dsimp only
        split
        · exact foldl_related .refl .trans (fun u => u)
            (fun (u : ClusterState I) (d : TaskHash × TaskState I) => ih u d.1 d.2 none) _ _
        · exact .refl _

variable {outputs : Option TaskOutputs}

/-- A merge takes steps of the ledger. -/
theorem mergeTaskState_steps {incoming : TaskState I} :
    EntrySteps true s (s.mergeTaskState hash incoming outputs).state :=
  mergeTaskStateFuel_steps _ s hash incoming outputs

/-- Bringing a settled entry back takes steps of the ledger. -/
theorem taskEntryUnsettling_steps (s : ClusterState I) (hash : TaskHash) (key : TaskJoinKey) :
    EntrySteps false s (s.taskEntryUnsettling hash key).1 := by
  unfold taskEntryUnsettling
  by_cases hfat : hash ∈ s.tasks
  · simp only [hfat, if_true]
    exact .refl s
  · simp only [hfat, if_false]
    exact unsettleIfDominated_steps s hash key (AList.lookup_eq_none.mpr hfat)

/-- A candidate takes steps of the ledger. -/
theorem applyCandidate_steps {status : TaskStatus} {attempt : ℕ} :
    EntrySteps true s (s.applyCandidate hash probe status attempt outputs).state := by
  have hsteps := taskEntryUnsettling_steps s hash probe
  unfold applyCandidate
  cases hentry : s.taskEntryUnsettling hash probe with
  | mk t found =>
    rw [hentry] at hsteps
    cases found with
    | none => exact hsteps.counted
    | some => exact hsteps.counted.trans mergeTaskState_steps

omit [RecordCodec I] in
/-- A rewrite either changes nothing or writes an entry that is in memory. -/
theorem applyRewrite_cases {rewrite : TaskState I → Option (TaskStatus × ℕ)} :
    s.applyRewrite hash rewrite = (s, .noOp) ∨
      ∃ st status attempt, s.tasks.lookup hash = some st ∧ rewrite st = some (status, attempt) ∧
        s.applyRewrite hash rewrite =
          (s.setTaskState hash { st with status := status, attempt := attempt }, .applied) := by
  unfold applyRewrite
  cases hst : s.tasks.lookup hash with
  | none => exact .inl rfl
  | some st =>
    cases hrw : rewrite st with
    | none => exact .inl (by simp only [hrw])
    | some new =>
      refine .inr ⟨st, new.1, new.2, rfl, hrw, ?_⟩
      have hmem : hash ∈ s.tasks := mem_iff_lookup.mpr ⟨st, hst⟩
      simp only [hrw, rewriteTaskState, if_pos hmem]

/-- A rewriting takes steps of the ledger. -/
theorem applyRewrite_steps (s : ClusterState I) (hash : TaskHash)
    (rewrite : TaskState I → Option (TaskStatus × ℕ)) :
    EntrySteps false s (s.applyRewrite hash rewrite).1 := by
  rcases applyRewrite_cases with h | ⟨st, status, attempt, hst, _, h⟩
  · rw [h]
    exact .refl s
  · rw [h]
    exact EntrySteps.write _ (.inl ⟨st, hst⟩)

/-- An entry is added: ignored when it is known, dropped when its definition is refused, and
otherwise written. -/
def Adds (acc : ApplyResult I) (defId : Option TaskDefId) (hash : TaskHash) (task : TaskInfo I)
    (status : TaskStatus) (r : ApplyResult I) : Prop :=
  let intern := acc.state.internTaskDefAt defId hash task
  (acc.state.containsTask hash = true ∧ r = acc) ∨ acc.state.containsTask hash = false ∧
    ((intern.2 = none ∧ r.state = intern.1 ∧ r.outcome = acc.outcome) ∨
      ∃ definition routing, intern.2 = some (definition, routing) ∧
        r.state = intern.1.setTaskState hash ⟨definition, routing, 0, status⟩ ∧
        r.outcome = .applied)

variable {acc r : ApplyResult I} {defId : Option TaskDefId} {task : TaskInfo I}
    {status : TaskStatus}

omit [RecordCodec I] in
/-- A spawned task is added with its class. -/
theorem adds_spawnTask [Identifier I] (acc : ApplyResult I)
    (spawned : TaskInfo I × Option TaskDefId) :
    Adds acc spawned.2 (computeTaskHash spawned.1) spawned.1
      (acc.state.spawnClass spawned.1).status (spawnTask acc spawned) := by
  obtain ⟨task, wireDefId⟩ := spawned
  rw [spawnTask]
  by_cases hin : acc.state.containsTask (computeTaskHash task) = true
  · rw [if_pos hin]
    exact .inl ⟨hin, rfl⟩
  · rw [if_neg hin]
    refine .inr ⟨by simpa using hin, ?_⟩
    cases acc.state.internTaskDefAt wireDefId (computeTaskHash task) task with
    | mk t placed =>
      cases placed with
      | none => exact .inl ⟨rfl, rfl, rfl⟩
      | some placed => exact .inr ⟨placed.1, placed.2, rfl, rfl, rfl⟩

/-- A discovered task is added as pending. -/
theorem adds_taskAdded [Identifier I] [DonePayloadCodec] (s : ClusterState I) (hash : TaskHash)
    (task : TaskInfo I) (defId : Option TaskDefId) :
    Adds ⟨s, .noOp, [], []⟩ defId hash task (.pending .default)
      (s.apply (.taskAdded hash task defId)) := by
  rw [apply]
  by_cases hset : s.settledContains hash = true
  · rw [if_pos hset]
    exact .inl ⟨by simp [containsTask, hset], rfl⟩
  · rw [if_neg hset]
    by_cases hfat : hash ∈ s.tasks
    · rw [if_pos hfat]
      exact .inl ⟨by simp [containsTask, hfat], rfl⟩
    · rw [if_neg hfat]
      refine .inr ⟨by simp [containsTask, hfat, hset], ?_⟩
      dsimp only
      cases s.internTaskDefAt defId hash task with
      | mk t placed =>
        cases placed with
        | none => exact .inl ⟨rfl, rfl, rfl⟩
        | some placed => exact .inr ⟨placed.1, placed.2, rfl, rfl, rfl⟩

/-- Adding a task takes steps of the ledger. -/
theorem Adds.steps (h : Adds acc defId hash task status r) : LedgerSteps acc.state r.state := by
  have hsteps := (internTaskDefAt_same acc.state defId hash task).sameLedger.steps
  rcases h with ⟨-, rfl⟩ | ⟨hnew, ⟨-, hstate, -⟩ | ⟨_, _, -, hstate, -⟩⟩
  · exact .refl
  · rw [hstate]
    exact hsteps
  · rw [hstate]
    exact hsteps.trans (LedgerSteps.write _ (hsteps.writable (writable_of_not_containsTask hnew)))

/-- Spawning a task takes steps of the ledger. -/
theorem spawnTask_steps [Identifier I] (acc : ApplyResult I)
    (spawned : TaskInfo I × Option TaskDefId) :
    LedgerSteps acc.state (spawnTask acc spawned).state := (adds_spawnTask acc spawned).steps

/-- Registering a cell takes steps of the ledger. -/
theorem applySecondaryCellRegistered_steps {cellId : SecondaryCellId} :
    LedgerSteps s (s.applySecondaryCellRegistered hash cellId).1 := by
  unfold applySecondaryCellRegistered
  cases s.definitions.internCellAt cellId hash with
  | error => exact .refl
  | ok defs =>
    have hdefs : SameLedger s { s with definitions := defs } := ⟨rfl, rfl, rfl, rfl, rfl⟩
    dsimp only
    split
    · exact hdefs.steps
    · cases hst : s.tasks.lookup hash with
      | none => exact hdefs.steps
      | some => exact hdefs.steps.tail (.retouch _ hash hst rfl rfl)

/-- Changing the preferred secondaries takes steps of the ledger. -/
theorem applyPreferredSecondaries_steps {secondaries : List String} {version : TaskVersion} :
    EntrySteps false s (s.applyPreferredSecondaries hash secondaries version).1 := by
  unfold applyPreferredSecondaries
  cases hst : s.tasks.lookup hash with
  | none => exact .refl s
  | some =>
    dsimp only
    split
    · exact .refl s
    · exact ⟨.single (.retouch s hash hst rfl rfl), ⟨rfl, rfl, rfl, rfl⟩, fun _ => rfl⟩

section Custom

omit [DefaultHasher] [RecordCodec I]

/-- Agreement of two states on everything but the custom messages. -/
def SameButInbox (s t : ClusterState I) : Prop :=
  t = { s with
    customMessages := t.customMessages
    customTerminalWatermarks := t.customTerminalWatermarks }

theorem SameButInbox.trans {u : ClusterState I} (h : s.SameButInbox t)
    (h' : t.SameButInbox u) : s.SameButInbox u := by
  rw [SameButInbox] at h
  exact Eq.trans h' (by rw [h])

/-- What concerns the inbox leaves the ledger. -/
theorem SameButInbox.sameLedger (h : s.SameButInbox t) : SameLedger s t := by
  rw [SameButInbox] at h
  constructor <;> rw [h]

/-- Compaction concerns the inbox. -/
theorem compactCustomWatermark_sameButInbox (s : ClusterState I) (origin : String) :
    s.SameButInbox (s.compactCustomWatermark origin) := by
  unfold compactCustomWatermark
  dsimp only
  split <;> rfl

/-- Settling a message concerns the inbox. -/
theorem settleCustomMessage_sameButInbox {origin : String} {seq : ℕ} {state : CustomMsgState} :
    s.SameButInbox (s.settleCustomMessage origin seq state) := by
  refine SameButInbox.trans ?_ (compactCustomWatermark_sameButInbox _ origin)
  rfl

/-- Pruning concerns the inbox. -/
theorem pruneBelowCustomWatermark_sameButInbox (s : ClusterState I) (origin : String) :
    s.SameButInbox (s.pruneBelowCustomWatermark origin) := by
  unfold pruneBelowCustomWatermark
  split <;> rfl

/-- Restoring a message concerns the inbox. -/
theorem restoreCustomMessage_sameButInbox (acc : ClusterState I × List String)
    (e : Sigma fun _ : String × ℕ => CustomMsgState) :
    acc.1.SameButInbox (restoreCustomMessage acc e).1 := by
  unfold restoreCustomMessage
  dsimp only
  split
  · rfl
  · split <;> rfl

/-- Restoring the messages concerns the inbox. -/
theorem restoreCustom_sameButInbox (s : ClusterState I)
    (messages : HashMap (String × ℕ) CustomMsgState) (watermarks : HashMap String ℕ) :
    s.SameButInbox (s.restoreCustom messages watermarks) := by
  have hmarks : s.SameButInbox
      { s with customTerminalWatermarks := mergeGrowMax s.customTerminalWatermarks watermarks } :=
    rfl
  refine hmarks.trans ((foldl_related (R := SameButInbox) (fun _ => rfl) .trans (fun t => t)
    pruneBelowCustomWatermark_sameButInbox watermarks.keys _).trans ?_)
  exact (foldl_related (R := SameButInbox) (fun _ => rfl) .trans Prod.fst
    restoreCustomMessage_sameButInbox _ (_, [])).trans
    (foldl_related (R := SameButInbox) (fun _ => rfl) .trans (fun t => t)
      compactCustomWatermark_sameButInbox _ _)

/-- Restoring outputs leaves the ledger. -/
theorem restoreOutputs_sameLedger {outputs : HashMap TaskHash TaskOutputs} :
    SameLedger s (s.restoreOutputs outputs) := by
  refine foldl_related .refl .trans (fun t => t) (fun t e => ?_) _ s
  split
  · exact SameLedger.refl t
  · exact recordTaskOutputsValue_sameLedger t e.1 (some e.2)

end Custom

/-- A mutation about a custom message changes nothing else. -/
theorem apply_sameButInbox [Identifier I] [DonePayloadCodec] {m : ClusterMutation I}
    (hm : m.message.isSome) : s.SameButInbox (s.apply m).state := by
  cases m with
  | customMessagePosted =>
    rw [apply, applyCustomMessagePosted]
    split
    · rfl
    · split <;> rfl
  | customMessageHandled =>
    rw [apply, applyCustomMessageHandled]
    split
    · rfl
    · split
      · rfl
      all_goals exact settleCustomMessage_sameButInbox
  | customMessageFailed =>
    rw [apply, applyCustomMessageFailed]
    split
    · rfl
    · split
      · rfl
      · rfl
      all_goals exact settleCustomMessage_sameButInbox
  | _ => cases hm

/-- A mutation about one task changes nothing beside the ledger, and counts an event only if it
reports on the task. -/
theorem apply_entrySteps [Identifier I] [DonePayloadCodec] {m : ClusterMutation I}
    (hm : m.isAboutEntry = true) :
    EntrySteps (m matches .taskAssigned .. | .taskCompleted .. | .taskFailed ..)
      s (s.apply m).state := by
  cases m with
  | taskAssigned | taskCompleted | taskFailed => exact applyCandidate_steps
  | taskReinjected | taskRequeued | taskBlocked | taskSkippedAlreadyDone =>
    exact applyRewrite_steps s _ _
  | taskRetried hash =>
    exact (taskEntryUnsettling_steps s hash _).trans (applyRewrite_steps _ hash _)
  | setupCompleted hash =>
    have hsteps := applyRewrite_steps s hash setupRewrite
    rw [apply]
    cases hrw : s.applyRewrite hash setupRewrite with
    | mk t outcome =>
      rw [hrw] at hsteps
      cases outcome with
      | noOp => exact hsteps
      | applied => exact hsteps.trans (resumeBlockedOn_steps t hash)
  | taskPreferredSecondariesUpdated => exact applyPreferredSecondaries_steps
  | _ => cases hm

/-- **Every apply is a sequence of elementary changes of the ledger.** -/
theorem apply_steps [Identifier I] [DonePayloadCodec] (s : ClusterState I)
    (m : ClusterMutation I) : LedgerSteps s (s.apply m).state := by
  cases m with
  | taskAdded hash task defId => exact (adds_taskAdded s hash task defId).steps
  | tasksSpawned =>
    exact foldl_related (fun _ => .refl) .trans ApplyResult.state spawnTask_steps _
      ⟨s, .noOp, [], []⟩
  | secondaryCellRegistered => exact applySecondaryCellRegistered_steps
  | customMessagePosted | customMessageHandled | customMessageFailed =>
    exact (apply_sameButInbox rfl).sameLedger.steps
  | control =>
    apply SameLedger.steps
    rw [apply]
    dsimp only
    split <;> exact ⟨rfl, rfl, rfl, rfl, rfl⟩
  | _ => exact (apply_entrySteps rfl).steps

omit [RecordCodec I] in
/-- A committed batch leaves everything beside the ledger. -/
theorem commitSpill_sameBeside {receipt : List (WrittenRecord I)} :
    SameBeside s (s.commitSpill receipt) := by
  refine foldl_related .refl .trans (fun t => t) (fun t written => ?_) receipt s
  unfold commitRecord
  split
  · exact .refl t
  · split
    · exact .refl t
    · split
      · exact .refl t
      · exact ⟨rfl, rfl, rfl, rfl⟩

/-- Restoring an entry takes steps of the ledger. -/
theorem restoreEntry_steps (outputs : HashMap TaskHash TaskOutputs)
    (acc : ClusterState I × List (TaskInfo I)) (e : TaskHash × TaskState I) :
    LedgerSteps acc.1 (restoreEntry outputs acc e).1 :=
  (registerRestoredDef_same acc.1 e.1 e.2.definition).sameLedger.steps.trans
    mergeTaskState_steps.steps

variable {order : List (TaskHash × TaskState I)}

/-- Restoring the tasks takes steps of the ledger. -/
theorem restoreTasks_steps {outputs : HashMap TaskHash TaskOutputs} :
    LedgerSteps s (s.restoreTasks outputs order).1 :=
  (resumeDefAllocFloor_same s).sameLedger.steps.trans
    (foldl_related (fun _ => .refl) .trans Prod.fst (restoreEntry_steps outputs) order
      (s.resumeDefAllocFloor, []))

/-- After its task loop a restore leaves the ledger alone. -/
theorem restoreInOrder_sameLedger {snap : ClusterStateSnapshot I} :
    SameLedger (s.restoreTasks snap.taskOutputs order).1 (s.restoreInOrder snap order).1 := by
  unfold restoreInOrder
  generalize s.restoreTasks snap.taskOutputs order = r
  have hcontrol : SameLedger r.1 { r.1 with control := r.1.control.restore snap.control } :=
    ⟨rfl, rfl, rfl, rfl, rfl⟩
  have htallies : ∀ t : ClusterState I, SameLedger t { t with
      phaseEventTallies := mergeGrowMax t.phaseEventTallies snap.phaseEventTallies } :=
    fun _ => ⟨rfl, rfl, rfl, rfl, rfl⟩
  exact hcontrol.trans (restoreOutputs_sameLedger.trans
    ((htallies _).trans (restoreCustom_sameButInbox _ _ _).sameLedger))

/-- **Every restore is a sequence of elementary changes of the ledger.** -/
theorem restoreInOrder_steps (s : ClusterState I) (snap : ClusterStateSnapshot I)
    (order : List (TaskHash × TaskState I)) : LedgerSteps s (s.restoreInOrder snap order).1 :=
  restoreTasks_steps.trans restoreInOrder_sameLedger.steps

end ClusterState

end DynRunner
