import DynRunner.Ledger.RestoreConflict
import DynRunner.Tally.Events

/-!
# Mutations and restores as sequences of changes

Every mutation and every restored snapshot is a sequence of the changes of a ledger and its
tallies. Two things fall outside: a mutation may open a task again that has failed, and a task may
be spawned as failed, which shows an event without counting it.
-/

namespace DynRunner

open Ledger TaskState List

variable {I : Type}

/-- A task that is not over is above the terminal keys of earlier attempts only. -/
theorem TaskState.reaches_of_open [DefaultHasher] {st : TaskState I}
    (hopen : st.status.isTerminal = false) {status : TaskStatus} :
    (taskJoinKey st).Reaches (status.joinKey st.attempt) := by
  refine .of_band_ne (fun hband => ?_) ?_
  · rw [taskJoinKey, joinKey_band, hopen, if_neg Bool.false_ne_true] at hband
    split_ifs at hband
  · rw [taskJoinKey, joinKey_attempt, joinKey_attempt]

namespace Ledger

variable [DefaultHasher]

variable {L : Ledger I} {h : TaskHash} {new st : TaskState I}

/-- Rewriting an entry. -/
theorem Raises.rewrite {status : TaskStatus} {attempt : ℕ} (hst : L h = some st)
    (hreach : (taskJoinKey st).Reaches (status.joinKey attempt)) :
    L.Raises (L.put h { st with status, attempt }) := by
  refine .put fun st' hst' => ?_
  cases hst.symm.trans hst'
  exact ⟨hreach, rfl⟩

theorem Raises.trans {M N : Ledger I} (h : L.Raises M) (h' : M.Raises N) : L.Raises N := by
  intro x st hst
  obtain ⟨st', hst', hreach, hphase⟩ := h x st hst
  obtain ⟨st'', hst'', hreach', hphase'⟩ := h' x st' hst'
  exact ⟨st'', hst'', hreach.trans hreach', hphase'.trans hphase⟩

/-- A state that is not counted shows no event. -/
theorem shows_put_of_event_none {e : TallyEvent}
    (hnew : new.event h = none) (he : (L.put h new).Shows e) : L.Shows e := by
  rcases shows_put he with he | he
  · rw [hnew] at he
    cases he
  · exact he

end Ledger

namespace ClusterState

variable [DefaultHasher]

/-- A mutation opens a failed task again in an attempt that is over. -/
def Reopens [RecordCodec I] (s : ClusterState I) : ClusterMutation I → Prop
  | .taskReinjected hash version =>
    ∃ st, s.logical hash = some st ∧ (reinjectRewrite version st).isSome = true
  | .taskRetried hash attempt version =>
    ∃ st, s.logical hash = some st ∧ (retryRewrite attempt version st).isSome = true ∧
      attempt ≤ st.attempt
  | _ => False

variable {s : ClusterState I} {m : ClusterMutation I} {h : TaskHash} {status : TaskStatus}

/-- A rule that does not reopen its task leaves no terminal key uncovered, and what it stores is
not counted. -/
theorem reaches_of_rule [RecordCodec I]
    {rule : TaskState I → Option (TaskStatus × ℕ)} {st : TaskState I}
    {attempt : ℕ} (hopen : ¬s.Reopens m) (hm : m.rewriteRule = some (h, rule))
    (hst : s.logical h = some st) (hrule : rule st = some (status, attempt)) :
    (taskJoinKey st).Reaches (status.joinKey attempt) ∧
      ({ st with status, attempt } : TaskState I).event h = none := by
  rcases ClusterMutation.rewriteRule_cases hm hrule with ⟨version, rfl, -⟩ |
    ⟨_, rfl, rfl, rfl, _, _, _, hstatus⟩ | ⟨version, rfl, rfl, -⟩ |
    ⟨_, rfl, rfl, rfl, _, hstatus⟩ | ⟨rfl, rfl, rfl, _, hstatus⟩
  · cases hm
    exact (hopen ⟨st, hst, by rw [hrule]; rfl⟩).elim
  · exact ⟨reaches_of_open (by rw [hstatus]; rfl), rfl⟩
  · cases hm
    have hlater : st.attempt < attempt :=
      not_le.mp fun hle => hopen ⟨st, hst, by rw [hrule]; rfl, hle⟩
    refine ⟨.of_le (TaskJoinKey.lt_of_attempt_lt ?_).le, rfl⟩
    rwa [taskJoinKey, joinKey_attempt, joinKey_attempt]
  all_goals exact ⟨reaches_of_open (by rw [hstatus]; rfl), rfl⟩

/-- What a mutation does that neither reports an outcome, nor spawns, nor reopens. -/
theorem Ledger.Touched.still [RecordCodec I]
    {M : Ledger I} (htouched : s.logical.Touched m M) (hopen : ¬s.Reopens m) :
    s.logical.Raises M ∧ ∀ e, M.Shows e → s.logical.Shows e := by
  cases htouched with
  | same => exact ⟨.refl _, fun _ he => he⟩
  | insert definition routing _ hnew =>
    refine ⟨.put fun st hst => ?_, fun e he => shows_put_of_event_none rfl he⟩
    rw [hnew] at hst
    cases hst
  | @rewrite h rule st status attempt hm hst hrule =>
    obtain ⟨hreach, hevent⟩ := reaches_of_rule hopen hm hst hrule
    exact ⟨.rewrite hst hreach, fun e he => shows_put_of_event_none hevent he⟩
  | @setup h st status attempt _ hst hrule =>
    have hnew : (taskJoinKey st).Reaches (status.joinKey attempt) ∧
        ({ st with status, attempt } : TaskState I).event h = none := by
      unfold setupRewrite at hrule
      split at hrule <;> cases hrule <;> rename_i hstatus <;>
        exact ⟨reaches_of_open (by rw [hstatus]; rfl), rfl⟩
    refine ⟨(Ledger.Raises.rewrite hst hnew.1).trans (raises_resumeOn h), fun e he => ?_⟩
    exact shows_put_of_event_none hnew.2 (shows_resumeOn he)
  | @retouch h st st' hst hstatus hattempt hcore =>
    have hphase : st'.definition.core.phaseId = st.definition.core.phaseId := by rw [hcore]
    change st'.definition.phaseId = st.definition.phaseId at hphase
    have hkey : taskJoinKey st' = taskJoinKey st := by
      rw [taskJoinKey, taskJoinKey, hstatus, hattempt]
    refine ⟨.put fun old hold => ?_, fun e he => ?_⟩
    · cases hst.symm.trans hold
      exact ⟨.of_le hkey.ge, hphase⟩
    · rcases shows_put he with he | he
      · have hevent : st'.event h = st.event h := by
          rw [event, event, eventTally, eventTally, hstatus, hphase, hkey]
        exact .of_event hst (hevent.symm.trans he)
      · exact he

/-! ## What is counted only in a merge -/

variable [RecordCodec I]

/-- An outcome report. -/
theorem applyCandidate_moves (hs : s.Consistent) (hlegible : s.Legible)
    {attempt : ℕ}
    (hspreads : status.isCascadeTerminal = true → Spreads V s.logical)
    (hv : ∀ st, s.logical h = some st → V h { st with status, attempt })
    (hagain : ∀ st, s.logical h = some st → st.status = .completed → status = .completed →
      st.attempt < attempt → ∀ e, W e) {outputs : Option TaskOutputs} :
    Moves V W s (s.applyCandidate h (status.joinKey attempt) status attempt outputs).state := by
  obtain ⟨t, hsteps, hlogical, ⟨hresult, -⟩ | ⟨st, hst, hresult⟩⟩ :=
    applyCandidate_cases hs hlegible h status attempt outputs
  · rw [hresult]
    exact .single (.same hlogical (hsteps.events rfl))
  · rw [hresult]
    refine .head (.same hlogical (hsteps.events rfl)) (mergeTaskStateFuel_moves _
      (hs.steps hlegible.keeps hsteps.steps) (hlegible.steps hsteps.steps) ?_ (hv st hst) ?_
      outputs).1
    · rw [hlogical]
      exact hspreads
    · intro st' hst' hcompleted hdone hlt e _
      rw [hlogical] at hst'
      cases hst.symm.trans hst'
      refine hagain st hst hcompleted hdone ?_ e
      -- Two completions differ in their attempt only.
      rw [taskJoinKey, taskJoinKey, hcompleted, hdone] at hlt
      refine lt_of_le_of_ne ?_ fun heq => ?_
      · have hle := TaskJoinKey.attempt_le_of_le hlt.le
        rwa [joinKey_attempt, joinKey_attempt] at hle
      · rw [heq] at hlt
        exact lt_irrefl _ hlt

variable [Identifier I]

omit [RecordCodec I] [Identifier I] in
/-- Adding a task counts no event. -/
theorem Adds.phaseEventTallies {acc r : ApplyResult I} {defId : Option TaskDefId} {hash : TaskHash}
    {task : TaskInfo I} {status : TaskStatus} (h : Adds acc defId hash task status r) :
    r.state.phaseEventTallies = acc.state.phaseEventTallies := by
  rcases h with ⟨-, rfl⟩ | ⟨-, ⟨-, hstate, -⟩ | ⟨_, _, -, hstate, -⟩⟩
  · rfl
  all_goals
    rw [hstate]
    rfl

omit [DefaultHasher] [RecordCodec I] [Identifier I] in
/-- The inbox counts no event. -/
theorem SameButInbox.phaseEventTallies {t : ClusterState I} (h : s.SameButInbox t) :
    t.phaseEventTallies = s.phaseEventTallies := by
  rw [SameButInbox] at h
  rw [h]

variable [DonePayloadCodec]

/-- Only an outcome report is counted. -/
theorem apply_phaseEventTallies (hcandidate : m.candidate = none) :
    (s.apply m).state.phaseEventTallies = s.phaseEventTallies := by
  cases m with
  | taskAdded hash task defId => exact (adds_taskAdded s hash task defId).phaseEventTallies
  | tasksSpawned =>
    exact foldlRecOn (motive := fun acc : ApplyResult I =>
      acc.state.phaseEventTallies = s.phaseEventTallies) _ _ rfl fun acc hacc spawned _ =>
        (adds_spawnTask acc spawned).phaseEventTallies.trans hacc
  | secondaryCellRegistered hash cellId =>
    change (s.applySecondaryCellRegistered hash cellId).1.phaseEventTallies = _
    unfold applySecondaryCellRegistered
    cases s.definitions.internCellAt cellId hash with
    | error => rfl
    | ok =>
      dsimp only
      split_ifs <;> rfl
  | customMessagePosted | customMessageHandled | customMessageFailed =>
    exact (apply_sameButInbox rfl).phaseEventTallies
  | control =>
    rw [apply]
    dsimp only
    split <;> rfl
  | taskAssigned | taskCompleted | taskFailed => cases hcandidate
  | _ => exact (apply_entrySteps rfl).events rfl

/-! ## Spawned tasks -/

section Spawn

variable {acc : ApplyResult I} {spawned : TaskInfo I × Option TaskDefId}

omit [DefaultHasher] [RecordCodec I] [Identifier I] [DonePayloadCodec] in
/-- A task fails at once exactly when one of its dependencies has failed for good. -/
theorem classifyDeps_eq_cascadeFail {deps : List TaskDep}
    {onUnfulfillable onPending : Option TaskHash} :
    s.classifyDeps deps onUnfulfillable onPending = .cascadeFail ↔
      ∃ dep ∈ deps, ∃ h, s.taskHashForDep dep.phaseId dep.taskId = some h ∧
        s.depVerdict h = .cascadeFail := by
  induction deps generalizing onUnfulfillable onPending with
  | nil => cases onUnfulfillable <;> cases onPending <;> simp [classifyDeps]
  | cons dep deps ih =>
    rw [classifyDeps, exists_mem_cons_iff]
    cases hdep : s.taskHashForDep dep.phaseId dep.taskId with
    | none => simp [ih]
    | some depHash =>
      cases hv : s.depVerdict depHash with
      | cascadeFail => simp [hv]
      | resolved | unfulfillable | unresolved => simp [hv, ih]

omit [DefaultHasher] [RecordCodec I] [Identifier I] [DonePayloadCodec] in
/-- A new task that has not failed for good fails no other. -/
theorem cascadeFail_of_insert {t : ClusterState I} {hash : TaskHash} {st : TaskState I}
    (htasks : t.tasks = s.tasks.insert hash st) (hsettled : t.settled = s.settled)
    (hnew : s.containsTask hash = false) (hst : st.status.depVerdict ≠ .cascadeFail)
    {phaseId : PhaseId} {taskId : String} {h : TaskHash}
    (hfound : t.taskHashForDep phaseId taskId = some h) (hv : t.depVerdict h = .cascadeFail) :
    s.taskHashForDep phaseId taskId = some h ∧ s.depVerdict h = .cascadeFail := by
  rw [containsTask, Bool.or_eq_false_iff, decide_eq_false_iff_not] at hnew
  have hne : h ≠ hash := by
    rintro rfl
    have hentry : t.settledEntry h = none := by
      rw [settledEntry, hsettled]
      exact AList.lookup_eq_none.mpr (of_decide_eq_false hnew.2)
    rw [depVerdict, hentry, htasks] at hv
    rw [AList.lookup_insert] at hv
    exact hst hv
  have hlookup : t.tasks.lookup h = s.tasks.lookup h := by rw [htasks, AList.lookup_insert_ne hne]
  refine ⟨?_, ?_⟩
  · rw [taskHashForDep, htasks, hsettled, AList.entries_insert_of_notMem hnew.1] at hfound
    rw [find?_cons] at hfound
    split at hfound
    · cases hfound
      exact (hne rfl).elim
    · exact hfound
  · rwa [depVerdict, settledEntry, hsettled, hlookup] at hv

omit [RecordCodec I] [DonePayloadCodec] in
/-- Spawning a task that does not fail makes no other task fail. -/
theorem spawnClass_spawnTask
    (hspawned : acc.state.spawnClass spawned.1 ≠ .cascadeFail) {task : TaskInfo I}
    (htask : acc.state.spawnClass task ≠ .cascadeFail) :
    (spawnTask acc spawned).state.spawnClass task ≠ .cascadeFail := by
  intro hfails
  obtain ⟨dep, hdep, h, hfound, hv⟩ := classifyDeps_eq_cascadeFail.mp hfails
  refine htask (classifyDeps_eq_cascadeFail.mpr ⟨dep, hdep, h, ?_⟩)
  have hsame := (internTaskDefAt_same acc.state spawned.2 (computeTaskHash spawned.1)
    spawned.1).sameLedger
  rcases adds_spawnTask acc spawned with
    ⟨-, heq⟩ | ⟨hnew, ⟨-, hstate, -⟩ | ⟨definition, routing, -, hstate, -⟩⟩
  · rw [heq] at hfound hv
    exact ⟨hfound, hv⟩
  · rw [hstate, taskHashForDep] at hfound
    rw [hstate, depVerdict, settledEntry] at hv
    rw [taskHashForDep, depVerdict, settledEntry, ← hsame.tasks, ← hsame.settled]
    exact ⟨hfound, hv⟩
  · have htasks : (spawnTask acc spawned).state.tasks = acc.state.tasks.insert _ _ :=
      congrArg tasks hstate
    have hsettled : (spawnTask acc spawned).state.settled = acc.state.settled := by
      rw [hstate]
      rfl
    refine cascadeFail_of_insert htasks hsettled hnew ?_ hfound hv
    cases hclass : acc.state.spawnClass spawned.1 with
    | cascadeFail => exact (hspawned hclass).elim
    | pending => rintro ⟨⟩
    | blockedOn => rintro ⟨⟩

variable {V : TaskHash → TaskState I → Prop} {W : TallyEvent → Prop}

omit [DonePayloadCodec] in
/-- Spawning a task moves the tally by its own event. -/
theorem spawnTask_move (hlegible : acc.state.Legible)
    (hfails : (∀ e, W e) ∨ acc.state.spawnClass spawned.1 ≠ .cascadeFail) :
    Move V W acc.state (spawnTask acc spawned).state := by
  have htallies := (adds_spawnTask acc spawned).phaseEventTallies
  rcases (adds_spawnTask acc spawned).logical with
    ⟨-, hsame⟩ | ⟨hnew, -, ⟨-, hsame, -⟩ | ⟨definition, routing, -, hput, -⟩⟩
  · rw [hsame]
    exact .same rfl rfl
  · exact .same hsame htallies
  · refine .still ?_ (fun e he => ?_) htallies
    · rw [hput]
      refine .put fun st hst => ?_
      rw [(logical_eq_none_iff hlegible).mpr hnew] at hst
      cases hst
    · rcases hfails with hall | hclass
      · exact Or.inr (hall e)
      · rw [hput] at he
        refine Or.inl (shows_put_of_event_none ?_ he)
        cases hc : acc.state.spawnClass spawned.1 with
        | cascadeFail => exact (hclass hc).elim
        | pending => rfl
        | blockedOn => rfl

omit [DonePayloadCodec] in
/-- Spawning a batch moves the tally by its events. -/
theorem foldl_spawnTask_moves {l : List (TaskInfo I × Option TaskDefId)}
    (hlegible : acc.state.Legible)
    (hfails : (∀ e, W e) ∨ ∀ spawned ∈ l, acc.state.spawnClass spawned.1 ≠ .cascadeFail) :
    Moves V W acc.state (l.foldl spawnTask acc).state := by
  induction l generalizing acc with
  | nil => exact .refl
  | cons spawned l ih =>
    refine .head (spawnTask_move hlegible ?_) (ih (hlegible.steps (spawnTask_steps acc spawned)) ?_)
    · exact hfails.imp_right fun h => h spawned mem_cons_self
    · refine hfails.imp_right fun h other hother => ?_
      exact spawnClass_spawnTask (h spawned mem_cons_self)
        (h other (mem_cons_of_mem spawned hother))

end Spawn

/-! ## All mutations -/

variable {V : TaskHash → TaskState I → Prop} {W : TallyEvent → Prop}

/-- A mutation shows an event without counting it: a completion of a task that has completed in
an earlier attempt, or a spawned task that fails at once. -/
def Uncounted (s : ClusterState I) : ClusterMutation I → Prop
  | .taskCompleted hash _ attempt =>
    ∃ st, s.logical hash = some st ∧ st.status = .completed ∧ st.attempt < attempt
  | .tasksSpawned tasks _ => ∃ task ∈ tasks, s.spawnClass task = .cascadeFail
  | _ => False

/-- **A mutation is a sequence of changes**, if it reopens nothing and every event it shows is
counted or of no concern. -/
theorem apply_moves (hs : s.Consistent) (hlegible : s.Legible)
    (hopen : ¬s.Reopens m) (hcounts : (∀ e, W e) ∨ ¬s.Uncounted m)
    (hv : ∀ h status attempt st, m.candidate = some (h, status, attempt) →
      s.logical h = some st → V h { st with status, attempt })
    (hspreads : ∀ h status attempt, m.candidate = some (h, status, attempt) →
      status.isCascadeTerminal = true → Spreads V s.logical) : Moves V W s (s.apply m).state := by
  have hcandidate : ∀ h status attempt outputs, m.candidate = some (h, status, attempt) →
      (status = .completed → ∀ st, s.logical h = some st → st.status = .completed →
        st.attempt < attempt → s.Uncounted m) →
      Moves V W s (s.applyCandidate h (status.joinKey attempt) status attempt outputs).state := by
    intro h status attempt outputs hm hun
    refine applyCandidate_moves hs hlegible (hspreads h status attempt hm)
      (fun st hst => hv h status attempt st hm hst) (fun st hst hcompleted hdone hlt e => ?_)
    exact hcounts.elim (fun hall => hall e) fun hno => (hno (hun hdone st hst hcompleted hlt)).elim
  have htouch : m.candidate = none → (∀ tasks defIds, m ≠ .tasksSpawned tasks defIds) →
      Moves V W s (s.apply m).state := by
    intro hnone hspawn
    obtain ⟨hraises, hshows⟩ := Ledger.Touched.still (apply_touched hs hlegible hnone hspawn) hopen
    exact .single (.still hraises (fun e he => Or.inl (hshows e he))
      (apply_phaseEventTallies hnone))
  cases m with
  | taskAssigned hash secondary worker version attempt =>
    rw [apply]
    exact hcandidate hash (.inFlight secondary worker version) attempt none rfl (by rintro ⟨⟩)
  | taskCompleted hash resultData attempt =>
    rw [apply]
    exact hcandidate hash .completed attempt _ rfl
      fun _ st hst hcompleted hlt => ⟨st, hst, hcompleted, hlt⟩
  | taskFailed hash kind error version attempt =>
    have hprobe := joinKey_ofFailure kind error version attempt
    rw [apply, ← hprobe]
    exact hcandidate hash _ attempt none rfl (by cases kind <;> rintro ⟨⟩)
  | tasksSpawned =>
    have hstart : (⟨s, .noOp, [], []⟩ : ApplyResult I).state.Legible := hlegible
    refine foldl_spawnTask_moves hstart (hcounts.imp_right fun hno spawned hspawned hfails => ?_)
    obtain ⟨t, ht, rfl⟩ := mem_map.mp hspawned
    exact hno ⟨t.1, (mem_zipIdx ht).2.2 ▸ getElem_mem _, hfails⟩
  | _ => exact htouch rfl (by rintro _ _ ⟨⟩)

end ClusterState

end DynRunner
