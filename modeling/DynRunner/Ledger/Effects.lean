import DynRunner.Ledger.Convergence

/-!
# What a mutation does to the logical ledger

Each arm of the apply rule read as an operation of the ledger: an offer, a rewrite of one
entry, an insertion, a change of routing, or nothing. Where an arm looks at memory only, the
equation says so.
-/

namespace DynRunner

open Ledger ClusterState

variable {I : Type}

namespace Ledger

/-- Rewrite an entry in the states a rule names. -/
def rewrite (L : Ledger I) (h : TaskHash) (rule : TaskState I → Option (TaskStatus × ℕ)) :
    Ledger I :=
  match L h with
  | none => L
  | some st => match rule st with
    | none => L
    | some (status, attempt) => L.put h { st with status, attempt }

/-- A rewrite either changes nothing or stores what its rule gives. -/
theorem rewrite_cases (L : Ledger I) (h : TaskHash) (rule : TaskState I → Option (TaskStatus × ℕ)) :
    (L.rewrite h rule = L ∧ ∀ st, L h = some st → rule st = none) ∨
      ∃ st status attempt, L h = some st ∧ rule st = some (status, attempt) ∧
        L.rewrite h rule = L.put h { st with status, attempt } := by
  cases hst : L h with
  | none =>
    refine .inl ⟨?_, fun _ h => by cases h⟩
    rw [rewrite, hst]
  | some st =>
    cases hrule : rule st with
    | none =>
      refine .inl ⟨?_, fun st' h => by cases h; exact hrule⟩
      simp only [rewrite, hst, hrule]
    | some new =>
      refine .inr ⟨st, new.1, new.2, rfl, hrule, ?_⟩
      simp only [rewrite, hst, hrule]

end Ledger

namespace ClusterState

variable {s t : ClusterState I} {st : TaskState I}

/-- The same ledger has the same entries in memory. -/
theorem SameLedger.fat (h : SameLedger s t) : t.fat = s.fat := by
  funext x
  rw [ClusterState.fat, ClusterState.fat, h.tasks]

/-- The rules that never apply to a settled variant. -/
theorem rewrite_none_of_eligible (h : settleEligible st.status = true) :
    (∀ v, reinjectRewrite v st = none) ∧ (∀ v, requeueRewrite v st = none) ∧
      (∀ on, blockRewrite on st = none) ∧ skipRewrite st = none ∧ setupRewrite st = none := by
  unfold reinjectRewrite requeueRewrite blockRewrite skipRewrite setupRewrite
  cases hstatus : st.status <;> rw [hstatus] at h <;>
    first | (cases h; done) | exact ⟨fun _ => rfl, fun _ => rfl, fun _ => rfl, rfl, rfl⟩

variable [RecordCodec I]

/-- The same state has the same logical ledger. -/
theorem SameLedger.logical (h : SameLedger s t) : t.logical = s.logical := by
  rw [ClusterState.logical, ClusterState.logical, h.fat, archive_congr h.settled]

/-- A change of definition or routing, on the ledger. -/
theorem logical_retouch (h : TaskHash) :
    ({ s with tasks := s.tasks.insert h st } : ClusterState I).logical = s.logical.put h st := by
  have hfat : ({ s with tasks := s.tasks.insert h st } : ClusterState I).fat = s.fat.put h st := by
    funext x
    rw [put_apply]
    exact HashMap.lookup_insert_eq
  rw [logical, hfat, overlay_put]
  rfl

/-- Routing preferences change an entry in memory that holds an older version. -/
theorem logical_applyPreferredSecondaries (s : ClusterState I) (h : TaskHash)
    (secondaries : List String) (version : TaskVersion) :
    (∃ st, s.fat h = some st ∧ ¬version ≤ st.routing.preferredVersion ∧
        (s.applyPreferredSecondaries h secondaries version).1.logical =
          s.logical.put h { st with routing := { st.routing with
            preferredSecondaries := secondaries, preferredVersion := version } } ∧
        (s.applyPreferredSecondaries h secondaries version).2 = .applied) ∨
      (∀ st, s.fat h = some st → version ≤ st.routing.preferredVersion) ∧
        s.applyPreferredSecondaries h secondaries version = (s, .noOp) := by
  unfold applyPreferredSecondaries
  cases hst : s.tasks.lookup h with
  | none => exact .inr ⟨fun st hst' => (nomatch hst.symm.trans hst'), rfl⟩
  | some st =>
    by_cases hold : version ≤ st.routing.preferredVersion
    · refine .inr ⟨fun st' hst' => ?_, if_pos hold⟩
      cases hst.symm.trans hst'
      exact hold
    · simp only [if_neg hold]
      exact .inl ⟨st, hst, hold, logical_retouch h, trivial⟩

/-- A registered cell is stamped on an entry in memory. -/
theorem logical_applySecondaryCellRegistered (s : ClusterState I) (h : TaskHash)
    (cellId : SecondaryCellId) : (s.applySecondaryCellRegistered h cellId).1.logical = s.logical ∨
      ∃ st, s.fat h = some st ∧ (s.applySecondaryCellRegistered h cellId).1.logical =
        s.logical.put h
          { st with definition := { st.definition with affineId := some cellId } } := by
  unfold applySecondaryCellRegistered
  cases s.definitions.internCellAt cellId h with
  | error => exact .inl rfl
  | ok =>
    dsimp only
    split
    · exact .inl rfl
    · cases hst : s.tasks.lookup h with
      | none => exact .inl rfl
      | some st => exact .inr ⟨st, hst, logical_retouch h⟩

variable [DefaultHasher]

/-- Writing an entry, on the ledger. -/
theorem logical_setTaskState (h : TaskHash) :
    (s.setTaskState h st).logical = s.logical.put h st := by
  rw [logical, fat_setTaskState, archive_congr setTaskState_settled, overlay_put]
  rfl

/-- Resuming what waits, on the ledger. -/
theorem logical_resumeBlockedOn (hs : s.Consistent) (hkeep : s.ReadsKeep)
    (h : TaskHash) : (s.resumeBlockedOn h).1.logical = s.logical.resumeOn h := by
  rw [logical, fat_resumeBlockedOn hs, archive_congr (resumeBlockedOn_settled h),
    overlay_resumeOn (hs.archive_waitsOn hkeep)]
  rfl

/-- An entry that is only in the archive may settle. -/
theorem Consistent.eligible_of_not_fat (hs : s.Consistent)
    (hkeep : s.ReadsKeep) {h : TaskHash} (hnone : s.fat h = none)
    (hst : s.logical h = some st) : settleEligible st.status = true := by
  rw [logical_of_archive hnone] at hst
  obtain ⟨entry, record, hentry, hread, rfl⟩ := exists_record_of_archive hst
  exact (hs.record hkeep hentry hread).2

/-- A rule decides about an entry in memory. -/
theorem logical_applyRewrite_of_fat {h : TaskHash} (hst : s.tasks.lookup h = some st)
    (rule : TaskState I → Option (TaskStatus × ℕ)) :
    (s.applyRewrite h rule).1.logical = s.logical.rewrite h rule ∧
      ((s.applyRewrite h rule).2 = .applied ↔ ∃ st, s.logical h = some st ∧ (rule st).isSome) := by
  have hlogical : s.logical h = some st := logical_of_fat hst
  have hmem : h ∈ s.tasks := HashMap.mem_iff_lookup.mpr ⟨st, hst⟩
  unfold applyRewrite rewrite
  rw [hst, hlogical]
  cases hr : rule st with
  | none => simp [hr]
  | some => simp [hr, rewriteTaskState, if_pos hmem, logical_setTaskState]

/-- A rule that never applies to a settled variant rewrites the logical ledger. -/
theorem logical_applyRewrite (hs : s.Consistent) (hkeep : s.ReadsKeep)
    (h : TaskHash) {rule : TaskState I → Option (TaskStatus × ℕ)}
    (hrule : ∀ st, settleEligible st.status = true → rule st = none) :
    (s.applyRewrite h rule).1.logical = s.logical.rewrite h rule ∧
      ((s.applyRewrite h rule).2 = .applied ↔ ∃ st, s.logical h = some st ∧ (rule st).isSome) := by
  cases hst : s.tasks.lookup h with
  | none =>
    rw [applyRewrite, hst]
    have hnone : ∀ st, s.logical h = some st → rule st = none := fun st hst' =>
      hrule st (hs.eligible_of_not_fat hkeep hst hst')
    refine ⟨?_, ?_⟩
    · rcases rewrite_cases s.logical h rule with hsame | ⟨st, _, _, hst', hr, _⟩
      · exact hsame.1.symm
      · rw [hnone st hst'] at hr
        cases hr
    · simp only [reduceCtorEq, false_iff, not_exists, not_and]
      intro st hst'
      simp [hnone st hst']
  | some => exact logical_applyRewrite_of_fat hst rule

/-- A retry reaches an entry in memory, and a settled one that its key dominates. -/
def RetryReaches (s : ClusterState I) (h : TaskHash) (attempt : ℕ) (version : TaskVersion) : Prop :=
  ∀ entry, s.tasks.lookup h = none → s.settled.index.lookup h = some entry →
    entry.joinKey < keyPending attempt version

/-- A merge is applied exactly when its entry wins. -/
theorem mergeTaskState_outcome (hs : s.Consistent) (hlegible : s.Legible)
    (h : TaskHash) (incoming : TaskState I) (outputs : Option TaskOutputs) :
    (s.mergeTaskState h incoming outputs).outcome = .noOp ↔ ¬s.logical.Wins h incoming := by
  have hwins := (mergeGate_spec hs hlegible h incoming).wins
  rw [← hwins, mergeTaskState, mergeTaskStateFuel]
  cases s.mergeGate h incoming with
  | mk t verdict => cases verdict <;> simp

/-- An outcome report is applied exactly when its candidate wins. -/
theorem applyCandidate_outcome (hs : s.Consistent) (hlegible : s.Legible)
    (h : TaskHash) (status : TaskStatus) (attempt : ℕ) (outputs : Option TaskOutputs) :
    (s.applyCandidate h (status.joinKey attempt) status attempt outputs).outcome = .applied ↔
      ∃ st, s.logical h = some st ∧ s.logical.Wins h { st with status, attempt } := by
  obtain ⟨t, hsteps, hlogical, ⟨hresult, hlose⟩ | ⟨st, hst, hresult⟩⟩ :=
    applyCandidate_cases hs hlegible h status attempt outputs
  · rw [hresult]
    simp only [reduceCtorEq, false_iff, not_exists, not_and]
    exact hlose
  · have hmerge := mergeTaskState_outcome (hs.steps hlegible.keeps hsteps.steps)
      (hlegible.steps hsteps.steps) h { st with status, attempt } outputs
    rw [hlogical] at hmerge
    rw [hresult]
    dsimp only at hmerge ⊢
    split_ifs with hnoop
    · simp only [false_iff, not_exists, not_and]
      intro st' hst'
      cases hst.symm.trans hst'
      exact hmerge.mp hnoop
    · simp only [true_iff]
      exact ⟨st, hst, not_not.mp (hmerge.not.mp hnoop)⟩

/-- What adding an entry does to the ledger. -/
theorem Adds.logical {acc r : ApplyResult I} {defId : Option TaskDefId} {hash : TaskHash}
    {task : TaskInfo I} {status : TaskStatus} (h : Adds acc defId hash task status r) :
    (acc.state.containsTask hash = true ∧ r = acc) ∨ acc.state.containsTask hash = false ∧
      let intern := acc.state.internTaskDefAt defId hash task
      r.state.definitions = intern.1.definitions ∧
      ((intern.2 = none ∧ r.state.logical = acc.state.logical ∧ r.outcome = acc.outcome) ∨
        ∃ definition routing, intern.2 = some (definition, routing) ∧
          r.state.logical = acc.state.logical.put hash ⟨definition, routing, 0, status⟩ ∧
          r.outcome = .applied) := by
  have hsame := (internTaskDefAt_same acc.state defId hash task).sameLedger.logical
  refine h.imp_right fun ⟨hnew, hcases⟩ => ⟨hnew, ?_⟩
  rcases hcases with ⟨hnone, hstate, houtcome⟩ | ⟨definition, routing, hsome, hstate, houtcome⟩
  · rw [hstate]
    exact ⟨rfl, .inl ⟨hnone, hsame, houtcome⟩⟩
  · rw [hstate]
    refine ⟨rfl, .inr ⟨definition, routing, hsome, ?_, houtcome⟩⟩
    rw [← hsame]
    exact logical_setTaskState _

section Apply

variable [Identifier I] [DonePayloadCodec]

/-- A retry rewrites the entry it reaches. -/
theorem logical_apply_taskRetried (hlegible : s.Legible) (h : TaskHash)
    (attempt : ℕ) (version : TaskVersion) : (s.RetryReaches h attempt version →
      (s.apply (.taskRetried h attempt version)).state.logical =
        s.logical.rewrite h (retryRewrite attempt version) ∧
      ((s.apply (.taskRetried h attempt version)).outcome = .applied ↔
        ∃ st, s.logical h = some st ∧ (retryRewrite attempt version st).isSome)) ∧
    (¬s.RetryReaches h attempt version → (s.apply (.taskRetried h attempt version)).state = s ∧
      (s.apply (.taskRetried h attempt version)).outcome = .noOp) := by
  have hempty : ∀ t : ClusterState I, t.tasks.lookup h = none →
      t.applyRewrite h (retryRewrite attempt version) = (t, .noOp) := by
    intro t ht
    rw [applyRewrite, ht]
  rw [apply]
  simp only [taskEntryUnsettling]
  cases hst : s.tasks.lookup h with
  | some st =>
    have hmem : h ∈ s.tasks := HashMap.mem_iff_lookup.mpr ⟨st, hst⟩
    have hreach : s.RetryReaches h attempt version := fun entry hnone => by
      rw [hst] at hnone
      cases hnone
    simp only [hmem, if_true]
    exact ⟨fun _ => logical_applyRewrite_of_fat hst _, fun hno => (hno hreach).elim⟩
  | none =>
    have hmem : h ∉ s.tasks := AList.lookup_eq_none.mp hst
    simp only [hmem, if_false, unsettleIfDominated, settledEntry]
    cases hentry : s.settled.index.lookup h with
    | none =>
      have hnone : s.logical h = none := by rw [logical_of_archive hst, archive_of_none hentry]
      have hreach : s.RetryReaches h attempt version := fun entry _ hsome => by
        rw [hentry] at hsome
        cases hsome
      simp only [hempty s hst]
      refine ⟨fun _ => ⟨?_, ?_⟩, fun hno => (hno hreach).elim⟩
      · rw [rewrite, hnone]
        rfl
      · simp [quiet, hnone]
    | some entry =>
      have hreach : s.RetryReaches h attempt version ↔
          entry.joinKey < keyPending attempt version := by
        refine ⟨fun hr => hr entry hst hentry, fun hlt entry' _ hentry' => ?_⟩
        rw [hentry] at hentry'
        cases hentry'
        exact hlt
      obtain ⟨record, hread⟩ := hlegible.reads h entry hentry
      dsimp only
      by_cases hdom : taskJoinKeyDominates (keyPending attempt version) entry.joinKey = true
      · rw [if_pos hdom, hread]
        have hlogical := logical_rehydrate hentry hst hread
        refine ⟨fun _ => ?_, fun hno => (hno (hreach.mpr (taskJoinKeyDominates_iff.mp hdom))).elim⟩
        rw [← hlogical]
        -- The entry was read back, so it is in memory too.
        exact logical_applyRewrite_of_fat (AList.lookup_insert s.tasks) _
      · rw [if_neg hdom, hempty s hst]
        refine ⟨fun hr => (hdom (taskJoinKeyDominates_iff.mpr (hreach.mp hr))).elim, fun _ => ?_⟩
        exact ⟨rfl, rfl⟩

/-- A setup success that applies also resumes what waited on the task. -/
theorem logical_apply_setupCompleted (hs : s.Consistent) (hkeep : s.ReadsKeep) (h : TaskHash) :
    ((∃ st, s.logical h = some st ∧ (setupRewrite st).isSome) →
      (s.apply (.setupCompleted h)).state.logical = (s.logical.rewrite h setupRewrite).resumeOn h ∧
      (s.apply (.setupCompleted h)).outcome = .applied) ∧
    ((¬∃ st, s.logical h = some st ∧ (setupRewrite st).isSome) →
      (s.apply (.setupCompleted h)).state.logical = s.logical ∧
      (s.apply (.setupCompleted h)).outcome = .noOp) := by
  obtain ⟨hlogical, hout⟩ := logical_applyRewrite hs hkeep h
    (fun st hst => (rewrite_none_of_eligible hst).2.2.2.2)
  have hsteps := (applyRewrite_steps s h setupRewrite).steps
  rw [apply]
  cases hrw : s.applyRewrite h setupRewrite with
  | mk t outcome =>
    rw [hrw] at hlogical hout hsteps
    cases outcome with
    | noOp =>
      have hno : ¬∃ st, s.logical h = some st ∧ (setupRewrite st).isSome = true := by
        rw [← hout]
        simp
      refine ⟨fun hyes => (hno hyes).elim, fun _ => ⟨?_, rfl⟩⟩
      rcases rewrite_cases s.logical h setupRewrite with hsame | ⟨st, _, _, hst, hr, _⟩
      · exact hlogical.trans hsame.1
      · exact (hno ⟨st, hst, by rw [hr]; rfl⟩).elim
    | applied =>
      refine ⟨fun _ => ⟨?_, rfl⟩, fun hno => (hno (hout.mp rfl)).elim⟩
      rw [← hlogical]
      exact logical_resumeBlockedOn (hs.steps hkeep hsteps) (hkeep.steps hsteps) h

end Apply

end ClusterState

/-! ## All arms together -/

/-- The task and the rule of a mutation that rewrites an entry in the states it names. -/
def ClusterMutation.rewriteRule :
    ClusterMutation I → Option (TaskHash × (TaskState I → Option (TaskStatus × ℕ)))
  | .taskReinjected hash version => some (hash, reinjectRewrite version)
  | .taskRequeued hash version => some (hash, requeueRewrite version)
  | .taskRetried hash attempt version => some (hash, retryRewrite attempt version)
  | .taskBlocked hash on => some (hash, blockRewrite on)
  | .taskSkippedAlreadyDone hash => some (hash, skipRewrite)
  | _ => none

/-- A definition without its cell id, which may be stamped on it later. -/
def FrozenTaskDef.core (d : FrozenTaskDef I) : FrozenTaskDef I := { d with affineId := none }

/-- Whether a mutation leaves the set of known tasks as it is. -/
def ClusterMutation.isPlain : ClusterMutation I → Bool
  | .taskAdded .. | .tasksSpawned .. => false
  | _ => true

variable {st : TaskState I} {status : TaskStatus} {attempt : ℕ} {m : ClusterMutation I}
  {rule : TaskState I → Option (TaskStatus × ℕ)} {L : Ledger I} {h x : TaskHash}

/-- What a setup success applies to, and what it leaves. -/
theorem ClusterState.setupRewrite_eq_some (h : setupRewrite st = some (status, attempt)) :
    status = .setupCompleted ∧ attempt = st.attempt := by
  unfold setupRewrite at h
  split at h
  · cases h
    exact ⟨rfl, rfl⟩
  · cases h
    exact ⟨rfl, rfl⟩
  · cases h

/-- What the rewriting mutations apply to, and what they leave. -/
theorem ClusterMutation.rewriteRule_cases
    (hm : m.rewriteRule = some (x, rule)) (hrule : rule st = some (status, attempt)) :
    (∃ version, m = .taskReinjected x version ∧ status = .pending version ∧ attempt = st.attempt ∧
        ∃ reason error old, st.status = .unfulfillable reason error old) ∨
      (∃ version, m = .taskRequeued x version ∧ status = .pending version ∧ attempt = st.attempt ∧
        ∃ secondary worker old, st.status = .inFlight secondary worker old) ∨
      (∃ version, m = .taskRetried x attempt version ∧ status = .pending version ∧
        ∃ kind error old, st.status = .failed kind error old) ∨
      (∃ on, m = .taskBlocked x on ∧ status = .blocked on ∧ attempt = st.attempt ∧
        ∃ version, st.status = .pending version) ∨
      (m = .taskSkippedAlreadyDone x ∧ status = .skippedAlreadyDone ∧ attempt = st.attempt ∧
        ∃ version, st.status = .pending version) := by
  cases m with
  | taskReinjected hash version =>
    cases hm
    unfold reinjectRewrite at hrule
    split at hrule <;> cases hrule
    exact .inl ⟨version, rfl, rfl, rfl, _, _, _, by assumption⟩
  | taskRequeued hash version =>
    cases hm
    unfold requeueRewrite at hrule
    split at hrule <;> cases hrule
    exact .inr (.inl ⟨version, rfl, rfl, rfl, _, _, _, by assumption⟩)
  | taskRetried hash attempt' version =>
    cases hm
    unfold retryRewrite at hrule
    split at hrule <;> cases hrule
    exact .inr (.inr (.inl ⟨version, rfl, rfl, _, _, _, by assumption⟩))
  | taskBlocked hash on =>
    cases hm
    unfold blockRewrite at hrule
    split at hrule <;> cases hrule
    exact .inr (.inr (.inr (.inl ⟨on, rfl, rfl, rfl, _, by assumption⟩)))
  | taskSkippedAlreadyDone =>
    cases hm
    unfold skipRewrite at hrule
    split at hrule <;> cases hrule
    exact .inr (.inr (.inr (.inr ⟨rfl, rfl, rfl, _, by assumption⟩)))
  | _ => cases hm

/-- What a mutation that neither reports an outcome nor spawns tasks does to the ledger. -/
inductive Ledger.Touched (L : Ledger I) (m : ClusterMutation I) : Ledger I → Prop
  | same : L.Touched m L
  | insert {h : TaskHash} (definition : FrozenTaskDef I) (routing : TaskRouting)
      (hm : m.isPlain = false) (hnew : L h = none) :
        L.Touched m (L.put h ⟨definition, routing, 0, .pending .default⟩)
  | rewrite {h : TaskHash} {rule : TaskState I → Option (TaskStatus × ℕ)} {st : TaskState I}
      {status : TaskStatus} {attempt : ℕ} (hm : m.rewriteRule = some (h, rule))
      (hst : L h = some st) (hrule : rule st = some (status, attempt)) :
      L.Touched m (L.put h { st with status, attempt })
  | setup {h : TaskHash} {st : TaskState I} {status : TaskStatus} {attempt : ℕ}
      (hm : m = .setupCompleted h) (hst : L h = some st)
      (hrule : setupRewrite st = some (status, attempt)) :
      L.Touched m ((L.put h { st with status, attempt }).resumeOn h)
  | retouch {h : TaskHash} {st st' : TaskState I} (hst : L h = some st)
      (hstatus : st'.status = st.status) (hattempt : st'.attempt = st.attempt)
      (hcore : st'.definition.core = st.definition.core) : L.Touched m (L.put h st')

/-- A rewriting touches the ledger as its mutation may. -/
theorem Ledger.touched_rewrite (hm : m.rewriteRule = some (h, rule)) :
    L.Touched m (L.rewrite h rule) := by
  rcases L.rewrite_cases h rule with ⟨hsame, -⟩ | ⟨st, status, attempt, hst, hrule, hput⟩
  · rw [hsame]
    exact .same
  · rw [hput]
    exact .rewrite hm hst hrule

/-- A rewriting mutation that applies changes its entry. -/
theorem Ledger.rewrite_eq_self_iff (hm : m.rewriteRule = some (h, rule)) :
    L.rewrite h rule = L ↔ ∀ st, L h = some st → rule st = none := by
  rcases L.rewrite_cases h rule with ⟨hsame, hnone⟩ | ⟨st, status, attempt, hst, hrule, hput⟩
  · exact iff_of_true hsame hnone
  · refine iff_of_false (fun heq => ?_) fun hnone => ?_
    · have hnew : L h = some { st with status, attempt } := by rw [← heq, hput, put_same]
      have hstatus : st.status = status :=
        congrArg TaskState.status (Option.some.inj (hst.symm.trans hnew))
      rcases ClusterMutation.rewriteRule_cases hm hrule with ⟨_, -, rfl, -, _, _, _, hold⟩ |
        ⟨_, -, rfl, -, _, _, _, hold⟩ | ⟨_, -, rfl, _, _, _, hold⟩ | ⟨_, -, rfl, -, _, hold⟩ |
        ⟨-, rfl, -, _, hold⟩ <;> cases hold.symm.trans hstatus
    · cases (hnone st hst).symm.trans hrule

namespace ClusterState

variable [DefaultHasher] [Identifier I] [RecordCodec I] [DonePayloadCodec]

variable {s : ClusterState I}

/-- Every mutation but an outcome report and a spawn touches the ledger so. -/
theorem apply_touched (hs : s.Consistent) (hlegible : s.Legible) (hcandidate : m.candidate = none)
    (hspawn : ∀ tasks defIds, m ≠ .tasksSpawned tasks defIds) :
    s.logical.Touched m (s.apply m).state.logical := by
  have hstill {L : Ledger I} (hsame : L = s.logical) : s.logical.Touched m L := hsame ▸ .same
  have hrules := @rewrite_none_of_eligible I
  have hrewrite : ∀ {h : TaskHash} {rule : TaskState I → Option (TaskStatus × ℕ)},
      m.rewriteRule = some (h, rule) →
      (∀ st, settleEligible st.status = true → rule st = none) →
      s.logical.Touched m (s.applyRewrite h rule).1.logical := by
    intro h rule hm hrule
    rw [(logical_applyRewrite hs hlegible.keeps h hrule).1]
    exact touched_rewrite hm
  cases m with
  | taskAdded hash task defId =>
    rcases (adds_taskAdded s hash task defId).logical with
      ⟨-, hsame⟩ | ⟨hnew, -, ⟨-, hsame, -⟩ | ⟨definition, routing, -, hput, -⟩⟩
    · exact hstill (by rw [hsame])
    · exact hstill hsame
    · rw [hput]
      exact .insert definition routing rfl ((logical_eq_none_iff hlegible).mpr hnew)
  | taskAssigned | taskCompleted | taskFailed => cases hcandidate
  | taskReinjected hash version => exact hrewrite rfl fun _ h => (hrules h).1 version
  | taskRequeued hash version => exact hrewrite rfl fun _ h => (hrules h).2.1 version
  | taskRetried hash attempt version =>
    obtain ⟨hreach, hmiss⟩ := logical_apply_taskRetried hlegible hash attempt version
    by_cases hr : s.RetryReaches hash attempt version
    · rw [(hreach hr).1]
      exact touched_rewrite rfl
    · exact hstill (by rw [(hmiss hr).1])
  | taskBlocked hash on => exact hrewrite rfl fun _ h => (hrules h).2.2.1 on
  | taskSkippedAlreadyDone => exact hrewrite rfl fun _ h => (hrules h).2.2.2.1
  | setupCompleted hash =>
    obtain ⟨hyes, hno⟩ := logical_apply_setupCompleted hs hlegible.keeps hash
    by_cases happly : ∃ st, s.logical hash = some st ∧ (setupRewrite st).isSome
    · rw [(hyes happly).1]
      rcases s.logical.rewrite_cases hash setupRewrite with
        ⟨-, hnone⟩ | ⟨st, status, attempt, hst, hrule, hput⟩
      · obtain ⟨st, hst, hsome⟩ := happly
        rw [hnone st hst] at hsome
        cases hsome
      · rw [hput]
        exact .setup rfl hst hrule
    · exact hstill (hno happly).1
  | taskPreferredSecondariesUpdated hash secondaries version =>
    change s.logical.Touched _ (s.applyPreferredSecondaries hash secondaries version).1.logical
    rcases logical_applyPreferredSecondaries s hash secondaries version with
      ⟨st, hst, -, hput, -⟩ | ⟨-, hsame⟩
    · rw [hput]
      exact .retouch (logical_of_fat hst) rfl rfl rfl
    · exact hstill (by rw [hsame])
  | tasksSpawned tasks defIds => exact (hspawn tasks defIds rfl).elim
  | secondaryCellRegistered hash cellId =>
    change s.logical.Touched _ (s.applySecondaryCellRegistered hash cellId).1.logical
    rcases logical_applySecondaryCellRegistered s hash cellId with hsame | ⟨st, hst, hput⟩
    · exact hstill hsame
    · rw [hput]
      exact .retouch (logical_of_fat hst) rfl rfl rfl
  | customMessagePosted | customMessageHandled | customMessageFailed =>
    exact hstill (apply_sameButInbox rfl).sameLedger.logical
  | control =>
    refine hstill (SameLedger.logical ?_)
    rw [apply]
    dsimp only
    split <;> exact ⟨rfl, rfl, rfl, rfl, rfl⟩

/-- A mutation offers an entry, spawns tasks, or touches the ledger otherwise. -/
theorem apply_cases (hs : s.Consistent) (hlegible : s.Legible) (m : ClusterMutation I) :
    (∃ h status attempt, m.candidate = some (h, status, attempt) ∧
        (s.apply m).state.logical = s.logical.offer h status attempt) ∨
      (∃ tasks defIds, m = .tasksSpawned tasks defIds) ∨
      s.logical.Touched m (s.apply m).state.logical := by
  cases hcandidate : m.candidate with
  | some => exact .inl ⟨_, _, _, rfl, logical_apply_candidate hs hlegible hcandidate⟩
  | none =>
    by_cases hspawn : ∃ tasks defIds, m = .tasksSpawned tasks defIds
    · exact .inr (.inl hspawn)
    · exact .inr (.inr (apply_touched hs hlegible hcandidate
        fun tasks defIds hm => hspawn ⟨tasks, defIds, hm⟩))

/-- **Redelivered resets.** A reset leaves the ledger as it is exactly when its task does not stand
in the variant that the reset accepts: the arms look at nothing else, and write the version without
comparing it. -/
theorem reset_leaves_ledger_iff (hs : s.Consistent) (hlegible : s.Legible)
    (h : TaskHash) (attempt : ℕ) (version : TaskVersion) :
    ((s.apply (.taskRequeued h version)).state.logical = s.logical ↔
      ∀ st, s.logical h = some st →
        ∀ secondary worker v, st.status ≠ .inFlight secondary worker v) ∧
    ((s.apply (.taskReinjected h version)).state.logical = s.logical ↔
      ∀ st, s.logical h = some st → ∀ reason error v, st.status ≠ .unfulfillable reason error v) ∧
    ((s.apply (.taskRetried h attempt version)).state.logical = s.logical ↔
      (s.RetryReaches h attempt version →
        ∀ st, s.logical h = some st → ∀ kind error v, st.status ≠ .failed kind error v)) := by
  have hrules := @rewrite_none_of_eligible I
  refine ⟨?_, ?_, ?_⟩
  · change (s.applyRewrite h (requeueRewrite version)).1.logical = s.logical ↔ _
    rw [(logical_applyRewrite hs hlegible.keeps h fun _ h => (hrules h).2.1 version).1,
      rewrite_eq_self_iff (m := .taskRequeued h version) rfl]
    refine forall₂_congr fun st _ => ?_
    unfold requeueRewrite
    split <;> simp_all
  · change (s.applyRewrite h (reinjectRewrite version)).1.logical = s.logical ↔ _
    rw [(logical_applyRewrite hs hlegible.keeps h fun _ h => (hrules h).1 version).1,
      rewrite_eq_self_iff (m := .taskReinjected h version) rfl]
    refine forall₂_congr fun st _ => ?_
    unfold reinjectRewrite
    split <;> simp_all
  · obtain ⟨hreach, hmiss⟩ := logical_apply_taskRetried hlegible h attempt version
    by_cases hr : s.RetryReaches h attempt version
    · rw [(hreach hr).1, rewrite_eq_self_iff (m := .taskRetried h attempt version) rfl,
        forall_prop_of_true hr]
      refine forall₂_congr fun st _ => ?_
      unfold retryRewrite
      split <;> simp_all
    · rw [(hmiss hr).1]
      exact iff_of_true rfl fun hreach => (hr hreach).elim

end ClusterState

namespace Sample

/-- A requeue that is delivered again takes a later assignment back. -/
theorem redelivered_requeue_undoes_assignment :
    let requeue : ClusterMutation String := .taskRequeued "a" ⟨1, 2⟩
    let s := oneTask.applyAll [.taskAssigned "a" "s1" 0 ⟨1, 1⟩ 0, requeue,
      .taskAssigned "a" "s2" 0 ⟨1, 3⟩ 0]
    s.joinKeyOf "a" = some (keyInFlight 0 ⟨1, 3⟩) ∧
      (s.apply requeue).state.joinKeyOf "a" = some (keyPending 0 ⟨1, 2⟩) ∧
      keyPending 0 ⟨1, 2⟩ < keyInFlight 0 ⟨1, 3⟩ := by
  decide +kernel

/-- A task is requeued, assigned again and completes. -/
def completedAfterRequeue : ClusterState String :=
  oneTask.applyAll [.taskAssigned "a" "s1" 0 ⟨1, 1⟩ 0, .taskRequeued "a" ⟨1, 2⟩,
    .taskAssigned "a" "s2" 0 ⟨1, 3⟩ 0, .taskCompleted "a" none 0]

/-- The requeue that is delivered again after the completion is ignored. -/
theorem requeue_after_completion_ignored :
    (completedAfterRequeue.apply (.taskRequeued "a" ⟨1, 2⟩)).state.logical =
      completedAfterRequeue.logical := by
  have hreach : Reachable (fun _ => True) completedAfterRequeue :=
    .apply _ (.apply _ (.apply _ (.apply _ (.apply _ .new))))
  refine (reset_leaves_ledger_iff (hreach.consistent skippingCodec_keepsState)
    (legible_of_roundTrips skippingCodec_roundTrips _) "a" 0 ⟨1, 2⟩).1.mpr fun st hst => ?_
  have hst' : completedAfterRequeue.logical "a" = some ⟨_, _, 0, .completed⟩ := rfl
  cases hst.symm.trans hst'
  intro _ _ _ hstatus
  cases hstatus

end Sample

end DynRunner
