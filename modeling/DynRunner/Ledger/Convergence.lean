import DynRunner.Ledger.Refinement
import DynRunner.Lib.Gossip

/-!
# Outcome reports converge

Assignments, completions and failures offer a candidate state for an entry that exists.
While nothing is paused, an offer keeps the greater of two join keys. Keys folded by the
maximum depend neither on the order nor on the number of the offers.
-/

namespace DynRunner

open ClusterState Ledger

variable {I : Type}

namespace Ledger

variable [DefaultHasher]

/-- Offer a variant at an attempt for an existing entry. -/
noncomputable def offer (L : Ledger I) (h : TaskHash) (status : TaskStatus) (attempt : ℕ) :
    Ledger I :=
  match L h with
  | none => L
  | some st => L.merge h { st with status := status, attempt := attempt }

variable {L : Ledger I} {h : TaskHash} {st : TaskState I} {status : TaskStatus}

/-- An unknown task is offered nothing. -/
theorem offer_none (hst : L h = none) (status : TaskStatus)
    (attempt : ℕ) : L.offer h status attempt = L := by rw [offer, hst]

/-- An offer is a merge into the known entry. -/
theorem offer_some (hst : L h = some st) (status : TaskStatus) (attempt : ℕ) :
    L.offer h status attempt = L.merge h { st with status, attempt } := by rw [offer, hst]

/-- The join key of each task. -/
def keyOf (L : Ledger I) (h : TaskHash) : Option TaskJoinKey := (L h).map taskJoinKey

/-- No task is paused. -/
def NonePaused (L : Ledger I) : Prop := ∀ x y, ¬L.Waits x y

variable (hL : L.NonePaused)
include hL

omit [DefaultHasher] in
/-- Writing an entry that does not wait pauses nothing. -/
theorem NonePaused.put (h : TaskHash) (hst : st.waitsOn = none) : (L.put h st).NonePaused := by
  rintro x y ⟨st', hst', hw⟩
  rw [put_apply] at hst'
  split at hst'
  · cases hst'
    rw [hst] at hw
    cases hw
  · exact hL x y ⟨st', hst', hw⟩

/-- While nothing is paused a merge has no consequences for other tasks. -/
theorem merge_of_nonePaused (h : TaskHash) (st : TaskState I) (hst : st.waitsOn = none) :
    (L.Wins h st → L.merge h st = L.put h st) ∧ (¬L.Wins h st → L.merge h st = L) := by
  have hresume : L.resumeOn h = L := funext fun x => resumeOn_of_not_waits (hL x h)
  have hfail : (L.put h st).failOn h = L.put h st := by
    funext x
    refine failOn_of_not_doomed fun hx => ?_
    obtain ⟨y, hy⟩ := exists_waits_of_doomed hx
    exact hL.put h hst x y hy
  constructor
  · intro hwins
    rw [merge, if_pos hwins, hresume, hfail]
    split <;> simp
  · intro hlose
    rw [merge, if_neg hlose]

/-- An offer keeps the greater key of the task and leaves the others alone. -/
theorem keyOf_offer (hstatus : status.blockedOn = none) (attempt : ℕ) (x : TaskHash) :
    (L.offer h status attempt).keyOf x =
      if x = h then (L.keyOf x).map (max · (status.joinKey attempt)) else L.keyOf x := by
  cases hst : L h with
  | none =>
    rw [offer_none hst]
    by_cases hx : x = h
    · subst hx
      simp [keyOf, hst]
    · simp [hx]
  | some st =>
    rw [offer_some hst]
    obtain ⟨hput, hkeep⟩ := merge_of_nonePaused hL h { st with status, attempt } hstatus
    have hkey : taskJoinKey { st with status, attempt } = status.joinKey attempt := rfl
    have hwins : L.Wins h { st with status, attempt } ↔
      taskJoinKey st < status.joinKey attempt := by
      simp [Wins, hst, hkey]
    by_cases hlt : taskJoinKey st < status.joinKey attempt
    · simp only [hput (hwins.mpr hlt), keyOf, put_apply]
      by_cases hx : x = h
      · subst hx
        simp [hst, hkey, max_eq_right hlt.le]
      · simp [hx]
    · simp only [hkeep fun hw => hlt (hwins.mp hw)]
      by_cases hx : x = h
      · subst hx
        simp [keyOf, hst, max_eq_left (not_lt.mp hlt)]
      · simp [hx]

/-- An offer that does not wait pauses nothing. -/
theorem NonePaused.offer (h : TaskHash)
    (hstatus : status.blockedOn = none) (attempt : ℕ) : (L.offer h status attempt).NonePaused := by
  cases hst : L h with
  | none =>
    rw [offer_none hst]
    exact hL
  | some st =>
    rw [offer_some hst]
    obtain ⟨hput, hkeep⟩ := merge_of_nonePaused hL h { st with status, attempt } hstatus
    by_cases hw : L.Wins h { st with status, attempt }
    · rw [hput hw]
      exact hL.put h hstatus
    · rw [hkeep hw]
      exact hL

end Ledger

/-- The candidate an outcome report offers: the task, the variant and the attempt. -/
def ClusterMutation.candidate : ClusterMutation I → Option (TaskHash × TaskStatus × ℕ)
  | .taskAssigned hash secondary worker version attempt =>
    some (hash, .inFlight secondary worker version, attempt)
  | .taskCompleted hash _ attempt => some (hash, .completed, attempt)
  | .taskFailed hash kind error version attempt =>
    some (hash, TaskStatus.ofFailure kind error version, attempt)
  | _ => none

variable {m : ClusterMutation I} {h : TaskHash} {status : TaskStatus} {attempt : ℕ}

/-- What is offered is neither a pause nor a skip nor a setup success. -/
theorem ClusterMutation.candidate_ne (hm : m.candidate = some (h, status, attempt)) :
    status.blockedOn = none ∧ status ≠ .skippedAlreadyDone ∧ status ≠ .setupCompleted := by
  cases m <;> simp only [candidate, Option.some.injEq, Prod.mk.injEq, reduceCtorEq] at hm
  case taskFailed hash kind error version attempt =>
    rw [← hm.2.1]
    cases kind <;> exact ⟨rfl, nofun, nofun⟩
  all_goals
    rw [← hm.2.1]
    exact ⟨rfl, nofun, nofun⟩

namespace ClusterState

variable [DefaultHasher] [RecordCodec I]

/-- The join key a node holds for a task, in memory or in the settled index. -/
def joinKeyOf (s : ClusterState I) (h : TaskHash) : Option TaskJoinKey :=
  ((s.tasks.lookup h).map taskJoinKey).or ((s.settledEntry h).map (·.joinKey))

variable {s : ClusterState I}

section

variable (hs : s.Consistent)
include hs

variable (hlegible : s.Legible)
include hlegible

/-- The join key of a state is that of its ledger. -/
theorem joinKeyOf_eq (h : TaskHash) : s.joinKeyOf h = s.logical.keyOf h := by
  unfold joinKeyOf keyOf
  cases hst : s.tasks.lookup h with
  | some =>
    rw [logical_of_fat hst]
    rfl
  | none =>
    rw [logical_of_archive hst, Option.map_none, Option.none_or, settledEntry]
    cases hentry : s.settled.index.lookup h with
    | none =>
      rw [archive_of_none hentry]
      rfl
    | some entry =>
      obtain ⟨record, hread⟩ := hlegible.reads h entry hentry
      rw [archive_of_entry hentry hread, Option.map_some, Option.map_some,
        (hs.record hlegible.keeps hentry hread).1]

/-- Looking an entry up under a probe key changes nothing logically. It finds the entry in
memory, or brings back a settled one that the probe dominates. -/
theorem taskEntryUnsettling_spec
    (h : TaskHash) (probe : TaskJoinKey) : (s.taskEntryUnsettling h probe).1.logical = s.logical ∧
      ((s.taskEntryUnsettling h probe).2 = s.logical h ∨ (s.taskEntryUnsettling h probe).2 = none ∧
          ∃ st, s.logical h = some st ∧ probe ≤ taskJoinKey st) := by
  unfold taskEntryUnsettling
  by_cases hfat : h ∈ s.tasks
  · obtain ⟨st, hst⟩ := HashMap.mem_iff_lookup.mp hfat
    simp only [hfat, if_true, true_and]
    exact .inl (hst.trans (logical_of_fat hst).symm)
  · have habsent : s.fat h = none := AList.lookup_eq_none.mpr hfat
    simp only [hfat, if_false, unsettleIfDominated, settledEntry]
    cases hentry : s.settled.index.lookup h with
    | none =>
      refine ⟨rfl, .inl ?_⟩
      rw [logical_of_archive habsent, archive_of_none hentry]
      exact habsent
    | some entry =>
      obtain ⟨record, hread⟩ := hlegible.reads h entry hentry
      have hsome : s.logical h = some record.state := by
        rw [logical_of_archive habsent, archive_of_entry hentry hread]
      dsimp only
      split
      · rw [hread]
        refine ⟨logical_rehydrate hentry habsent hread, .inl ?_⟩
        rw [hsome]
        exact AList.lookup_insert s.tasks
      · rename_i hdom
        refine ⟨rfl, .inr ⟨habsent, record.state, hsome, ?_⟩⟩
        rw [(hs.record hlegible.keeps hentry hread).1]
        exact not_lt.mp fun hlt => hdom (taskJoinKeyDominates_iff.mpr hlt)

/-- An outcome report first reads the entry back. Then it has no entry to win against, or it merges
its candidate. -/
theorem applyCandidate_cases
    (h : TaskHash) (status : TaskStatus) (attempt : ℕ) (outputs : Option TaskOutputs) :
    let result := s.applyCandidate h (status.joinKey attempt) status attempt outputs
    ∃ t, EntrySteps false s t ∧ t.logical = s.logical ∧ ((result = ⟨t, .noOp, [], []⟩ ∧
          ∀ st, s.logical h = some st → ¬s.logical.Wins h { st with status, attempt }) ∨
        ∃ st, s.logical h = some st ∧
          let merged := t.mergeTaskState h { st with status, attempt } outputs
          result = ⟨merged.state, if merged.outcome = .noOp then .noOp else .applied,
            merged.resumed, []⟩) := by
  obtain ⟨hlogical, hfound⟩ := taskEntryUnsettling_spec hs hlegible h (status.joinKey attempt)
  have hsteps := taskEntryUnsettling_steps s h (status.joinKey attempt)
  unfold applyCandidate
  cases hentry : s.taskEntryUnsettling h (status.joinKey attempt) with
  | mk t found =>
    rw [hentry] at hlogical hfound hsteps
    refine ⟨t, hsteps, hlogical, ?_⟩
    cases found with
    | none =>
      refine .inl ⟨rfl, fun st hst hwins => ?_⟩
      rcases hfound with hnone | ⟨-, st', hst', hle⟩
      · rw [hst] at hnone
        cases hnone
      · exact absurd (hwins st' hst') (not_lt.mpr hle)
    | some st =>
      rcases hfound with hsome | ⟨hnone, -⟩
      · exact .inr ⟨st, hsome.symm, rfl⟩
      · cases hnone

/-- An outcome report offers its candidate to the logical ledger. -/
theorem logical_applyCandidate
    (h : TaskHash) (status : TaskStatus) (attempt : ℕ) (outputs : Option TaskOutputs) :
    (s.applyCandidate h (status.joinKey attempt) status attempt outputs).state.logical =
      s.logical.offer h status attempt := by
  obtain ⟨t, hsteps, hlogical, ⟨hresult, hlose⟩ | ⟨st, hst, hresult⟩⟩ :=
    applyCandidate_cases hs hlegible h status attempt outputs
  · rw [hresult]
    cases hst : s.logical h with
    | none =>
      rw [offer_none hst]
      exact hlogical
    | some st =>
      rw [offer_some hst, merge, if_neg (hlose st hst)]
      exact hlogical
  · rw [hresult, offer_some hst, ← hlogical]
    exact logical_mergeTaskState (hs.steps hlegible.keeps hsteps.steps)
      (hlegible.steps hsteps.steps) h _

end

variable [Identifier I] [DonePayloadCodec]

/-- A mutation with a candidate applies it. -/
theorem apply_of_candidate (s : ClusterState I) (hm : m.candidate = some (h, status, attempt)) :
    ∃ outputs, s.apply m = s.applyCandidate h (status.joinKey attempt) status attempt outputs := by
  cases m <;> simp only [ClusterMutation.candidate, Option.some.injEq, Prod.mk.injEq,
    reduceCtorEq] at hm <;> obtain ⟨rfl, rfl, rfl⟩ := hm
  case taskFailed hash kind error version attempt' =>
    rw [apply, ← joinKey_ofFailure kind error version attempt']
    exact ⟨none, rfl⟩
  all_goals
    rw [apply]
    exact ⟨_, rfl⟩

/-- On the ledger, a mutation with a candidate is an offer. -/
theorem logical_apply_candidate (hs : s.Consistent) (hlegible : s.Legible)
    (hm : m.candidate = some (h, status, attempt)) :
    (s.apply m).state.logical = s.logical.offer h status attempt := by
  obtain ⟨outputs, happly⟩ := apply_of_candidate s hm
  rw [happly, logical_applyCandidate hs hlegible]

/-- Apply mutations one after the other. -/
def applyAll (s : ClusterState I) (ms : List (ClusterMutation I)) : ClusterState I :=
  ms.foldl (fun s m => (s.apply m).state) s

/-- The keys of the candidates that a list of reports offers for a task. -/
def candidateKeys (h : TaskHash) (ms : List (ClusterMutation I)) : List TaskJoinKey :=
  ms.filterMap fun m => match m.candidate with
    | some (hash, status, attempt) => if hash = h then some (status.joinKey attempt) else none
    | none => none

omit [RecordCodec I] [Identifier I] [DonePayloadCodec] in
/-- The keys of one more candidate. -/
theorem candidateKeys_cons {hash : TaskHash}
    (hm : m.candidate = some (hash, status, attempt)) (h : TaskHash)
    (ms : List (ClusterMutation I)) : candidateKeys h (m :: ms) =
      if hash = h then status.joinKey attempt :: candidateKeys h ms else candidateKeys h ms := by
  unfold candidateKeys
  rw [List.filterMap_cons, hm]
  split <;> simp_all

/-- Along a list of outcome reports each key is the maximum so far. -/
theorem keyOf_applyAll (hs : s.Consistent) (hlegible : s.Legible)
    (hno : s.logical.NonePaused) {ms : List (ClusterMutation I)}
    (hms : ∀ m ∈ ms, m.candidate.isSome) (h : TaskHash) : (s.applyAll ms).joinKeyOf h =
      (s.logical.keyOf h).map fun k => (candidateKeys h ms).foldl max k := by
  induction ms generalizing s with
  | nil =>
    change s.joinKeyOf h = _
    rw [joinKeyOf_eq hs hlegible]
    simp [candidateKeys]
  | cons m ms ih =>
    obtain ⟨⟨hash, status, attempt⟩, hm⟩ := Option.isSome_iff_exists.mp (hms m List.mem_cons_self)
    have hstatus := (ClusterMutation.candidate_ne hm).1
    have hlogical := logical_apply_candidate hs hlegible hm
    have hsteps := apply_steps s m
    refine (ih (hs.steps hlegible.keeps hsteps) (hlegible.steps hsteps)
      (hlogical ▸ hno.offer hash hstatus attempt)
      fun m' hm' => hms m' (List.mem_cons_of_mem m hm')).trans ?_
    rw [hlogical, keyOf_offer hno hstatus, candidateKeys_cons hm]
    by_cases hx : h = hash
    · simp [hx, Function.comp_def]
    · simp [hx, Ne.symm hx]

/-- **Outcome reports converge.** In a state without paused entries, assignments, completions
and failures applied in any order and any number of times leave every task with the maximum
of its key and the keys of the candidates offered for it. -/
theorem outcome_reports_converge {s : ClusterState I} (hs : s.Consistent) (hlegible : s.Legible)
    (hno : ∀ x on, ¬s.PausedOn x on) (ms ms' : List (ClusterMutation I))
    (hms : ∀ m ∈ ms, m.candidate.isSome) (hsame : ∀ m, m ∈ ms' ↔ m ∈ ms) (h : TaskHash) :
    (s.applyAll ms).joinKeyOf h = (s.joinKeyOf h).map (fun k => (candidateKeys h ms).foldl max k) ∧
      (s.applyAll ms').joinKeyOf h = (s.applyAll ms).joinKeyOf h := by
  have hpaused : s.logical.NonePaused := fun x y hw =>
    hno x y ((waits_overlay (hs.archive_waitsOn hlegible.keeps) x y).mp hw)
  have hkeys : ∀ ms : List (ClusterMutation I), (∀ m ∈ ms, m.candidate.isSome) →
      (s.applyAll ms).joinKeyOf h =
        (s.joinKeyOf h).map fun k => (candidateKeys h ms).foldl max k := by
    intro ms hms
    rw [keyOf_applyAll hs hlegible hpaused hms h, joinKeyOf_eq hs hlegible]
  have hcands : ∀ k, k ∈ candidateKeys h ms' ↔ k ∈ candidateKeys h ms := by
    intro k
    simp only [candidateKeys, List.mem_filterMap, hsame]
  refine ⟨hkeys ms hms, ?_⟩
  rw [hkeys ms hms, hkeys ms' fun m hm => hms m ((hsame m).mp hm)]
  congr 1
  funext k
  exact eq_of_forall_ge_iff fun c => by simp only [foldl_max_le_iff, hcands]

end ClusterState

namespace Sample

/-- The sample codec reads back what it wrote. -/
theorem skippingCodec_roundTrips : RecordCodec.RoundTrips I := fun _ => ⟨_, rfl, rfl, rfl, rfl⟩

/-- A node that knows one task. -/
def oneTask : ClusterState String :=
  (empty.apply (.taskAdded "a" (task "a" []) none)).state

/-- The sample has nothing paused. -/
theorem oneTask_not_pausedOn (x on : TaskHash) : ¬oneTask.PausedOn x on := by
  rintro ⟨st, hst, hon⟩
  have hmem : (⟨x, st⟩ : Sigma fun _ : TaskHash => TaskState String) ∈ oneTask.tasks.entries :=
    HashMap.mem_entries_iff.mpr hst
  obtain rfl : st = _ := congrArg Sigma.snd (List.mem_singleton.mp hmem)
  cases hon

/-- The sample is consistent. -/
theorem oneTask_consistent : oneTask.Consistent := by
  have hreach : Reachable (fun _ => True) oneTask := .apply _ .new
  exact hreach.consistent skippingCodec_keepsState

/-- A completion that overtakes the assignment it answers, and is then repeated, ends where
the orderly reports end. -/
theorem overtaking_completion_converges :
    (oneTask.applyAll [.taskCompleted "a" none 0, .taskAssigned "a" "s1" 3 ⟨1, 1⟩ 0,
        .taskCompleted "a" none 0]).joinKeyOf "a" = some (keyCompleted 0) := by
  have hlegible := legible_of_roundTrips skippingCodec_roundTrips oneTask
  have h := outcome_reports_converge oneTask_consistent hlegible oneTask_not_pausedOn
    [.taskAssigned "a" "s1" 3 ⟨1, 1⟩ 0, .taskCompleted "a" none 0]
    [.taskCompleted "a" none 0, .taskAssigned "a" "s1" 3 ⟨1, 1⟩ 0, .taskCompleted "a" none 0]
    (by decide) (by intro m; simp; tauto) "a"
  rw [h.2, h.1]
  decide

end Sample

end DynRunner
