import DynRunner.Ledger.Effects
import DynRunner.Lib.EventTally

/-!
# The events that a merge counts

A completion or a failure that wins is an event, and the node counts it for the phase of the task.
An event is known by the task, the key of the terminal state and the tally it is counted in. A
ledger covers an event when its entry has at least the key. This file says what an operation does
to what is shown, covered and counted: it either moves entries without uncovering an event, or
stores a winning entry, and counts it if it is an event.
-/

namespace DynRunner

open Ledger TaskJoinKey TaskState

variable {I : Type}

/-- A task reaches a terminal state that is counted. -/
structure TallyEvent where
  hash : TaskHash
  key : TaskJoinKey
  tally : PhaseId × PhaseTally
  deriving DecidableEq

/-- The tally in which a state is counted when it wins. -/
def TaskState.eventTally (st : TaskState I) : Option (PhaseId × PhaseTally) :=
  if st.status = .completed then some (st.definition.phaseId, .completed)
  else if st.status.isFailureTerminal then some (st.definition.phaseId, .failed)
  else none

section Keys

/-- `l` is above every terminal key that `k` is above. -/
def TaskJoinKey.Reaches (k l : TaskJoinKey) : Prop :=
  ∀ t : TaskJoinKey, t.band = .terminal → t ≤ k → t ≤ l

variable {k l : TaskJoinKey}

/-- A key reaches every larger one. -/
theorem TaskJoinKey.Reaches.of_le (h : k ≤ l) : k.Reaches l := fun _ _ ht => ht.trans h

theorem TaskJoinKey.Reaches.trans {m : TaskJoinKey} (h : k.Reaches l) (h' : l.Reaches m) :
    k.Reaches m := fun t hband ht => h' t hband (h t hband ht)

/-- A key that is not terminal is above the terminal keys of earlier attempts only. -/
theorem TaskJoinKey.Reaches.of_band_ne (hband : k.band ≠ .terminal)
    (h : k.attempt ≤ l.attempt) : k.Reaches l := by
  intro t ht hle
  have hattempt : t.attempt < k.attempt := by
    refine lt_of_le_of_ne (attempt_le_of_le hle) fun heq => ?_
    have hrank : k.band.rank < t.band.rank := by
      rw [ht]
      cases hk : k.band with
      | terminal => exact (hband hk).elim
      | blocked => decide
      | nonTerminal => decide
    exact absurd (lt_of_band_lt heq.symm hrank) (not_lt.mpr hle)
  exact (lt_of_attempt_lt (hattempt.trans_le h)).le

end Keys

variable [DefaultHasher]

/-- The event of a state that wins. -/
def TaskState.event (h : TaskHash) (st : TaskState I) : Option TallyEvent :=
  st.eventTally.map fun tally => ⟨h, taskJoinKey st, tally⟩

variable {h : TaskHash} {st : TaskState I} {e : TallyEvent}

/-- An event names its task and its key. -/
theorem TaskState.event_hash (he : st.event h = some e) : e.hash = h ∧ e.key = taskJoinKey st := by
  obtain ⟨tally, -, rfl⟩ := Option.map_eq_some_iff.mp he
  exact ⟨rfl, rfl⟩

/-- A state that is not counted is neither completed nor failed. -/
theorem TaskState.event_eq_none (hdone : st.status ≠ .completed)
    (hfailed : st.status.isFailureTerminal = false) : st.event h = none := by
  rw [event, eventTally, if_neg hdone, hfailed, if_neg Bool.false_ne_true]
  rfl

/-- The key of an event is terminal. -/
theorem TaskState.event_band (he : st.event h = some e) : e.key.band = .terminal := by
  rw [(event_hash he).2, taskJoinKey, joinKey_band, if_pos]
  by_contra hterminal
  have hnone : st.event h = none := by
    refine event_eq_none (fun hstatus => ?_) ?_
    · rw [hstatus] at hterminal
      exact hterminal rfl
    · cases hstatus : st.status <;> rw [hstatus] at hterminal <;>
        first | rfl | exact (hterminal rfl).elim
  rw [hnone] at he
  cases he

namespace Ledger

/-- The ledger holds the terminal state of an event. -/
def Shows (L : Ledger I) (e : TallyEvent) : Prop :=
  ∃ st, L e.hash = some st ∧ st.event e.hash = some e

/-- The entry of the task has at least the key of the event. -/
def Covers (L : Ledger I) (e : TallyEvent) : Prop :=
  ∃ st, L e.hash = some st ∧ e.key ≤ taskJoinKey st

variable {L M : Ledger I} {new incoming : TaskState I}

/-- An entry shows its event. -/
theorem Shows.of_event (hst : L h = some st) (he : st.event h = some e) : L.Shows e := by
  rw [Shows, (event_hash he).1]
  exact ⟨st, hst, he⟩

/-- Every entry stays, in its phase, and no event is uncovered. -/
def Raises (L M : Ledger I) : Prop :=
  ∀ h st, L h = some st → ∃ st', M h = some st' ∧ (taskJoinKey st).Reaches (taskJoinKey st') ∧
    st'.definition.phaseId = st.definition.phaseId

theorem Raises.refl (L : Ledger I) : L.Raises L := fun _ st hst => ⟨st, hst, .of_le le_rfl, rfl⟩

/-- What is covered stays covered. -/
theorem Raises.covers (h : L.Raises M)
    (hband : e.key.band = .terminal) (he : L.Covers e) : M.Covers e := by
  obtain ⟨st, hst, hkey⟩ := he
  obtain ⟨st', hst', hreach, -⟩ := h e.hash st hst
  exact ⟨st', hst', hreach e.key hband hkey⟩

/-- Replacing one entry. -/
theorem Raises.put (hold : ∀ st, L h = some st → (taskJoinKey st).Reaches (taskJoinKey new) ∧
      new.definition.phaseId = st.definition.phaseId) : L.Raises (L.put h new) := by
  intro x st hst
  by_cases hx : x = h
  · subst hx
    exact ⟨new, put_same _ _ _, hold st hst⟩
  · exact ⟨st, (put_of_ne hx L new).trans hst, .of_le le_rfl, rfl⟩

/-- A resumed task starts again in the same attempt. -/
theorem raises_resumeOn (h : TaskHash) : L.Raises (L.resumeOn h) := by
  intro x st hst
  by_cases hw : L.Waits x h
  · obtain ⟨st', hst', hon⟩ := hw
    cases hst.symm.trans hst'
    refine ⟨st.resumed, resumeOn_of_waits hst hon, .of_band_ne ?_ ?_, rfl⟩
    · rw [taskJoinKey, waitsOn_eq_some.mp hon]
      rintro ⟨⟩
    · rw [taskJoinKey, taskJoinKey, joinKey_attempt, joinKey_attempt]
      exact le_rfl
  · exact ⟨st, (resumeOn_of_not_waits hw).trans hst, .of_le le_rfl, rfl⟩

/-- What is shown after a write. -/
theorem shows_put (he : (L.put h new).Shows e) : new.event h = some e ∨ L.Shows e := by
  obtain ⟨st, hst, hevent⟩ := he
  rw [put_apply] at hst
  split_ifs at hst with hx
  · cases hst
    rw [hx] at hevent
    exact .inl hevent
  · exact .inr ⟨st, hst, hevent⟩

/-- Resuming shows nothing new. -/
theorem shows_resumeOn (he : (L.resumeOn h).Shows e) : L.Shows e := by
  obtain ⟨st, hst, hevent⟩ := he
  by_cases hw : L.Waits e.hash h
  · obtain ⟨st', hst', hon⟩ := hw
    rw [resumeOn_of_waits hst' hon] at hst
    cases hst
    cases hevent
  · exact ⟨st, (resumeOn_of_not_waits hw).symm.trans hst, hevent⟩

/-- A winning entry leaves no event uncovered, of its own task or of another. -/
theorem covers_put_of_wins (hraises : L.Raises M) (hwins : L.Wins h incoming)
    (hband : e.key.band = .terminal) (he : L.Covers e) : (M.put h incoming).Covers e := by
  by_cases hx : e.hash = h
  · obtain ⟨st, hst, hkey⟩ := he
    exact ⟨incoming, hx ▸ put_same _ _ _, hkey.trans (hwins st (hx ▸ hst)).le⟩
  · obtain ⟨st, hst, hkey⟩ := hraises.covers hband he
    exact ⟨st, (put_of_ne hx M incoming).trans hst, hkey⟩

omit [DefaultHasher] in
/-- A winner is stored. -/
theorem stored_of_win
    (hM : M = L.put h incoming ∨ M = (L.resumeOn h).put h incoming) : M h = some incoming := by
  rcases hM with rfl | rfl <;> exact put_same _ _ _

end Ledger

namespace ClusterState

variable [RecordCodec I]

/-- One change of the ledger and the tallies. Either the entries move without uncovering an event,
or a winning entry is stored and counted. `V` is what is known of the stored entries, and `W` of
the events that appear without being counted. -/
inductive Move (V : TaskHash → TaskState I → Prop) (W : TallyEvent → Prop) :
    ClusterState I → ClusterState I → Prop
  | still {s t : ClusterState I} (hraises : s.logical.Raises t.logical)
      (hshows : ∀ e, t.logical.Shows e → s.logical.Shows e ∨ W e)
      (htallies : t.phaseEventTallies = s.phaseEventTallies) : Move V W s t
  | win {s t : ClusterState I} {h : TaskHash} {incoming : TaskState I}
      (counted : Option (PhaseId × PhaseTally)) (hv : V h incoming)
      (hwins : s.logical.Wins h incoming)
      (hlogical : t.logical = s.logical.put h incoming ∨
        t.logical = (s.logical.resumeOn h).put h incoming)
      (hcounted : counted = incoming.eventTally ∨
        counted = none ∧ ∀ e, incoming.event h = some e → W e)
      (htally : ∀ c, t.phaseEventTallyFor c =
        s.phaseEventTallyFor c + if counted = some c then 1 else 0) : Move V W s t

/-- A sequence of changes. -/
abbrev Moves (V : TaskHash → TaskState I → Prop) (W : TallyEvent → Prop) :
    ClusterState I → ClusterState I → Prop := Relation.ReflTransGen (Move V W)

variable {V : TaskHash → TaskState I → Prop} {W : TallyEvent → Prop} {s t : ClusterState I}
  {incoming : TaskState I}

/-- Nothing changes on the ledger. -/
theorem Move.same (hlogical : t.logical = s.logical)
    (htallies : t.phaseEventTallies = s.phaseEventTallies) : Move V W s t :=
  .still (hlogical ▸ .refl s.logical) (fun _ he => .inl (hlogical ▸ he)) htallies

/-- A change uncovers no event. -/
theorem Move.covers (h : Move V W s t)
    (hband : e.key.band = .terminal) (he : s.logical.Covers e) : t.logical.Covers e := by
  cases h with
  | still hraises => exact hraises.covers hband he
  | @win h incoming _ _ hwins hlogical _ _ =>
    rcases hlogical with heq | heq <;> rw [heq]
    · exact covers_put_of_wins (.refl _) hwins hband he
    · exact covers_put_of_wins (raises_resumeOn h) hwins hband he

/-- Moves keep what is covered. -/
theorem Moves.covers (h : Moves V W s t)
    (hband : e.key.band = .terminal) (he : s.logical.Covers e) : t.logical.Covers e := by
  induction h with
  | refl => exact he
  | tail _ hmove ih => exact hmove.covers hband ih

/-! ## Merges -/

omit [DefaultHasher] [RecordCodec I] in
/-- One counter grows by one. -/
theorem phaseEventTallyFor_recordPhaseEventTally {key c : PhaseId × PhaseTally} :
    (s.recordPhaseEventTally key (s.phaseEventTallyFor key + 1)).phaseEventTallyFor c =
      s.phaseEventTallyFor c + if key = c then 1 else 0 := by
  unfold phaseEventTallyFor recordPhaseEventTally bumpGrowMax
  rw [HashMap.lookup_insert_eq]
  by_cases hc : c = key
  · subst hc
    simp
  · simp [hc, Ne.symm hc]

/-- What a winning write counts. -/
def countedFor (incoming : TaskState I) (newlyCompleted : Bool) : Option (PhaseId × PhaseTally) :=
  if newlyCompleted then some (incoming.definition.phaseId, .completed)
  else if incoming.status.isFailureTerminal then some (incoming.definition.phaseId, .failed)
  else none

/-- A winner counts its own event. -/
theorem phaseEventTallyFor_writeWinner (s : ClusterState I) (h : TaskHash)
    (incoming : TaskState I) (newlyCompleted : Bool) (outputs : Option TaskOutputs)
    (c : PhaseId × PhaseTally) :
    (s.writeWinner h incoming newlyCompleted outputs).1.phaseEventTallyFor c =
      s.phaseEventTallyFor c + if countedFor incoming newlyCompleted = some c then 1 else 0 := by
  have hrest : (s.writeWinner h incoming newlyCompleted outputs).1.phaseEventTallies =
      (s.recordWin incoming newlyCompleted).phaseEventTallies := by
    cases newlyCompleted with
    | false => rfl
    | true =>
      exact ((recordTaskOutputsValue_steps _ h outputs).events rfl).trans
        ((resumeBlockedOn_steps _ h).events rfl)
  have hwin : (s.recordWin incoming newlyCompleted).phaseEventTallyFor c =
      s.phaseEventTallyFor c + if countedFor incoming newlyCompleted = some c then 1 else 0 := by
    unfold recordWin countedFor
    cases newlyCompleted with
    | true => simpa using phaseEventTallyFor_recordPhaseEventTally
    | false =>
      by_cases hfailed : incoming.status.isFailureTerminal = true
      · simpa [hfailed] using phaseEventTallyFor_recordPhaseEventTally
      · simp [hfailed]
  rw [← hwin, phaseEventTallyFor, hrest]
  rfl

/-- The write of a winning entry is one change. -/
theorem writeWinner_move (ht : t.Consistent) (hkeep : t.ReadsKeep) {wasCompleted : Bool}
    (hgate : GateSpec s h incoming (t, some wasCompleted)) (hv : V h incoming)
    (hagain : ∀ st, s.logical h = some st → st.status = .completed →
      incoming.status = .completed → taskJoinKey st < taskJoinKey incoming →
      ∀ e, incoming.event h = some e → W e) (outputs : Option TaskOutputs) :
    Move V W t (t.writeWinner h incoming (incoming.status = .completed && !wasCompleted)
      outputs).1 := by
  have hbefore : s.logical.Wins h incoming := hgate.wins.mp rfl
  have hwins : t.logical.Wins h incoming := hgate.logical ▸ hbefore
  have hfirst := hgate.firstCompletion
  have hlogical := logical_writeWinner ht hkeep h incoming
    (incoming.status = .completed && !wasCompleted) outputs
  have htally := phaseEventTallyFor_writeWinner t h incoming
    (incoming.status = .completed && !wasCompleted) outputs
  refine .win _ hv hwins ?_ ?_ htally
  · rw [hlogical]
    split_ifs
    · exact .inr rfl
    · exact .inl rfl
  · unfold countedFor
    by_cases hdone : incoming.status = .completed
    · cases wasCompleted with
      | false => simp [hdone, eventTally]
      | true =>
        obtain ⟨st, hst, hcompleted⟩ := (hgate.wasCompleted true rfl).mp rfl
        refine .inr ⟨?_, fun e he => hagain st hst hcompleted hdone (hbefore st hst) e he⟩
        simp [hdone, TaskStatus.isFailureTerminal]
    · simp [hdone, eventTally]

/-- A permanent failure of an entry that is vouched for spreads only to such entries. -/
def Spreads (V : TaskHash → TaskState I → Prop) (L : Ledger I) : Prop :=
  ∀ d st on incoming, L d = some st → st.status = .blocked on → V on incoming →
    incoming.status.isCascadeTerminal = true → V d st.upstreamFailed

/-- The paused entries of `M` are entries of `L`. -/
def PausedBefore (L M : Ledger I) : Prop :=
  ∀ d st on, M d = some st → st.status = .blocked on → L d = some st

omit [DefaultHasher] [RecordCodec I] in
/-- What spreads in a ledger spreads in one with the same pauses. -/
theorem Spreads.of_pausedBefore {L M : Ledger I} (h : Spreads V L) (hpaused : PausedBefore L M) :
    Spreads V M :=
  fun d st on incoming hst hstatus => h d st on incoming (hpaused d st on hst hstatus) hstatus

/-- The write of a winning entry pauses nothing but that entry. -/
theorem pausedBefore_writeWinner (ht : t.Consistent) (hkeep : t.ReadsKeep)
    (hsame : t.logical = s.logical) (h : TaskHash) (incoming : TaskState I)
    (newlyCompleted : Bool) (outputs : Option TaskOutputs) (d : TaskHash) (st : TaskState I)
    (on : TaskHash) (hst : (t.writeWinner h incoming newlyCompleted outputs).1.logical d = some st)
    (hstatus : st.status = .blocked on) : s.logical d = some st ∨ d = h ∧ st = incoming := by
  rw [logical_writeWinner ht hkeep, hsame] at hst
  split_ifs at hst
  · rw [put_apply] at hst
    split_ifs at hst with hd
    · exact .inr ⟨hd, (Option.some.inj hst).symm⟩
    · refine .inl ?_
      by_cases hw : s.logical.Waits d h
      · obtain ⟨st', hst', hon⟩ := hw
        rw [resumeOn_of_waits hst' hon] at hst
        cases hst
        cases hstatus
      · rwa [resumeOn_of_not_waits hw] at hst
  · rw [put_apply] at hst
    split_ifs at hst with hd
    · exact .inr ⟨hd, (Option.some.inj hst).symm⟩
    · exact .inl hst

/-- The cascade of a failure, level by level. `step` is the merge of one dependent. -/
theorem foldl_moves (step : ClusterState I → TaskHash × TaskState I → ClusterState I)
    (hsteps : ∀ u d, LedgerSteps u (step u d))
    (hstep : ∀ (u : ClusterState I) (d : TaskHash × TaskState I), u.Consistent → u.Legible →
      Spreads V u.logical → V d.1 d.2 →
      d.2.status = .failed .nonRecoverable "upstream-failed" .default →
      Moves V W u (step u d) ∧ PausedBefore u.logical (step u d).logical)
    (ds : List (TaskHash × TaskState I)) {w : ClusterState I} (hw : w.Consistent)
    (hlegible : w.Legible) (hspreads : Spreads V w.logical) (hds : ∀ d ∈ ds, V d.1 d.2 ∧
      d.2.status = .failed .nonRecoverable "upstream-failed" .default) :
    Moves V W w (ds.foldl step w) ∧ PausedBefore w.logical (ds.foldl step w).logical := by
  induction ds generalizing w with
  | nil => exact ⟨.refl, fun _ _ _ hst _ => hst⟩
  | cons d ds ih =>
    obtain ⟨hd, hds⟩ := List.forall_mem_cons.mp hds
    obtain ⟨hmoves, hpaused⟩ := hstep w d hw hlegible hspreads hd.1 hd.2
    obtain ⟨hrest, hleft⟩ := ih (hw.steps hlegible.keeps (hsteps w d)) (hlegible.steps (hsteps w d))
      (hspreads.of_pausedBefore hpaused) hds
    refine ⟨hmoves.trans hrest, fun x st on hst hstatus => ?_⟩
    exact hpaused x st on (hleft x st on hst hstatus) hstatus

/-- **A merge is a sequence of changes** that stores only entries that are vouched for, and pauses
nothing but the merged entry. -/
theorem mergeTaskStateFuel_moves (fuel : ℕ) (hs : s.Consistent) (hlegible : s.Legible)
    (hspreads : incoming.status.isCascadeTerminal = true → Spreads V s.logical) (hv : V h incoming)
    (hagain : ∀ st, s.logical h = some st → st.status = .completed →
      incoming.status = .completed → taskJoinKey st < taskJoinKey incoming →
      ∀ e, incoming.event h = some e → W e) (outputs : Option TaskOutputs) :
    Moves V W s (mergeTaskStateFuel fuel s h incoming outputs).state ∧
      ∀ d st on, (mergeTaskStateFuel fuel s h incoming outputs).state.logical d = some st →
        st.status = .blocked on → s.logical d = some st ∨ d = h ∧ st = incoming := by
  induction fuel generalizing s h incoming outputs with
  | zero => exact ⟨.refl, fun d st on hst _ => .inl hst⟩
  | succ fuel ih =>
    have hgate := mergeGate_spec hs hlegible h incoming
    obtain ⟨hgsteps, hfree⟩ := mergeGate_steps s h incoming
    rw [mergeTaskStateFuel_state]
    cases hg : s.mergeGate h incoming with
    | mk t verdict =>
      rw [hg] at hgate hgsteps hfree
      have ht := hs.steps hlegible.keeps hgsteps.steps
      have htlegible := hlegible.steps hgsteps.steps
      have hopened : Move V W s t := .same hgate.logical (hgsteps.events rfl)
      cases verdict with
      | none =>
        refine ⟨.single hopened, fun d st on hst _ => .inl ?_⟩
        rwa [← hgate.logical]
      | some wasCompleted =>
        have hwrite := writeWinner_move (W := W) ht htlegible.keeps hgate hv hagain outputs
        have hpaused := pausedBefore_writeWinner ht htlegible.keeps hgate.logical h incoming
          (incoming.status = .completed && !wasCompleted) outputs
        have hwsteps := writeWinner_steps t h incoming
          (incoming.status = .completed && !wasCompleted) outputs (hfree _ rfl)
        have hw := ht.steps htlegible.keeps hwsteps.steps
        have hwlegible := htlegible.steps hwsteps.steps
        dsimp only
        generalize (t.writeWinner h incoming (incoming.status = .completed && !wasCompleted)
          outputs).1 = w at hwrite hpaused hw hwlegible
        have hmoves : Moves V W s w := (Relation.ReflTransGen.single hopened).tail hwrite
        split_ifs with hcascade
        · -- The failed entry is not paused, so what is paused now was paused before.
          have hbefore : PausedBefore s.logical w.logical := by
            intro d st on hst hstatus
            rcases hpaused d st on hst hstatus with hold | ⟨-, rfl⟩
            · exact hold
            · rw [hstatus] at hcascade
              cases hcascade
          have hwspreads := (hspreads hcascade).of_pausedBefore hbefore
          have hfold := foldl_moves (W := W)
            (fun u d => (mergeTaskStateFuel fuel u d.1 d.2 none).state)
            (fun u d => (mergeTaskStateFuel_steps fuel u d.1 d.2 none).steps)
            (fun u d hu hulegible huspreads hd hnew => by
              obtain ⟨hmoves, hpaused⟩ := ih hu hulegible (fun _ => huspreads) hd
                (fun _ _ _ hdone => by
                  rw [hnew] at hdone
                  cases hdone) none
              refine ⟨hmoves, fun x st on hst hstatus => ?_⟩
              rcases hpaused x st on hst hstatus with hold | ⟨-, rfl⟩
              · exact hold
              · rw [hnew] at hstatus
                cases hstatus)
            (w.blockedDependents h) hw hwlegible hwspreads ?_
          · obtain ⟨hcascaded, hleft⟩ := hfold
            exact ⟨hmoves.trans hcascaded, fun d st on hst hstatus =>
              .inl (hbefore d st on (hleft d st on hst hstatus) hstatus)⟩
          · rintro ⟨d, new⟩ hd
            obtain ⟨st, hst, hwaits, rfl⟩ := mem_blockedDependents.mp hd
            have hstatus := waitsOn_eq_some.mp hwaits
            exact ⟨hwspreads d st h incoming (logical_of_fat hst) hstatus hv hcascade, rfl⟩
        · exact ⟨hmoves, hpaused⟩

end ClusterState

end DynRunner
