import DynRunner.Inbox.Restore
import DynRunner.Ledger.Spill
import DynRunner.Tally.Apply

/-!
# Restores and spills as sequences of changes

A restored snapshot merges its entries one after the other and then takes over the larger of the
two tallies of each phase. A spill replaces entries by the records written for them and counts
nothing.
-/

namespace DynRunner

open List

variable {I : Type}

namespace ClusterState

/-- The count of a phase after the larger of two counts has been taken over. -/
theorem getD_lookup_mergeGrowMax {K : Type} [DecidableEq K] {m incoming : HashMap K ℕ} {k : K} :
    ((mergeGrowMax m incoming).lookup k).getD 0 =
      max ((m.lookup k).getD 0) ((incoming.lookup k).getD 0) := by
  rw [lookup_mergeGrowMax]
  cases m.lookup k with
  | none => cases incoming.lookup k <;> simp [growMax]
  | some =>
    cases incoming.lookup k with
    | none => simp
    | some => simp [growMax_some]

variable [DefaultHasher] [RecordCodec I]
variable {V : TaskHash → TaskState I → Prop} {W : TallyEvent → Prop}

/-! ## Restores -/

variable {s : ClusterState I} {order : List (TaskHash × TaskState I)} {incoming st : TaskState I}

/-- A merged entry is covered afterwards. -/
theorem covers_mergeTaskState (hs : s.Consistent) (hlegible : s.Legible)
    {h : TaskHash} {outputs : Option TaskOutputs} {e : TallyEvent}
    (hhash : e.hash = h) (hkey : e.key ≤ taskJoinKey incoming) :
    (s.mergeTaskState h incoming outputs).state.logical.Covers e := by
  subst hhash
  rw [logical_mergeTaskState hs hlegible]
  by_cases hwins : s.logical.Wins e.hash incoming
  · exact ⟨incoming, Ledger.merge_self hwins, hkey⟩
  · rw [Ledger.merge_of_not_wins hwins]
    unfold Ledger.Wins at hwins
    push Not at hwins
    obtain ⟨st, hst, hle⟩ := hwins
    exact ⟨st, hst, hkey.trans hle⟩

/-- What is paused, or about to be, fails with its prerequisite only if that is vouched for. -/
def SpreadsWith (V : TaskHash → TaskState I → Prop) (L : Ledger I)
    (order : List (TaskHash × TaskState I)) : Prop :=
  ∀ d st on incoming, L d = some st ∨ (d, st) ∈ order → st.status = .blocked on →
    V on incoming → incoming.status.isCascadeTerminal = true → V d st.upstreamFailed

variable {outputs : HashMap TaskHash TaskOutputs}

/-- The task loop of a restore is a sequence of changes and covers every entry of the snapshot. -/
theorem foldl_restoreEntry_moves {acc : ClusterState I × List (TaskInfo I)}
    (hs : acc.1.Consistent) (hlegible : acc.1.Legible) (hall : ∀ e, W e)
    (hv : ∀ e ∈ order, V e.1 e.2) (hspreads : (∃ e ∈ order, e.2.status.isCascadeTerminal = true) →
      SpreadsWith V acc.1.logical order) :
    Moves V W acc.1 (order.foldl (restoreEntry outputs) acc).1 ∧
      ∀ e ∈ order, ∀ f : TallyEvent, f.hash = e.1 → f.key.band = .terminal →
        f.key ≤ taskJoinKey e.2 → (order.foldl (restoreEntry outputs) acc).1.logical.Covers f := by
  induction order generalizing acc with
  | nil => exact ⟨.refl, fun _ he => by cases he⟩
  | cons e order ih =>
    rw [foldl_cons]
    -- The definition is registered first, which the ledger does not see.
    have hsame := (registerRestoredDef_same acc.1 e.1 e.2.definition).sameLedger
    have hreg : Move V W acc.1 (acc.1.registerRestoredDef e.1 e.2.definition) :=
      .same hsame.logical rfl
    have hregCons := hs.congr hsame
    have hregLegible := hlegible.steps hsame.steps
    obtain ⟨hmerge, hpaused⟩ := mergeTaskStateFuel_moves (W := W)
      ((acc.1.registerRestoredDef e.1 e.2.definition).tasks.entries.length + 2) hregCons
      hregLegible
      (fun hcascade d st on incoming hst => by
        rw [hsame.logical] at hst
        exact hspreads ⟨e, mem_cons_self, hcascade⟩ d st on incoming (.inl hst))
      (hv e mem_cons_self) (fun _ _ _ _ _ f _ => hall f) (outputs.lookup e.1)
    have hsteps := restoreEntry_steps outputs acc e
    have hleft : (∃ f ∈ order, f.2.status.isCascadeTerminal = true) →
        SpreadsWith V (restoreEntry outputs acc e).1.logical order := by
      rintro ⟨f, hf, hcascade⟩ d st on incoming hst hstatus
      refine hspreads ⟨f, mem_cons_of_mem e hf, hcascade⟩ d st on incoming ?_ hstatus
      rcases hst with hst | hst
      · rcases hpaused d st on hst hstatus with hold | ⟨rfl, rfl⟩
        · rw [hsame.logical] at hold
          exact .inl hold
        · exact .inr mem_cons_self
      · exact .inr (mem_cons_of_mem e hst)
    obtain ⟨hrest, hcovers⟩ := ih (hs.steps hlegible.keeps hsteps) (hlegible.steps hsteps)
      (fun f hf => hv f (mem_cons_of_mem e hf)) hleft
    refine ⟨(Relation.ReflTransGen.head hreg hmerge).trans hrest, forall_mem_cons.mpr
      ⟨fun g hhash hband hkey => ?_, hcovers⟩⟩
    exact hrest.covers hband (covers_mergeTaskState hregCons hregLegible hhash hkey)

/-- **A restore** is a sequence of changes that covers every entry of the snapshot, and then takes
over the larger tallies. -/
theorem restoreInOrder_moves (hs : s.Consistent) (hlegible : s.Legible)
    (hall : ∀ e, W e) (snap : ClusterStateSnapshot I) (hv : ∀ e ∈ order, V e.1 e.2)
    (hspreads : (∃ e ∈ order, e.2.status.isCascadeTerminal = true) →
      SpreadsWith V s.logical order) :
    ∃ u : ClusterState I, Moves V W s u ∧ (s.restoreInOrder snap order).1.logical = u.logical ∧
      (∀ c, (s.restoreInOrder snap order).1.phaseEventTallyFor c =
        max (u.phaseEventTallyFor c) ((snap.phaseEventTallies.lookup c).getD 0)) ∧
      ∀ e ∈ order, ∀ f : TallyEvent, f.hash = e.1 → f.key.band = .terminal →
        f.key ≤ taskJoinKey e.2 → u.logical.Covers f := by
  have hsame := (resumeDefAllocFloor_same s).sameLedger
  have hfloor : Move V W s s.resumeDefAllocFloor := .same hsame.logical rfl
  have hstart : SpreadsWith V s.logical order →
      SpreadsWith V (s.resumeDefAllocFloor, ([] : List (TaskInfo I))).1.logical order := by
    rw [hsame.logical]
    exact id
  have hloop : Moves V W s.resumeDefAllocFloor (s.restoreTasks snap.taskOutputs order).1 ∧
      ∀ e ∈ order, ∀ f : TallyEvent, f.hash = e.1 → f.key.band = .terminal →
        f.key ≤ taskJoinKey e.2 →
        (s.restoreTasks snap.taskOutputs order).1.logical.Covers f :=
    foldl_restoreEntry_moves (hs.congr hsame) (hlegible.steps hsame.steps) hall hv
      (hstart ∘ hspreads)
  refine ⟨(s.restoreTasks snap.taskOutputs order).1, .head hfloor hloop.1,
    restoreInOrder_sameLedger.logical, fun c => ?_, hloop.2⟩
  unfold restoreInOrder phaseEventTallyFor
  rw [(restoreCustom_sameButInbox _ _ _).phaseEventTallies]
  rw [getD_lookup_mergeGrowMax, (restoreOutputs_steps _ _).events rfl]

/-! ## Spills -/

omit [DefaultHasher] [RecordCodec I] in
/-- Which tally counts a terminal state depends on its outcome only. -/
theorem eventTally_eq_of_bucket :
    st.eventTally = (outcomeBucketOf st.status).bind fun b => match b with
      | .succeeded => some (st.definition.phaseId, .completed)
      | .failRetry | .failOom | .failFinal => some (st.definition.phaseId, .failed)
      | .skipped | .setupSucceeded => none := by
  unfold TaskState.eventTally
  cases st.status with
  | failed kind =>
    cases kind with
    | resourceExhausted kind =>
      by_cases hkind : kind = "memory"
      · rw [outcomeBucketOf, bucketForFailedKind, if_pos hkind]
        rfl
      · rw [outcomeBucketOf, bucketForFailedKind, if_neg hkind]
        rfl
    | _ => rfl
  | _ => rfl

/-- A written record that replaces an entry counts nothing and shows no other event. -/
theorem commitRecord_move (hcodec : RecordCodec.RoundTrips I)
    {w : WrittenRecord I} (hw : WrittenSound w) (hphase : ∀ st, s.logical w.hash = some st →
      w.record.state.definition.phaseId = st.definition.phaseId) :
    Move V W s (s.commitRecord w) := by
  rcases logical_commitRecord hcodec with hsame | ⟨state, c, path, hst, hkey, hclass, hlogical⟩
  · rw [hsame]
    exact .same rfl rfl
  · have hst := logical_of_fat hst
    have hkeys : taskJoinKey w.record.state = taskJoinKey state := hw.key.trans hkey.symm
    have hbucket : outcomeBucketOf w.record.state.status = outcomeBucketOf state.status :=
      (outcomeBucketOf_of_joinKey hkeys hw.eligible hclass).trans
        (outcomeBucketOf_of_joinKey (rfl : taskJoinKey state = taskJoinKey state)
          (settleEligible_of_settledClassOf hclass) hclass).symm
    have hevent : w.record.state.event w.hash = state.event w.hash := by
      rw [TaskState.event, TaskState.event, eventTally_eq_of_bucket, eventTally_eq_of_bucket,
        hbucket, hphase state hst, hkeys]
    have htallies : (s.commitRecord w).phaseEventTallies = s.phaseEventTallies := by
      rcases s.commitRecord_cases with hsame | ⟨_, _, _, _, _, heq⟩
      · rw [hsame]
      · rw [heq]
        rfl
    refine .still ?_ (fun e he => .inl ?_) htallies
    · rw [hlogical]
      refine .put fun st hst' => ?_
      cases hst.symm.trans hst'
      exact ⟨.of_le hkeys.ge, hphase state hst⟩
    · rw [hlogical] at he
      rcases Ledger.shows_put he with he | he
      · exact .of_event hst (hevent.symm.trans he)
      · exact he

/-- **A spill** counts nothing and uncovers nothing. -/
theorem commitSpill_moves (hcodec : RecordCodec.RoundTrips I)
    {receipt : List (WrittenRecord I)} (hreceipt : ∀ w ∈ receipt, WrittenSound w ∧
      ∀ st, s.logical w.hash = some st →
        w.record.state.definition.phaseId = st.definition.phaseId) :
    Moves V W s (s.commitSpill receipt) := by
  induction receipt generalizing s with
  | nil => exact .refl
  | cons w receipt ih =>
    obtain ⟨⟨hw, hphase⟩, hrest⟩ := forall_mem_cons.mp hreceipt
    refine .head (commitRecord_move hcodec hw hphase) (ih fun w' hw' => ⟨(hrest w' hw').1, ?_⟩)
    intro st hst
    rcases logical_commitRecord hcodec with hsame | ⟨state, c, path, hfat, -, -, hlogical⟩
    · rw [hsame] at hst
      exact (hrest w' hw').2 st hst
    · rw [hlogical, Ledger.put_apply] at hst
      split_ifs at hst with hx
      · cases hst
        have hstate := logical_of_fat hfat
        exact ((hrest w' hw').2 state (hx ▸ hstate)).trans (hphase state hstate).symm
      · exact (hrest w' hw').2 st hst

end ClusterState

end DynRunner
