import DynRunner.Ledger.Model
import Mathlib.Data.Finset.Card

/-!
# Resumes and failure cascades

What the two consequences of a merge do to the entries in memory. A resume walks the
reverse index, so it relies on that index being exact. A failure cascade scans for the
entries paused on the failed task and merges a failure into each, which starts the next
level; the fuel is the number of entries that can still be paused.
-/

namespace DynRunner

open TaskState

variable {I : Type} [DefaultHasher]

namespace ClusterState

/-- Two states that differ at most in the entries in memory, their summaries and the event
tallies. -/
structure SameRest (s t : ClusterState I) : Prop where
  settled : t.settled = s.settled
  definitions : t.definitions = s.definitions
  taskOutputs : t.taskOutputs = s.taskOutputs
  customMessages : t.customMessages = s.customMessages
  customTerminalWatermarks : t.customTerminalWatermarks = s.customTerminalWatermarks
  control : t.control = s.control

omit [DefaultHasher] in
theorem SameRest.refl (s : ClusterState I) : SameRest s s := ⟨rfl, rfl, rfl, rfl, rfl, rfl⟩

variable {s t : ClusterState I} {h x on root : TaskHash} {st : TaskState I} {L : Ledger I}
  {D : Set TaskHash} {B : Finset TaskHash} {fuel : ℕ} {incoming new : TaskState I}

omit [DefaultHasher] in
theorem SameRest.trans {u : ClusterState I} (h : SameRest s t) (h' : SameRest t u) : SameRest s u :=
  ⟨h'.settled.trans h.settled, h'.definitions.trans h.definitions,
    h'.taskOutputs.trans h.taskOutputs, h'.customMessages.trans h.customMessages,
    h'.customTerminalWatermarks.trans h.customTerminalWatermarks, h'.control.trans h.control⟩

variable {acc : ClusterState I × List (TaskInfo I)}

/-- Writing an entry leaves the rest. -/
theorem setTaskState_sameRest (h : TaskHash) :
    SameRest s (s.setTaskState h st) := ⟨rfl, rfl, rfl, rfl, rfl, rfl⟩

omit [DefaultHasher] in
/-- The record of a win leaves the rest. -/
theorem recordWin_sameRest (s : ClusterState I) (incoming : TaskState I) (newlyCompleted : Bool) :
    SameRest s (s.recordWin incoming newlyCompleted) := by
  unfold recordWin
  split
  · exact ⟨rfl, rfl, rfl, rfl, rfl, rfl⟩
  · exact SameRest.refl s

omit [DefaultHasher] in
@[simp] theorem fat_recordWin
    {newlyCompleted : Bool} : (s.recordWin incoming newlyCompleted).fat = s.fat := by
  funext x
  rw [fat, fat, (recordWin_sameLedger s incoming newlyCompleted).tasks]

/-! ## Resuming -/

/-- One iteration of a resume. -/
theorem fat_resumeOne (h : TaskHash) : (resumeOne acc h).1.fat x =
      if x = h ∧ ((acc.1.fat h).bind waitsOn).isSome then
        (acc.1.fat h).map resumed
      else acc.1.fat x := by
  unfold resumeOne
  cases hst : acc.1.tasks.lookup h with
  | none =>
    have hfat : acc.1.fat h = none := hst
    simp [hfat]
  | some st =>
    have hfat : acc.1.fat h = some st := hst
    dsimp only
    split
    · rename_i hpaused
      have hpaused : st.waitsOn.isSome = true := hpaused
      rw [fat_setTaskState, Ledger.put_apply, hfat]
      simp [hpaused]
    · rename_i hpaused
      have hpaused : ¬st.waitsOn.isSome = true := hpaused
      rw [if_neg]
      rw [hfat]
      exact fun hx => hpaused hx.2

/-- A resume touches the listed entries that are paused, and no others. -/
theorem fat_foldl_resumeOne {l : List TaskHash} : (l.foldl resumeOne acc).1.fat x =
      if x ∈ l ∧ ((acc.1.fat x).bind waitsOn).isSome then
        (acc.1.fat x).map resumed
      else acc.1.fat x := by
  induction l generalizing acc with
  | nil => simp
  | cons h l ih =>
    rw [List.foldl_cons, ih, fat_resumeOne]
    by_cases hx : x = h
    · subst hx
      cases hst : acc.1.fat x with
      | none => simp
      | some st =>
        by_cases hpaused : st.waitsOn.isSome = true
        all_goals simp [hpaused]
    · simp [hx]

/-- With an exact reverse index, a resume is the resume of the logical ledger. -/
theorem fat_resumeBlockedOn (hs : s.Consistent) (h : TaskHash) :
    (s.resumeBlockedOn h).1.fat = s.fat.resumeOn h := by
  funext x
  have hmem : x ∈ (s.blockedBy.lookup h).getD [] ↔ s.fat.Waits x h := hs.mem_waiters h x
  rw [resumeBlockedOn, fat_foldl_resumeOne]
  by_cases hw : s.fat.Waits x h
  · obtain ⟨st, hst, hon⟩ := hw
    rw [Ledger.resumeOn_of_waits hst hon, if_pos, hst, Option.map_some]
    refine ⟨hmem.mpr ⟨st, hst, hon⟩, ?_⟩
    rw [hst, Option.bind_some, hon]
    rfl
  · rw [Ledger.resumeOn_of_not_waits hw, if_neg]
    exact fun hx => hw (hmem.mp hx.1)

/-- Resuming settles nothing. -/
theorem resumeBlockedOn_settled (h : TaskHash) : (s.resumeBlockedOn h).1.settled = s.settled := by
  refine List.foldlRecOn (motive := fun acc : ClusterState I × List (TaskInfo I) =>
    acc.1.settled = s.settled) _ _ rfl fun acc hacc x _ => ?_
  unfold resumeOne
  split
  · split <;> exact hacc
  · exact hacc

/-! ## Failing -/

omit [DefaultHasher] in
/-- The scan finds exactly the entries paused on the failed task. -/
theorem mem_blockedDependents : (x, new) ∈ s.blockedDependents h ↔
      ∃ st, s.fat x = some st ∧ st.waitsOn = some h ∧ new = st.upstreamFailed := by
  unfold blockedDependents
  rw [List.mem_filterMap]
  constructor
  · rintro ⟨⟨y, st⟩, hmem, hsome⟩
    split at hsome
    · rename_i hon
      cases hsome
      exact ⟨st, HashMap.mem_entries_iff.mp hmem, hon, rfl⟩
    · cases hsome
  · rintro ⟨st, hst, hon, rfl⟩
    refine ⟨⟨x, st⟩, HashMap.mem_entries_iff.mpr hst, ?_⟩
    have hon : st.status.blockedOn = some h := hon
    simp [hon]

/-- A paused entry loses against the failure of its prerequisite. -/
theorem taskJoinKey_lt_upstreamFailed
    (h : st.waitsOn = some on) : taskJoinKey st < taskJoinKey st.upstreamFailed := by
  have hstatus := waitsOn_eq_some.mp h
  have hkey : taskJoinKey st = keyBlocked st.attempt := by
    rw [taskJoinKey, hstatus]
    rfl
  have hterminal : st.upstreamFailed.status.isTerminal = true := rfl
  rw [hkey]
  refine TaskJoinKey.lt_of_band_lt (by rw [taskJoinKey, joinKey_attempt]; rfl) ?_
  rw [taskJoinKey, joinKey_band, if_pos hterminal]
  exact Nat.lt_succ_self 1

variable [RecordCodec I]

/-- `cascade_fail_blocked_dependents`: merge a failure into every entry paused on `h`. -/
def cascadeFuel (fuel : ℕ) (s : ClusterState I) (h : TaskHash) : ClusterState I :=
  (s.blockedDependents h).foldl (fun s d => (mergeTaskStateFuel fuel s d.1 d.2 none).state) s

/-- Failing a paused entry: it is counted, written, and its own dependents follow. -/
theorem mergeTaskStateFuel_paused (hst : s.fat x = some st) (hw : st.waitsOn = some on) :
    (mergeTaskStateFuel (fuel + 1) s x st.upstreamFailed none).state =
      cascadeFuel fuel ((s.recordWin st.upstreamFailed false).setTaskState x st.upstreamFailed)
        x := by
  have hlookup : s.tasks.lookup x = some st := hst
  have hfat : x ∈ s.tasks := HashMap.mem_iff_lookup.mpr ⟨st, hlookup⟩
  have hopen : decide (st.status = .completed) = false := by
    rw [waitsOn_eq_some.mp hw]
    rfl
  have hverdict : s.fatVerdict x st.upstreamFailed = some false := by
    simp only [fatVerdict, hlookup, taskJoinKeyDominates_iff.mpr (taskJoinKey_lt_upstreamFailed hw),
      if_true, hopen]
  rw [mergeTaskStateFuel, mergeGate, if_pos hfat, hverdict]
  rfl

/-- Failing an entry that has already failed the same way changes nothing. -/
theorem mergeTaskStateFuel_tie (hst : s.fat x = some st) :
    (mergeTaskStateFuel fuel s x st none).state = s := by
  cases fuel with
  | zero => rfl
  | succ =>
    have hlookup : s.tasks.lookup x = some st := hst
    have hfat : x ∈ s.tasks := HashMap.mem_iff_lookup.mpr ⟨st, hlookup⟩
    have hverdict : s.fatVerdict x st = none := by
      simp only [fatVerdict, hlookup, taskJoinKeyDominates, lt_irrefl, decide_false,
        Bool.false_eq_true, if_false]
    rw [mergeTaskStateFuel, mergeGate, if_pos hfat, hverdict]

/-- A stage of the cascade that started from the ledger `L` with the failure of `root`: the
entries in `D`, all of them doomed, have failed. -/
structure CascadeStage (L : Ledger I) (root : TaskHash) (D : Set TaskHash)
    (s : ClusterState I) : Prop where
  failed : Board.FailedExactly upstreamFailed L D s.fat
  doomed : D ⊆ L.doomed root

/-- What part of a cascade achieves between two stages: it fails more entries, leaves nothing
paused on those, and touches nothing else. -/
structure CascadeStep (L : Ledger I) (root : TaskHash) (D D' : Set TaskHash)
    (s t : ClusterState I) : Prop where
  stage : CascadeStage L root D' t
  grows : D ⊆ D'
  closed : ∀ x y, t.fat.Waits x y → y ∈ D' → y ∈ D
  rest : SameRest s t

omit [DefaultHasher] [RecordCodec I] in
/-- An entry paused at a stage has not failed, and was paused from the start. -/
theorem CascadeStage.waits (hs : CascadeStage L root D s) {y : TaskHash} (hw : s.fat.Waits x y) :
    x ∉ D ∧ L.Waits x y := hs.failed.waits (fun _ => rfl) hw

/-- The entries that can still be paused fit in the fuel. -/
def PausedWithin (s : ClusterState I) (B : Finset TaskHash) : Prop :=
  ∀ x y, s.fat.Waits x y → x ∈ B

omit [DefaultHasher] [RecordCodec I] in
/-- A step of the cascade pauses nothing elsewhere. -/
theorem CascadeStep.pausedWithin {D' : Set TaskHash}
    (h : CascadeStep L root D D' s t) (hs : CascadeStage L root D s)
    (hB : s.PausedWithin B) : t.PausedWithin B := by
  intro x y hw
  obtain ⟨hx, e, he, hon⟩ := h.stage.waits hw
  refine hB x y ⟨e, ?_, hon⟩
  rw [(hs.failed x).2 fun hD => hx (h.grows hD)]
  exact he

section Level

variable (hnext : ∀ (s : ClusterState I) (g : TaskHash) (D : Set TaskHash) (B : Finset TaskHash),
  CascadeStage L root D s → g = root ∨ g ∈ D → s.PausedWithin B → B.card ≤ fuel →
  ∃ D', CascadeStep L root D D' s (cascadeFuel fuel s g) ∧
    ∀ x, ¬(cascadeFuel fuel s g).fat.Waits x g)
include hnext

/-- Failing one dependent, given what the next level of the cascade achieves. -/
theorem mergeTaskStateFuel_cascadeStep (hs : CascadeStage L root D s)
    (hB : s.PausedWithin B) (hcard : B.card ≤ fuel + 1)
    (hst : L x = some st) (hw : st.waitsOn = some g) (hx : x ∈ L.doomed root) :
    ∃ D', CascadeStep L root D D' s
        (mergeTaskStateFuel (fuel + 1) s x st.upstreamFailed none).state ∧ x ∈ D' := by
  by_cases hxD : x ∈ D
  · have hfailed : s.fat x = some st.upstreamFailed := by rw [(hs.failed x).1 hxD, hst]; rfl
    rw [mergeTaskStateFuel_tie hfailed]
    exact ⟨D, ⟨hs, subset_rfl, fun _ _ _ hy => hy, SameRest.refl s⟩, hxD⟩
  · have hfat : s.fat x = some st := by rw [(hs.failed x).2 hxD, hst]
    rw [mergeTaskStateFuel_paused hfat hw]
    generalize ht : (s.recordWin st.upstreamFailed false).setTaskState x st.upstreamFailed = t
    have htfat : t.fat = s.fat.put x st.upstreamFailed := by
      rw [← ht, fat_setTaskState, fat_recordWin]
    have hrest : SameRest s t := by
      rw [← ht]
      exact (recordWin_sameRest s _ _).trans (setTaskState_sameRest _)
    have hstage : CascadeStage L root (insert x D) t := by
      refine ⟨?_, Set.insert_subset hx hs.doomed⟩
      rw [htfat]
      exact hs.failed.insert hst
    -- The written entry is no longer paused, so one unit of fuel is free again.
    have hBt : t.PausedWithin (B.erase x) := by
      intro y z hyz
      obtain ⟨hy, e, he, hon⟩ := hstage.waits hyz
      have hyx : y ≠ x := fun h => hy (h ▸ Set.mem_insert x D)
      refine Finset.mem_erase.mpr ⟨hyx, hB y z ⟨e, ?_, hon⟩⟩
      rw [(hs.failed y).2 fun hD => hy (Set.mem_insert_of_mem x hD)]
      exact he
    have hcard' : (B.erase x).card ≤ fuel := by
      rw [Finset.card_erase_of_mem (hB x g ⟨st, hfat, hw⟩)]
      omega
    obtain ⟨D', hstep, hnone⟩ := hnext t x (insert x D) (B.erase x) hstage
      (Or.inr (Set.mem_insert x D)) hBt hcard'
    refine ⟨D', ⟨hstep.stage, (Set.subset_insert x D).trans hstep.grows, ?_,
      hrest.trans hstep.rest⟩, hstep.grows (Set.mem_insert x D)⟩
    intro y z hyz hz
    rcases hstep.closed y z hyz hz with rfl | hz
    · exact (hnone y hyz).elim
    · exact hz

/-- One level of the cascade, given what the next level achieves: every listed dependent
ends up failed. -/
theorem foldl_cascadeStep (ds : List (TaskHash × TaskState I))
    (hds : ∀ d ∈ ds, d.1 ∈ L.doomed root ∧
      ∃ st, L d.1 = some st ∧ st.waitsOn = some g ∧ d.2 = st.upstreamFailed)
    (hs : CascadeStage L root D s) (hB : s.PausedWithin B) (hcard : B.card ≤ fuel + 1) :
    ∃ D', CascadeStep L root D D' s (ds.foldl (fun s d =>
        (mergeTaskStateFuel (fuel + 1) s d.1 d.2 none).state) s) ∧ ∀ d ∈ ds, d.1 ∈ D' := by
  induction ds generalizing s D with
  | nil => exact ⟨D, ⟨hs, subset_rfl, fun _ _ _ hy => hy, SameRest.refl s⟩, fun _ hd => by cases hd⟩
  | cons d ds ih =>
    obtain ⟨hdoomed, st, hst, hw, hd2⟩ := hds d List.mem_cons_self
    obtain ⟨D₁, hfirst, hmem⟩ := mergeTaskStateFuel_cascadeStep hnext hs hB hcard hst hw hdoomed
    rw [← hd2] at hfirst
    obtain ⟨D₂, hlater, hmems⟩ := ih (fun d' hd' => hds d' (List.mem_cons_of_mem d hd'))
      hfirst.stage (hfirst.pausedWithin hs hB)
    refine ⟨D₂, ⟨hlater.stage, hfirst.grows.trans hlater.grows, ?_,
      hfirst.rest.trans hlater.rest⟩, ?_⟩
    · intro x y hw hy
      -- Nothing becomes paused later, so what the first dependent closed stays closed.
      have hy₁ := hlater.closed x y hw hy
      obtain ⟨hx, e, he, hon⟩ := hlater.stage.waits hw
      refine hfirst.closed x y ⟨e, ?_, hon⟩ hy₁
      rw [(hfirst.stage.failed x).2 fun hD => hx (hlater.grows hD)]
      exact he
    · intro d' hd'
      rcases List.mem_cons.mp hd' with rfl | hd'
      · exact hlater.grows hmem
      · exact hmems d' hd'

end Level

/-- What a cascade from `g` achieves, by induction on the fuel. -/
theorem cascadeFuel_cascadeStep (fuel : ℕ)
    (s : ClusterState I) (g : TaskHash) (D : Set TaskHash) (B : Finset TaskHash)
    (hs : CascadeStage L root D s) (hg : g = root ∨ g ∈ D) (hB : s.PausedWithin B)
    (hcard : B.card ≤ fuel) : ∃ D', CascadeStep L root D D' s (cascadeFuel fuel s g) ∧
      ∀ x, ¬(cascadeFuel fuel s g).fat.Waits x g := by
  have hdeps : ∀ d ∈ s.blockedDependents g, d.1 ∈ L.doomed root ∧
      ∃ st, L d.1 = some st ∧ st.waitsOn = some g ∧ d.2 = st.upstreamFailed := by
    intro d hd
    obtain ⟨st, hst, hw, hd2⟩ := mem_blockedDependents.mp hd
    obtain ⟨hx, hLw⟩ := hs.waits ⟨st, hst, hw⟩
    refine ⟨?_, st, by rw [← (hs.failed d.1).2 hx, hst], hw, hd2⟩
    rcases hg with rfl | hg
    · exact Board.mem_doomed_of_waits _ hLw
    · exact Board.mem_doomed_of_waits_doomed _ hLw (hs.doomed hg)
  -- Whatever the level achieves, an entry left paused on `g` would have been listed.
  have hclear : ∀ (t : ClusterState I) (D' : Set TaskHash), CascadeStep L root D D' s t →
      (∀ d ∈ s.blockedDependents g, d.1 ∈ D') → ∀ x, ¬t.fat.Waits x g := by
    intro t D' hstep hmem x hw
    obtain ⟨hx, e, he, hon⟩ := hstep.stage.waits hw
    have hsx : s.fat x = some e := by
      rw [(hs.failed x).2 fun hD => hx (hstep.grows hD)]
      exact he
    exact hx (hmem (x, e.upstreamFailed) (mem_blockedDependents.mpr ⟨e, hsx, hon, rfl⟩))
  cases fuel with
  | zero =>
    have hempty : s.blockedDependents g = [] := by
      rw [List.eq_nil_iff_forall_not_mem]
      intro d hd
      obtain ⟨st, hst, hw, _⟩ := mem_blockedDependents.mp hd
      have hmem := hB d.1 g ⟨st, hst, hw⟩
      rw [Finset.card_eq_zero.mp (Nat.le_zero.mp hcard)] at hmem
      cases hmem
    have hstep : CascadeStep L root D D s s := ⟨hs, subset_rfl, fun _ _ _ hy => hy, SameRest.refl s⟩
    rw [cascadeFuel, hempty]
    exact ⟨D, hstep, hclear s D hstep fun d hd => by rw [hempty] at hd; cases hd⟩
  | succ fuel =>
    obtain ⟨D', hstep, hmem⟩ := foldl_cascadeStep (cascadeFuel_cascadeStep fuel)
      (s.blockedDependents g) hdeps hs hB hcard
    exact ⟨D', hstep, hclear _ D' hstep hmem⟩

/-- **A failure cascade fails exactly the doomed tasks.** -/
theorem fat_cascadeFuel (hB : s.PausedWithin B) (hcard : B.card ≤ fuel) :
    (cascadeFuel fuel s h).fat = s.fat.failOn h ∧ SameRest s (cascadeFuel fuel s h) := by
  have hstart : CascadeStage s.fat h ∅ s := ⟨.refl _, Set.empty_subset _⟩
  obtain ⟨D, hstep, hclear⟩ := cascadeFuel_cascadeStep fuel s h ∅ B hstart (Or.inl rfl) hB hcard
  have hD : D = s.fat.doomed h := by
    refine hstep.stage.failed.eq_doomed hstep.stage.doomed fun x y hw => ?_
    exact ⟨fun hy => hclear x (hy ▸ hw), fun hy => hstep.closed x y hw hy⟩
  exact ⟨Ledger.eq_failOn (hD ▸ hstep.stage.failed), hstep.rest⟩

end ClusterState

end DynRunner
