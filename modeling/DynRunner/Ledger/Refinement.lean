import DynRunner.Ledger.Cascade

/-!
# The merge of the code refines the merge of the ledger

A merge first brings a dominated settled entry back into memory, which changes nothing
logically, then writes the winning entry and lets the resume or the cascade run. On the
logical ledger this is one `Ledger.merge`.
-/

namespace DynRunner

open HashMap Ledger RecordCodec

variable {I : Type}

/-- Reading a flushed record succeeds and gives back what was written, except for the resolved
path, which is not part of the encoding. -/
def RecordCodec.RoundTrips (I : Type) [RecordCodec I] : Prop :=
  ∀ record : SettledRecord I, ∃ read, readBack record = some read ∧
    read.hash = record.hash ∧ read.outputs = record.outputs ∧
    read.state = { record.state with routing :=
      { record.state.routing with resolvedPath := read.state.routing.resolvedPath } }

/-- A codec that reads back what it wrote keeps the state. -/
theorem RecordCodec.RoundTrips.keepsState [RecordCodec I] (h : RoundTrips I) : KeepsState I := by
  intro record read hread
  obtain ⟨read', hread', _, _, hstate⟩ := h record
  rw [hread] at hread'
  cases hread'
  rw [hstate]
  exact ⟨rfl, rfl⟩

namespace ClusterState

variable {s t : ClusterState I} {h : TaskHash} {entry : SettledEntry I}
  {st incoming : TaskState I}

/-- There are at most as many keys as entries. -/
theorem card_keys_le : s.tasks.keys.toFinset.card ≤ s.tasks.entries.length := by
  refine (List.toFinset_card_le _).trans (Nat.le_of_eq ?_)
  exact List.length_map ..

/-- A permanent failure is not paused. -/
theorem waitsOn_of_isCascadeTerminal
    (h : st.status.isCascadeTerminal = true) : st.waitsOn = none :=
  TaskState.waitsOn_eq_none (fun _ => rfl) h

variable [RecordCodec I]

/-- Every settled record can be read back, with its variant and attempt. -/
structure Legible (s : ClusterState I) : Prop where
  keeps : s.ReadsKeep
  reads : ∀ h entry, s.settled.index.lookup h = some entry →
    ∃ read, readBack entry.record = some read

/-- With such a codec every ledger can be read. -/
theorem legible_of_roundTrips (hcodec : RoundTrips I) (s : ClusterState I) : s.Legible where
  keeps := readsKeep_of_keepsState hcodec.keepsState
  reads := fun _ entry _ => (hcodec entry.record).imp fun _ h => h.1

/-- A node that has settled nothing reads nothing. -/
theorem legible_of_none_settled (h : s.settled.index = ∅) : s.Legible where
  keeps := fun _ _ _ hentry => by rw [h] at hentry; cases hentry
  reads := fun _ _ hentry => by rw [h] at hentry; cases hentry

/-- The archive is a matter of the settled entries. -/
theorem archive_congr (h : t.settled = s.settled) : t.archive = s.archive := by
  funext x
  simp only [archive, settledRecord, settledEntry, h]

/-- The archive has what the record says. -/
theorem archive_of_entry {record : SettledRecord I} (hentry : s.settled.index.lookup h = some entry)
    (hread : readBack entry.record = some record) :
    s.archive h = some record.state := by
  simp only [archive, settledRecord, settledEntry, hentry, hread, Option.bind_some, Option.map_some]

/-- What is not settled is not in the archive. -/
theorem archive_of_none (hnone : s.settled.index.lookup h = none) : s.archive h = none := by
  simp only [archive, settledRecord, settledEntry, hnone, Option.bind_none, Option.map_none]

/-- What the archive shows was read back. -/
theorem exists_record_of_archive (hst : s.archive h = some st) : ∃ entry record,
    s.settled.index.lookup h = some entry ∧ readBack entry.record = some record ∧
      record.state = st := by
  obtain ⟨body, hbody, rfl⟩ := Option.map_eq_some_iff.mp hst
  obtain ⟨entry, hentry, hmap⟩ := Option.bind_eq_some_iff.mp hbody
  obtain ⟨record, hread, rfl⟩ := Option.map_eq_some_iff.mp hmap
  exact ⟨entry, record, hentry, hread, rfl⟩

/-- An entry in memory is that of the ledger. -/
theorem logical_of_fat (hst : s.fat h = some st) : s.logical h = some st := by
  simp [logical, overlay, hst]

/-- Without an entry in memory the archive decides. -/
theorem logical_of_archive (hnone : s.fat h = none) : s.logical h = s.archive h := by
  simp [logical, overlay, hnone]

/-- With legible records the logical ledger has an entry wherever the node knows one. -/
theorem logical_eq_none_iff (hread : s.Legible) :
    s.logical h = none ↔ s.containsTask h = false := by
  have hfat : decide (h ∈ s.tasks) = false ↔ s.fat h = none := by
    rw [decide_eq_false_iff_not, fat, AList.lookup_eq_none]
  have hsettled : s.settledContains h = false ↔ s.archive h = none := by
    rw [settledContains, decide_eq_false_iff_not, ← AList.lookup_eq_none]
    cases hentry : s.settled.index.lookup h with
    | none => simp [archive_of_none hentry]
    | some entry =>
      obtain ⟨record, hread⟩ := hread.reads h entry hentry
      simp [archive_of_entry hentry hread]
  rw [containsTask, Bool.or_eq_false_iff, hfat, hsettled]
  simp [logical, overlay, Option.or_eq_none_iff]

/-- Reading a settled entry back changes nothing logically. -/
theorem logical_rehydrate {record : SettledRecord I}
    (hentry : s.settled.index.lookup h = some entry)
    (habsent : s.fat h = none) (hread : readBack entry.record = some record) :
    (s.rehydrate h entry record).logical = s.logical := by
  funext x
  have hfat : (s.rehydrate h entry record).fat x = s.fat.put h record.state x := by
    rw [put_apply]
    exact lookup_insert_eq
  by_cases hx : x = h
  · subst hx
    rw [logical_of_fat (hfat.trans (put_same _ _ _)), logical_of_archive habsent,
      archive_of_entry hentry hread]
  · have hindex : (s.rehydrate h entry record).settled.index.lookup x =
        s.settled.index.lookup x := by
      change (s.settled.index.erase h).lookup x = _
      rw [lookup_erase_eq, if_neg hx]
    have harchive : (s.rehydrate h entry record).archive x = s.archive x := by
      simp only [archive, settledRecord, settledEntry, hindex]
    rw [logical, logical, overlay, overlay, hfat, put_of_ne hx, harchive]

variable [DefaultHasher]

/-- Steps keep the ledger readable. -/
theorem Legible.steps (hs : s.Legible) (hsteps : LedgerSteps s t) : t.Legible where
  keeps := hs.keeps.steps hsteps
  reads := fun h entry hentry => hs.reads h entry (hsteps.settled_lookup hentry)

/-- A settled body has the key of its index entry, and is not paused. -/
theorem Consistent.record {record : SettledRecord I} (hs : s.Consistent) (hkeep : s.ReadsKeep)
    (hentry : s.settled.index.lookup h = some entry)
    (hread : readBack entry.record = some record) :
    taskJoinKey record.state = entry.joinKey ∧ settleEligible record.state.status = true := by
  obtain ⟨hstatus, hattempt⟩ := hkeep h entry record hentry hread
  have hsound := hs.settled.entries h entry hentry
  rw [hstatus, ← hsound.key, taskJoinKey, hstatus, hattempt]
  exact ⟨rfl, hsound.eligible⟩

/-- Nothing in the archive waits. -/
theorem Consistent.archive_waitsOn (hs : s.Consistent)
    (hkeep : s.ReadsKeep) (x : TaskHash) (st : TaskState I) (hst : s.archive x = some st) :
    st.waitsOn = none := by
  obtain ⟨entry, record, hentry, hread, rfl⟩ := exists_record_of_archive hst
  exact TaskState.waitsOn_eq_none (fun _ => rfl) (hs.record hkeep hentry hread).2

/-- What the gate of a merge decides: it lets the winning writes through, says whether the
entry was completed, and leaves a hash it lets through in memory or nowhere. -/
structure GateSpec (s : ClusterState I) (h : TaskHash) (incoming : TaskState I)
    (r : ClusterState I × Option Bool) : Prop where
  logical : r.1.logical = s.logical
  wins : r.2.isSome ↔ s.logical.Wins h incoming
  wasCompleted : ∀ b, r.2 = some b →
    (b = true ↔ ∃ st, s.logical h = some st ∧ st.status = .completed)
  others : ∀ x, x ≠ h → r.1.fat x = s.fat x
  definitions : r.1.definitions = s.definitions

/-- The verdict about an entry in memory. -/
theorem fatVerdict_spec
    (hlogical : s.logical h = s.fat h) : GateSpec s h incoming (s, s.fatVerdict h incoming) := by
  unfold fatVerdict
  cases hst : s.tasks.lookup h with
  | none =>
    have hnone : s.logical h = none := hlogical.trans hst
    refine ⟨rfl, ?_, ?_, fun _ _ => rfl, rfl⟩
    · simp [Wins, hnone]
    · intro b hb
      cases hb
      simp [hnone]
  | some st =>
    have hsome : s.logical h = some st := hlogical.trans hst
    dsimp only
    split
    · rename_i hdom
      refine ⟨rfl, ?_, ?_, fun _ _ => rfl, rfl⟩
      · simp only [Option.isSome_some, true_iff]
        intro st' hst'
        rw [hsome] at hst'
        cases hst'
        exact taskJoinKeyDominates_iff.mp hdom
      · intro b hb
        cases hb
        simp [hsome]
    · rename_i hdom
      refine ⟨rfl, ?_, fun b hb => (by cases hb), fun _ _ => rfl, rfl⟩
      simp only [Option.isSome_none, Bool.false_eq_true, false_iff]
      intro hwins
      exact hdom (taskJoinKeyDominates_iff.mpr (hwins st hsome))

/-- The gate decides as the ledger does. -/
theorem mergeGate_spec (hs : s.Consistent) (hlegible : s.Legible) (h : TaskHash)
    (incoming : TaskState I) :
    GateSpec s h incoming (s.mergeGate h incoming) := by
  unfold mergeGate
  by_cases hfat : h ∈ s.tasks
  · rw [if_pos hfat]
    obtain ⟨st, hst⟩ := mem_iff_lookup.mp hfat
    exact fatVerdict_spec ((logical_of_fat hst).trans hst.symm)
  · rw [if_neg hfat]
    have habsent : s.fat h = none := AList.lookup_eq_none.mpr hfat
    cases hentry : s.settled.index.lookup h with
    | none =>
      have hset : s.settledContains h = false := by
        simpa [settledContains] using AList.lookup_eq_none.mp hentry
      rw [hset, if_neg Bool.false_ne_true]
      refine fatVerdict_spec ?_
      rw [logical_of_archive habsent, archive_of_none hentry, habsent]
    | some entry =>
      have hset : s.settledContains h = true := by
        simpa [settledContains] using mem_iff_lookup.mpr ⟨entry, hentry⟩
      obtain ⟨record, hread⟩ := hlegible.reads h entry hentry
      have hkey := (hs.record hlegible.keeps hentry hread).1
      have hsome : s.logical h = some record.state := by
        rw [logical_of_archive habsent, archive_of_entry hentry hread]
      rw [hset, if_pos rfl, unsettleIfDominated, settledEntry, hentry]
      dsimp only
      by_cases hdom : taskJoinKeyDominates (taskJoinKey incoming) entry.joinKey = true
      · rw [if_pos hdom, hread]
        have hlogical := logical_rehydrate hentry habsent hread
        have hin : (s.rehydrate h entry record).fat h = some record.state :=
          AList.lookup_insert s.tasks
        have hspec : GateSpec (s.rehydrate h entry record) h incoming _ :=
          fatVerdict_spec (by rw [hlogical, hsome, hin])
        refine ⟨hspec.logical.trans hlogical, hlogical ▸ hspec.wins,
          hlogical ▸ hspec.wasCompleted, fun x hx => ?_, rfl⟩
        exact lookup_insert_eq.trans (if_neg hx)
      · rw [if_neg hdom]
        refine ⟨rfl, ?_, fun b hb => (by cases hb), fun _ _ => rfl, rfl⟩
        simp only [Option.isSome_none, Bool.false_eq_true, false_iff]
        intro hwins
        exact hdom (taskJoinKeyDominates_iff.mpr (hkey ▸ hwins _ hsome))

variable {newlyCompleted : Bool} {outputs : Option TaskOutputs} {fuel : ℕ}

omit [RecordCodec I] in
/-- The entries in memory after the write of a winner. -/
theorem writeWinner_fat (hs : s.Consistent) (h : TaskHash) :
    (s.writeWinner h incoming newlyCompleted outputs).1.fat =
      if newlyCompleted then (s.fat.resumeOn h).put h incoming else s.fat.put h incoming := by
  have hwin := hs.congr (recordWin_sameLedger s incoming newlyCompleted)
  unfold writeWinner
  cases newlyCompleted with
  | false => simp
  | true =>
    have hsame := recordTaskOutputsValue_sameLedger
      (((s.recordWin incoming true).resumeBlockedOn h).1.setTaskState h incoming) h outputs
    simp only [if_true]
    rw [show ∀ t : ClusterState I, t.fat = fun x => t.tasks.lookup x from fun _ => rfl, hsame.tasks]
    change (((s.recordWin incoming true).resumeBlockedOn h).1.setTaskState h incoming).fat = _
    rw [fat_setTaskState, fat_resumeBlockedOn hwin, fat_recordWin]

omit [RecordCodec I] in
/-- Writing a winner settles nothing. -/
theorem writeWinner_settled (h : TaskHash) :
    (s.writeWinner h incoming newlyCompleted outputs).1.settled = s.settled := by
  have hwin := (recordWin_sameLedger s incoming newlyCompleted).settled
  unfold writeWinner
  cases newlyCompleted with
  | false => exact hwin
  | true =>
    simp only [if_true]
    rw [(recordTaskOutputsValue_sameLedger _ h outputs).settled, setTaskState_settled,
      resumeBlockedOn_settled, hwin]

/-- A merge unfolded: the gate, the write, and the cascade of a permanent failure. -/
theorem mergeTaskStateFuel_state (h : TaskHash) :
    (mergeTaskStateFuel (fuel + 1) s h incoming outputs).state = match s.mergeGate h incoming with
      | (t, none) => t
      | (t, some wasCompleted) =>
        let w := (t.writeWinner h incoming (incoming.status = .completed && !wasCompleted)
          outputs).1
        if incoming.status.isCascadeTerminal then cascadeFuel fuel w h else w := by
  rw [mergeTaskStateFuel]
  cases s.mergeGate h incoming with
  | mk t verdict => cases verdict <;> rfl

/-- The gate knows whether a winning write is the first completion. -/
theorem GateSpec.firstCompletion
    {wasCompleted : Bool} (hgate : GateSpec s h incoming (t, some wasCompleted)) :
    (incoming.status = .completed && !wasCompleted) = true ↔
      s.logical.FirstCompletion h incoming := by
  have hwas := hgate.wasCompleted wasCompleted rfl
  cases wasCompleted with
  | false =>
    simp only [Bool.not_false, Bool.and_true, decide_eq_true_eq, FirstCompletion, iff_self_and]
    intro _ st hst hdone
    exact Bool.false_ne_true (hwas.mpr ⟨st, hst, hdone⟩)
  | true =>
    obtain ⟨st, hst, hdone⟩ := hwas.mp rfl
    simp only [Bool.not_true, Bool.and_false, Bool.false_eq_true, false_iff]
    exact fun hfirst => hfirst.2 st hst hdone

/-- The logical ledger after the write of a winner. -/
theorem logical_writeWinner (ht : t.Consistent) (hkeep : t.ReadsKeep) (h : TaskHash)
    (incoming : TaskState I) (newlyCompleted : Bool) (outputs : Option TaskOutputs) :
    (t.writeWinner h incoming newlyCompleted outputs).1.logical =
      if newlyCompleted then (t.logical.resumeOn h).put h incoming
      else t.logical.put h incoming := by
  rw [logical, writeWinner_fat ht, archive_congr (writeWinner_settled ..)]
  cases newlyCompleted with
  | false => exact overlay_put _
  | true =>
    simp only [if_true]
    rw [overlay_put, overlay_resumeOn (ht.archive_waitsOn hkeep)]
    rfl

/-- A cascade with enough fuel, on the logical ledger. -/
theorem logical_cascadeFuel {w : ClusterState I} (hw : w.Consistent) (hkeep : w.ReadsKeep)
    {B : Finset TaskHash} (hB : w.PausedWithin B) (hcard : B.card ≤ fuel) :
    (cascadeFuel fuel w h).logical = w.logical.failOn h := by
  obtain ⟨hfat, hrest⟩ := fat_cascadeFuel hB hcard
  rw [logical, hfat, archive_congr hrest.settled, overlay_failOn (hw.archive_waitsOn hkeep)]
  rfl

/-- **The merge of the code refines the merge of the ledger.** -/
theorem logical_mergeTaskState (hs : s.Consistent) (hlegible : s.Legible)
    (h : TaskHash) (incoming : TaskState I) :
    (s.mergeTaskState h incoming outputs).state.logical = s.logical.merge h incoming := by
  have hgate := mergeGate_spec hs hlegible h incoming
  obtain ⟨hgsteps, hfree⟩ := mergeGate_steps s h incoming
  rw [mergeTaskState, mergeTaskStateFuel_state]
  cases hg : s.mergeGate h incoming with
  | mk t verdict =>
    rw [hg] at hgate hgsteps hfree
    have ht := hs.steps hlegible.keeps hgsteps.steps
    have hkeep := hlegible.keeps.steps hgsteps.steps
    cases verdict with
    | none =>
      have hlose : ¬s.logical.Wins h incoming := by simpa using hgate.wins
      rw [merge, if_neg hlose]
      exact hgate.logical
    | some wasCompleted =>
      have hwins : s.logical.Wins h incoming := by simpa using hgate.wins
      have hfirst := hgate.firstCompletion
      rw [merge, if_pos hwins, ← hgate.logical]
      rw [← hgate.logical] at hfirst
      dsimp only
      generalize (decide (incoming.status = .completed) && !wasCompleted) = b at hfirst
      have hput := logical_writeWinner ht hkeep h incoming b outputs
      by_cases hcascade : incoming.status.isCascadeTerminal = true
      · have hnot : ¬t.logical.FirstCompletion h incoming := by
          intro hdone
          rw [hdone.1] at hcascade
          cases hcascade
        have hb : b = false := Bool.eq_false_iff.mpr fun hbt => hnot (hfirst.mp hbt)
        subst hb
        -- The merged entry is not paused, so the paused ones were in memory before.
        have hpaused : (t.writeWinner h incoming false outputs).1.PausedWithin
            s.tasks.keys.toFinset := by
          rintro x y ⟨st, hst, hw⟩
          rw [writeWinner_fat ht, if_neg Bool.false_ne_true, put_apply] at hst
          split at hst
          · cases hst
            rw [waitsOn_of_isCascadeTerminal hcascade] at hw
            cases hw
          · rename_i hx
            rw [hgate.others x hx] at hst
            exact List.mem_toFinset.mpr (mem_iff_lookup.mpr ⟨st, hst⟩)
        have hwsteps := (writeWinner_steps t h incoming false outputs (hfree _ rfl)).steps
        rw [if_pos hcascade, if_neg hnot, if_pos hcascade,
          logical_cascadeFuel (ht.steps hkeep hwsteps) (hkeep.steps hwsteps) hpaused
            (card_keys_le.trans (Nat.le_succ _)), hput, if_neg Bool.false_ne_true]
      · rw [if_neg hcascade, if_neg hcascade, hput]
        by_cases hb : b = true
        · rw [if_pos hb, if_pos (hfirst.mp hb)]
        · rw [if_neg hb, if_neg fun hdone => hb (hfirst.mpr hdone)]

end ClusterState

end DynRunner
