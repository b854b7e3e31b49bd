import DynRunner.Inbox.Frame

/-!
# Restoring the custom messages of a peer

A restore joins the watermarks, drops what they cover, merges the remaining entries and
compacts. On the reading of a message this is the join of what the two sides know, with one
exception: a message the peer records as failed stays unhandled here if it was unhandled
here. The live apply rule settles it in the same situation.
-/

namespace DynRunner

open HashMap ClusterState

variable {I : Type}

/-- A watermark joined with an incoming one. -/
def growMax (current : Option ℕ) (v : ℕ) : Option ℕ :=
  match current with
  | some c => if c < v then some v else some c
  | none => some v

/-- A counter grows to the larger value. -/
theorem growMax_some {c v : ℕ} : growMax (some c) v = some (max c v) := by
  unfold growMax
  dsimp only
  split
  · rename_i hlt
    rw [max_eq_right hlt.le]
  · rename_i hle
    rw [max_eq_left (not_lt.mp hle)]

/-- The merged counter of a key. -/
theorem lookup_mergeGrowMax {K : Type} [DecidableEq K] {m incoming : HashMap K ℕ} {k : K} :
    (mergeGrowMax m incoming).lookup k =
      ((incoming.lookup k).map (growMax (m.lookup k))).getD (m.lookup k) := by
  refine foldl_entries_at _ (fun m : HashMap K ℕ => m.lookup k) k growMax
    (fun m v => ?_) (fun m e he => ?_) incoming m
  · cases hk : m.lookup k with
    | none => exact AList.lookup_insert m
    | some =>
      dsimp only [growMax]
      split
      · exact AList.lookup_insert m
      · exact hk
  · cases m.lookup e.1 with
    | none => rw [lookup_insert_eq, if_neg he.symm]
    | some =>
      dsimp only
      split
      · rw [lookup_insert_eq, if_neg he.symm]
      · rfl

/-- Joined watermarks cover what either side covered. -/
theorem covers_mergeGrowMax {m incoming : HashMap String ℕ} {k : String × ℕ} :
    covers (mergeGrowMax m incoming) k = (covers m k || covers incoming k) := by
  unfold covers
  rw [lookup_mergeGrowMax]
  cases m.lookup k.1 with
  | none => cases incoming.lookup k.1 <;> simp [growMax]
  | some =>
    cases incoming.lookup k.1 with
    | none => simp
    | some => simp [growMax_some]

/-- The entry that results from a local and an incoming one above the watermark. -/
def joinEntry : Option CustomMsgState → CustomMsgState → Option CustomMsgState
  | none, incoming => some incoming
  | some (.unhandled ..), .handled => some .handled
  | some current, _ => some current

/-- A message whose failure a restore does not take over: the peer has it as failed, here it
is unhandled, and neither watermark covers it. -/
def FailureIgnored (s : ClusterState I) (messages : HashMap (String × ℕ) CustomMsgState)
    (watermarks : HashMap String ℕ) (k : String × ℕ) : Prop :=
  (covers s.customTerminalWatermarks k || covers watermarks k) = false ∧
    msgStatusOf (s.customMessages.lookup k) = .unhandled ∧ messages.lookup k = some .failed

/-- Joining an entry joins its status, unless it fails a message that nobody has handled. -/
theorem msgStatusOf_joinEntry {current : Option CustomMsgState} {incoming : CustomMsgState}
    (h : ¬(msgStatusOf current = .unhandled ∧ incoming = .failed)) :
    msgStatusOf (joinEntry current incoming) =
      (msgStatusOf current).join (msgStatusOf (some incoming)) := by
  cases current with
  | none => cases incoming <;> rfl
  | some m => cases m <;> cases incoming <;> first | rfl | exact (h ⟨rfl, rfl⟩).elim

/-- The message that a mutation settles. -/
def ClusterMutation.settles : ClusterMutation I → Option (String × ℕ)
  | .customMessageHandled origin seq | .customMessageFailed origin seq => some (origin, seq)
  | _ => none

namespace ClusterState

/-- Dropping what the watermarks of some origins cover. -/
theorem foldl_pruneBelowCustomWatermark (l : List String) (s : ClusterState I) :
    (l.foldl pruneBelowCustomWatermark s).customTerminalWatermarks = s.customTerminalWatermarks ∧
      ∀ k : String × ℕ, (l.foldl pruneBelowCustomWatermark s).customMessages.lookup k =
        if k.1 ∈ l ∧ covers s.customTerminalWatermarks k = true then none
        else s.customMessages.lookup k := by
  induction l generalizing s with
  | nil => exact ⟨rfl, fun k => (if_neg fun h => by cases h.1).symm⟩
  | cons origin l ih =>
    have hmarks : (s.pruneBelowCustomWatermark origin).customTerminalWatermarks =
        s.customTerminalWatermarks := by
      unfold pruneBelowCustomWatermark
      split <;> rfl
    have hlookup : ∀ k : String × ℕ, (s.pruneBelowCustomWatermark origin).customMessages.lookup k =
          if k.1 = origin ∧ covers s.customTerminalWatermarks k = true then none
          else s.customMessages.lookup k := by
      intro k
      unfold pruneBelowCustomWatermark covers
      cases hw : s.customTerminalWatermarks.lookup origin with
      | none =>
        rw [if_neg]
        rintro ⟨rfl, hcov⟩
        rw [hw] at hcov
        cases hcov
      | some w =>
        rw [lookup_retain]
        by_cases ho : k.1 = origin
        · rw [ho, hw]
          by_cases hle : k.2 ≤ w
          · simp [hle]
          · cases s.customMessages.lookup k <;> simp [hle, not_le.mp hle]
        · cases s.customMessages.lookup k <;> simp [ho]
    obtain ⟨hmarks', hlookup'⟩ := ih (s.pruneBelowCustomWatermark origin)
    refine ⟨hmarks'.trans hmarks, fun k => ?_⟩
    rw [List.foldl_cons, hlookup' k, hmarks, hlookup k]
    by_cases hcov : covers s.customTerminalWatermarks k = true
    · by_cases ho : k.1 = origin <;> simp [hcov, ho]
    · simp [hcov]

variable {acc : ClusterState I × List String}

/-- What one round of the merge does: the entry is joined unless the watermarks cover it, and its
origin is noted when a handled message arrives that was not terminal here. -/
theorem restoreCustomMessage_spec {e : Sigma fun _ : String × ℕ => CustomMsgState} :
    (restoreCustomMessage acc e).1.customTerminalWatermarks = acc.1.customTerminalWatermarks ∧
      (∀ k : String × ℕ, (restoreCustomMessage acc e).1.customMessages.lookup k =
        if k = e.1 ∧ covers acc.1.customTerminalWatermarks k = false then
          joinEntry (acc.1.customMessages.lookup k) e.2
        else acc.1.customMessages.lookup k) ∧
      (restoreCustomMessage acc e).2 =
        if covers acc.1.customTerminalWatermarks e.1 = false ∧ e.2 = .handled ∧
            msgStatusOf (acc.1.customMessages.lookup e.1) ≠ .terminal then e.1.1 :: acc.2
        else acc.2 := by
  obtain ⟨s, touched⟩ := acc
  obtain ⟨key, incoming⟩ := e
  have hcovers : s.customWatermarkCovers key.1 key.2 = covers s.customTerminalWatermarks key := rfl
  unfold restoreCustomMessage
  dsimp only
  rw [hcovers]
  by_cases hcov : covers s.customTerminalWatermarks key = true
  · rw [if_pos hcov]
    refine ⟨rfl, fun k => (if_neg ?_).symm, (if_neg ?_).symm⟩
    · rintro ⟨rfl, hopen⟩
      rw [hcov] at hopen
      cases hopen
    · rintro ⟨hopen, _⟩
      rw [hcov] at hopen
      cases hopen
  · have hopen : covers s.customTerminalWatermarks key = false := by simpa using hcov
    rw [if_neg hcov]
    have hjoined : ∀ messages : HashMap (String × ℕ) CustomMsgState,
        messages.lookup key = joinEntry (s.customMessages.lookup key) incoming →
        (∀ k ≠ key, messages.lookup k = s.customMessages.lookup k) → ∀ k, messages.lookup k =
          if k = key ∧ covers s.customTerminalWatermarks k = false then
            joinEntry (s.customMessages.lookup k) incoming
          else s.customMessages.lookup k := by
      intro messages hkey hrest k
      by_cases hk : k = key
      · rw [hk, if_pos ⟨rfl, hopen⟩, hkey]
      · rw [if_neg fun h => hk h.1, hrest k hk]
    have hkeep (h) := hjoined s.customMessages h fun _ _ => rfl
    have hput (m h) := hjoined (s.customMessages.insert key m) h fun _ => AList.lookup_insert_ne
    cases hlocal : s.customMessages.lookup key with
    | none =>
      refine ⟨rfl, hput incoming (by simp [hlocal, joinEntry]), ?_⟩
      simp [hopen, msgStatusOf]
    | some m =>
      cases m with
      | unhandled =>
        cases incoming with
        | handled =>
          refine ⟨rfl, hput .handled (by simp [hlocal, joinEntry]), ?_⟩
          simp [hopen, msgStatusOf]
        | failed => exact ⟨rfl, hkeep (by rw [hlocal]; rfl), by simp⟩
        | unhandled => exact ⟨rfl, hkeep (by rw [hlocal]; rfl), by simp⟩
      | handled | failed => exact ⟨rfl, hkeep (by rw [hlocal]; rfl), by simp [msgStatusOf]⟩

/-- Merging the incoming entries, observed at one message. -/
theorem foldl_restoreCustomMessage {messages : HashMap (String × ℕ) CustomMsgState} :
    (messages.entries.foldl restoreCustomMessage acc).1.customTerminalWatermarks =
        acc.1.customTerminalWatermarks ∧
      ∀ k : String × ℕ,
        (messages.entries.foldl restoreCustomMessage acc).1.customMessages.lookup k =
        if covers acc.1.customTerminalWatermarks k = true then acc.1.customMessages.lookup k
        else ((messages.lookup k).map (joinEntry (acc.1.customMessages.lookup k))).getD
          (acc.1.customMessages.lookup k) := by
  have hmarks : ∀ (l : List (Sigma fun _ : String × ℕ => CustomMsgState))
      (acc : ClusterState I × List String),
      (l.foldl restoreCustomMessage acc).1.customTerminalWatermarks =
        acc.1.customTerminalWatermarks := by
    intro l
    induction l with
    | nil => exact fun _ => rfl
    | cons e l ih => exact fun acc => (ih _).trans restoreCustomMessage_spec.1
  refine ⟨hmarks _ acc, fun k => ?_⟩
  -- Observe the entry together with whether it is covered.
  have hview := foldl_entries_at restoreCustomMessage
    (fun acc => (acc.1.customMessages.lookup k, covers acc.1.customTerminalWatermarks k)) k
    (fun view incoming => (if view.2 = true then view.1 else joinEntry view.1 incoming, view.2))
    (fun acc v => by
      obtain ⟨hw, hl, _⟩ := restoreCustomMessage_spec
      rw [hl k, hw]
      cases covers acc.1.customTerminalWatermarks k <;> simp)
    (fun acc e he => by
      obtain ⟨hw, hl, _⟩ := restoreCustomMessage_spec
      rw [hl k, hw, if_neg fun h => he h.1.symm])
    messages acc
  have hfst := congrArg Prod.fst hview
  dsimp only at hfst
  rw [hfst]
  cases messages.lookup k <;> cases covers acc.1.customTerminalWatermarks k <;> rfl

variable {s : ClusterState I}

/-- Compacting some origins changes the reading of no message. -/
theorem InboxCompact.foldl_compactCustomWatermark (hs : s.InboxCompact)
    {l : List String} : (l.foldl ClusterState.compactCustomWatermark s).InboxCompact ∧
      ∀ k : String × ℕ, 1 ≤ k.2 →
        (l.foldl ClusterState.compactCustomWatermark s).inbox k = s.inbox k := by
  induction l generalizing s with
  | nil => exact ⟨hs, fun _ _ => rfl⟩
  | cons origin l ih =>
    obtain ⟨hcompact, hsame⟩ := hs.compactCustomWatermark origin
    obtain ⟨hcompact', hsame'⟩ := ih hcompact
    exact ⟨hcompact', fun k hk => (hsame' k hk).trans (hsame k hk)⟩

/-- The watermarks are joined, and what they cover is dropped. -/
theorem InboxCompact.joinWatermarks (hs : s.InboxCompact) {watermarks : HashMap String ℕ} :
    let t := watermarks.keys.foldl pruneBelowCustomWatermark { s with
      customTerminalWatermarks := mergeGrowMax s.customTerminalWatermarks watermarks }
    (∀ k, covers t.customTerminalWatermarks k =
        (covers s.customTerminalWatermarks k || covers watermarks k)) ∧
      ∀ k : String × ℕ, 1 ≤ k.2 → t.customMessages.lookup k =
        if covers t.customTerminalWatermarks k = true then none else s.customMessages.lookup k := by
  intro t
  obtain ⟨hmarks, hlookup⟩ := foldl_pruneBelowCustomWatermark watermarks.keys { s with
    customTerminalWatermarks := mergeGrowMax s.customTerminalWatermarks watermarks }
  have hcovers : ∀ k, covers t.customTerminalWatermarks k =
      (covers s.customTerminalWatermarks k || covers watermarks k) := by
    intro k
    rw [hmarks]
    exact covers_mergeGrowMax
  refine ⟨hcovers, fun k hk => ?_⟩
  rw [hlookup k, ← hmarks, hcovers k]
  by_cases hcov : covers s.customTerminalWatermarks k = true
  · simp [hcov, hs k hk hcov]
  · by_cases hwm : covers watermarks k = true
    · have hmem : k.1 ∈ watermarks.keys := by
        unfold covers at hwm
        cases hw : watermarks.lookup k.1 with
        | none => rw [hw] at hwm; cases hwm
        | some w => exact mem_iff_lookup.mpr ⟨w, hw⟩
      simp [hmem, hwm]
    · simp [hcov, hwm]

open Classical in
/-- **What a restore makes of a message**: the join of what both sides know, unless the peer's
failure is ignored. The inbox stays compact. -/
theorem InboxCompact.restoreCustom (hs : s.InboxCompact)
    (messages : HashMap (String × ℕ) CustomMsgState) (watermarks : HashMap String ℕ) :
    (s.restoreCustom messages watermarks).InboxCompact ∧ ∀ k : String × ℕ, 1 ≤ k.2 →
      (s.restoreCustom messages watermarks).inbox k =
        if FailureIgnored s messages watermarks k then .unhandled
        else (s.inbox k).join (inboxStatus messages watermarks k) := by
  obtain ⟨hcovers, hentry⟩ := hs.joinWatermarks
  unfold ClusterState.restoreCustom
  dsimp only at hcovers hentry ⊢
  generalize watermarks.keys.foldl pruneBelowCustomWatermark _ = t at hcovers hentry
  -- The incoming entries above the joined watermarks are merged.
  obtain ⟨hmarks, hlookup⟩ := foldl_restoreCustomMessage
  generalize messages.entries.foldl restoreCustomMessage (t, []) = r at hmarks hlookup
  have hcompact : r.1.InboxCompact := by
    intro k hk hcov
    rw [hmarks] at hcov
    rw [hlookup k, if_pos hcov, hentry k hk, if_pos hcov]
  obtain ⟨hcompact', hsame⟩ := hcompact.foldl_compactCustomWatermark
  refine ⟨hcompact', fun k hk => ?_⟩
  rw [hsame k hk, inbox, inboxStatus, hmarks, hlookup k, hentry k hk, inbox, inboxStatus,
    inboxStatus]
  by_cases hcov : covers t.customTerminalWatermarks k = true
  · have hnot : ¬FailureIgnored s messages watermarks k := fun h => by
      have hopen := h.1
      rw [← hcovers, hcov] at hopen
      cases hopen
    rw [if_pos hcov, if_neg hnot, eq_comm, MsgStatus.join_eq_terminal]
    rw [hcovers, Bool.or_eq_true] at hcov
    exact hcov.imp (fun h => if_pos h) fun h => if_pos h
  · have hopen := hcov
    rw [hcovers, Bool.or_eq_true, not_or] at hopen
    rw [if_neg hcov, if_neg hcov, if_neg hcov, if_neg hopen.1, if_neg hopen.2]
    have hfalse : (covers s.customTerminalWatermarks k || covers watermarks k) = false := by
      simp [hopen.1, hopen.2]
    cases hin : messages.lookup k with
    | none =>
      have hnot : ¬FailureIgnored s messages watermarks k := fun h => by
        have hfailed := h.2.2
        rw [hin] at hfailed
        cases hfailed
      rw [if_neg hnot, Option.map_none, Option.getD_none]
      cases msgStatusOf (s.customMessages.lookup k) <;> rfl
    | some incoming =>
      by_cases hign : msgStatusOf (s.customMessages.lookup k) = .unhandled ∧ incoming = .failed
      · rw [if_pos ⟨hfalse, hign.1, by rw [hin, hign.2]⟩, hign.2]
        cases hl : s.customMessages.lookup k with
        | none => rw [hl] at hign; cases hign.1
        | some m => cases m <;> rw [hl] at hign <;> first | rfl | cases hign.1
      · rw [if_neg fun h => hign ⟨h.2.1, by simpa [hin] using h.2.2⟩]
        exact msgStatusOf_joinEntry hign

section Restore

variable [DefaultHasher] [RecordCodec I]

/-- A restore does to the inbox what its last part does. -/
theorem restoreInOrder_inbox (s : ClusterState I) (snap : ClusterStateSnapshot I)
    (order : List (TaskHash × TaskState I)) : ∃ t, SameInbox s t ∧ (s.restoreInOrder snap order).1 =
      t.restoreCustom snap.customMessages snap.customTerminalWatermarks := by
  have htasks := restoreTasks_sameInbox s snap.taskOutputs order
  unfold restoreInOrder
  generalize s.restoreTasks snap.taskOutputs order = r at htasks
  refine ⟨_, ?_, rfl⟩
  have hcontrol : SameInbox r.1 { r.1 with control := r.1.control.restore snap.control } :=
    ⟨rfl, rfl⟩
  exact htasks.trans (hcontrol.trans ((restoreOutputs_steps _ _).beside.sameInbox.trans ⟨rfl, rfl⟩))

/-- **When the restore of custom messages is a join.** Whatever was settled on either side is
settled here after the restore and is not handed out again, exactly when no message that the
peer has as failed, above both watermarks, is unhandled here. -/
theorem custom_messages_join_iff {s : ClusterState I} (hs : s.InboxCompact)
    (snap : ClusterStateSnapshot I) (order : List (TaskHash × TaskState I)) :
    (∀ k : String × ℕ, 1 ≤ k.2 → s.inbox k = .terminal ∨
        inboxStatus snap.customMessages snap.customTerminalWatermarks k = .terminal →
      (s.restoreInOrder snap order).1.inbox k = .terminal ∧
        ¬(s.restoreInOrder snap order).1.Listed k) ↔ ∀ k : String × ℕ, 1 ≤ k.2 →
      ¬FailureIgnored s snap.customMessages snap.customTerminalWatermarks k := by
  obtain ⟨t, hsame, hrestore⟩ := restoreInOrder_inbox s snap order
  have ht : t.InboxCompact := hsame.inboxCompact hs
  obtain ⟨hcompact, hinbox⟩ := ht.restoreCustom snap.customMessages snap.customTerminalWatermarks
  have hignored : ∀ k, FailureIgnored t snap.customMessages snap.customTerminalWatermarks k ↔
      FailureIgnored s snap.customMessages snap.customTerminalWatermarks k := by
    intro k
    rw [FailureIgnored, FailureIgnored, hsame.messages, hsame.watermarks]
  rw [hrestore]
  refine forall_congr' fun k => imp_congr_right fun hk => ?_
  rw [hcompact.listed_iff hk, hinbox k hk, hsame.inbox k]
  constructor
  · intro hjoin hign
    -- The peer's failure is terminal there, and the message is handed out here.
    have hpeer : inboxStatus snap.customMessages snap.customTerminalWatermarks k = .terminal := by
      rw [inboxStatus, hign.2.2]
      split <;> rfl
    have hlisted := (hjoin (Or.inr hpeer)).2
    rw [if_pos ((hignored k).mpr hign)] at hlisted
    exact hlisted rfl
  · intro hno hterm
    rw [if_neg fun h => hno ((hignored k).mp h), MsgStatus.join_eq_terminal.mpr hterm]
    exact ⟨rfl, by rintro ⟨⟩⟩

end Restore

section Reachable

/-- Writing an entry that is not covered. -/
theorem InboxCompact.insert (hs : s.InboxCompact) (key : String × ℕ)
    (hopen : s.customWatermarkCovers key.1 key.2 = false) (m : CustomMsgState) :
    ({ s with customMessages := s.customMessages.insert key m } : ClusterState I).InboxCompact := by
  intro k hk hcov
  rw [lookup_insert_eq, if_neg]
  · exact hs k hk hcov
  · rintro rfl
    change covers s.customTerminalWatermarks k = false at hopen
    rw [hopen] at hcov
    cases hcov

variable [DefaultHasher] [RecordCodec I] [Identifier I] [DonePayloadCodec]

/-- A mutation that is not about a custom message leaves the inbox alone. -/
theorem apply_sameInbox {m : ClusterMutation I} (hm : m.message = none) :
    SameInbox s (s.apply m).state := by
  cases m with
  | taskAdded hash task defId => exact (adds_taskAdded s hash task defId).sameInbox
  | taskAssigned | taskCompleted | taskFailed | taskReinjected | taskRequeued | taskRetried
  | taskBlocked | taskSkippedAlreadyDone | setupCompleted | taskPreferredSecondariesUpdated =>
    exact (apply_entrySteps rfl).beside.sameInbox
  | tasksSpawned =>
    exact foldl_related .refl .trans ApplyResult.state
      (fun acc spawned => (adds_spawnTask acc spawned).sameInbox) _ ⟨s, .noOp, [], []⟩
  | secondaryCellRegistered => exact applySecondaryCellRegistered_sameInbox
  | customMessagePosted => cases hm
  | customMessageHandled => cases hm
  | customMessageFailed => cases hm
  | control =>
    rw [apply]
    dsimp only
    split <;> exact ⟨rfl, rfl⟩

/-- What a mutation does to the inbox: nothing; or it writes an unhandled message that is new and
not covered; or it settles a message that is not covered. -/
theorem apply_inbox_cases (s : ClusterState I) (m : ClusterMutation I) :
    SameInbox s (s.apply m).state ∨
    (∃ k topic data isHighVolume, m.message = some k ∧ m.settles = none ∧
      covers s.customTerminalWatermarks k = false ∧ s.customMessages.lookup k = none ∧
      (s.apply m).state = { s with
        customMessages := s.customMessages.insert k (.unhandled topic data isHighVolume) }) ∨
    ∃ k settled, m.message = some k ∧ m.settles = some k ∧
      covers s.customTerminalWatermarks k = false ∧
      msgStatusOf (some settled) = .terminal ∧
      (s.apply m).state = s.settleCustomMessage k.1 k.2 settled := by
  cases m with
  | customMessagePosted origin seq topic data isHighVolume =>
    rw [ClusterState.apply, applyCustomMessagePosted]
    split
    · exact .inl (.refl s)
    · rename_i hopen
      cases hlookup : s.customMessages.lookup (origin, seq) with
      | none =>
        exact .inr (.inl ⟨(origin, seq), topic, data, isHighVolume, rfl, rfl,
          Bool.eq_false_iff.mpr hopen, hlookup, rfl⟩)
      | some => exact .inl (.refl s)
  | customMessageHandled origin seq =>
    rw [ClusterState.apply, applyCustomMessageHandled]
    split
    · exact .inl (.refl s)
    · rename_i hopen
      split
      · exact .inl (.refl s)
      all_goals
        exact .inr (.inr ⟨(origin, seq), .handled, rfl, rfl, Bool.eq_false_iff.mpr hopen, rfl, rfl⟩)
  | customMessageFailed origin seq =>
    rw [ClusterState.apply, applyCustomMessageFailed]
    split
    · exact .inl (.refl s)
    · rename_i hopen
      split
      · exact .inl (.refl s)
      · exact .inl (.refl s)
      all_goals
        exact .inr (.inr ⟨(origin, seq), .failed, rfl, rfl, Bool.eq_false_iff.mpr hopen, rfl, rfl⟩)
  | _ => exact .inl (apply_sameInbox rfl)

/-- No mutation leaves an entry at or below a watermark. -/
theorem InboxCompact.apply (hs : s.InboxCompact) (m : ClusterMutation I) :
    (s.apply m).state.InboxCompact := by
  rcases apply_inbox_cases s m with
    hsame | ⟨k, _, _, _, _, _, hopen, _, heq⟩ | ⟨k, settled, _, _, hopen, _, heq⟩
  · exact hsame.inboxCompact hs
  · rw [heq]
    exact hs.insert k hopen _
  · rw [heq]
    exact ((hs.insert k hopen settled).compactCustomWatermark k.1).1

/-- Every reachable inbox is compact. -/
theorem Reachable.inboxCompact {adopt : SettledStore I → Prop}
    (hs : Reachable adopt s) : s.InboxCompact := by
  induction hs with
  | new => exact fun _ _ _ => rfl
  | apply m _ ih => exact ih.apply m
  | restore snap order _ _ ih =>
    obtain ⟨t, hsame, hrestore⟩ := restoreInOrder_inbox _ snap order
    rw [hrestore]
    exact ((hsame.inboxCompact ih).restoreCustom _ _).1
  | attachSpillSegment _ ih => exact ih
  | commitSpill n _ _ ih => exact commitSpill_sameBeside.sameInbox.inboxCompact ih
  | unsettle hash key _ ih =>
    exact (taskEntryUnsettling_steps _ hash key).beside.sameInbox.inboxCompact ih
  | installSettledBase _ _ _ _ ih => exact ih

end Reachable

end ClusterState

namespace Sample

/-- A node that holds the second message of an origin unhandled. -/
def waitingInbox : ClusterState String :=
  (empty.apply (.customMessagePosted "s1" 2 "topic" [] false)).state

/-- A peer on which that message has been handled. -/
def handledInbox : ClusterState String :=
  (waitingInbox.apply (.customMessageHandled "s1" 2)).state

/-- A peer on which its handler has failed. -/
def failedInbox : ClusterState String :=
  (waitingInbox.apply (.customMessageFailed "s1" 2)).state

/-- A message the peer has handled is not handed out again. -/
theorem handled_message_is_settled :
    (waitingInbox.restore handledInbox.snapshot).inbox ("s1", 2) = .terminal ∧
      ¬(waitingInbox.restore handledInbox.snapshot).Listed ("s1", 2) := by
  have hreach : Reachable (fun _ => True) waitingInbox := .apply _ .new
  refine (custom_messages_join_iff hreach.inboxCompact handledInbox.snapshot _).mpr
    (fun k _ hign => ?_) ("s1", 2) (by decide) (Or.inr (by decide))
  -- The peer holds one entry, and it is not a failed one.
  have hmem : (⟨k, .failed⟩ : Sigma fun _ : String × ℕ => CustomMsgState) ∈
      handledInbox.customMessages.entries := mem_entries_iff.mpr hign.2.2
  cases List.mem_singleton.mp hmem

/-- A message the peer has settled as failed stays unhandled, and is handed out again. -/
theorem failed_message_handed_out_again :
    inboxStatus failedInbox.snapshot.customMessages failedInbox.snapshot.customTerminalWatermarks
        ("s1", 2) = .terminal ∧
      (waitingInbox.restore failedInbox.snapshot).inbox ("s1", 2) = .unhandled ∧
      (waitingInbox.restore failedInbox.snapshot).Listed ("s1", 2) :=
  ⟨by decide, by decide, listed_iff.mpr (by decide)⟩

end Sample

end DynRunner
