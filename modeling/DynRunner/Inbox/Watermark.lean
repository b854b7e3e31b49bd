import DynRunner.Inbox.Restore

/-!
# The watermark of an origin is exact

Every settled message goes through compaction when it is applied, so after an apply the first
message above the watermark is not terminal. A restore compacts only the origins for which it
took over a handled message. Where the joined watermark reaches a terminal entry by itself, or a
failed message is taken over, the entry stays and the watermark stops short of it.
-/

namespace DynRunner

open HashMap ClusterState List

variable {I : Type}

namespace ClusterState

/-- The message behind the watermark of an origin is not terminal. -/
def WatermarkMaximal (s : ClusterState I) (origin : String) : Prop :=
  msgStatusOf (s.customMessages.lookup (origin, s.compactStart origin)) ≠ .terminal

/-- Sequence numbers start at one. -/
def Numbered (messages : HashMap (String × ℕ) CustomMsgState) : Prop :=
  ∀ k m, messages.lookup k = some m → 1 ≤ k.2

/-! ## Compaction -/

/-- With one unit of fuel for each entry the loop stops at a message that is not terminal. -/
theorem compactLoop_maximal (origin : String) (fuel : ℕ)
    (messages : HashMap (String × ℕ) CustomMsgState) (next : ℕ)
    (hfuel : messages.entries.length ≤ fuel) :
    msgStatusOf ((compactLoop origin fuel messages next).1.lookup
      (origin, (compactLoop origin fuel messages next).2)) ≠ .terminal := by
  induction fuel generalizing messages next with
  | zero =>
    have hnone : messages.lookup (origin, next) = none := by
      cases hm : messages.lookup (origin, next) with
      | none => rfl
      | some =>
        have hmem := mem_entries_iff.mpr hm
        rw [length_eq_zero_iff.mp (Nat.le_zero.mp hfuel)] at hmem
        cases hmem
    rw [compactLoop, hnone]
    decide
  | succ fuel ih =>
    rw [compactLoop]
    cases hm : messages.lookup (origin, next) with
    | none =>
      rw [hm]
      decide
    | some m =>
      dsimp only
      by_cases hterm : m.isTerminal = true
      · rw [if_pos hterm]
        apply ih
        have hperm := (perm_cons_erase hm).length_eq
        rw [length_cons] at hperm
        omega
      · rw [if_neg hterm]
        rw [hm]
        cases m with
        | unhandled => simp [msgStatusOf]
        | handled => exact (hterm rfl).elim
        | failed => exact (hterm rfl).elim

/-- Compacting an origin makes its watermark maximal and leaves the other origins alone. -/
theorem watermarkMaximal_compact (s : ClusterState I) (origin : String) :
    (s.compactCustomWatermark origin).WatermarkMaximal origin ∧
      ∀ o, o ≠ origin → ((s.compactCustomWatermark origin).WatermarkMaximal o ↔
        s.WatermarkMaximal o) := by
  have hmaximal := compactLoop_maximal origin s.customMessages.entries.length s.customMessages
    (s.compactStart origin) le_rfl
  obtain ⟨hle, _, hlookup⟩ := compactLoop_spec origin s.customMessages.entries.length
    s.customMessages (s.compactStart origin)
  unfold compactCustomWatermark
  generalize compactLoop origin s.customMessages.entries.length s.customMessages
    (s.compactStart origin) = r at hmaximal hle hlookup
  obtain ⟨messages, next⟩ := r
  dsimp only at hmaximal hle hlookup ⊢
  split
  case isFalse hstay =>
    have hnext : next = s.compactStart origin := by omega
    refine ⟨?_, fun _ _ => Iff.rfl⟩
    rw [hlookup (origin, next), if_neg fun h => by omega, hnext] at hmaximal
    exact hmaximal
  case isTrue hadv =>
    have hstart (o : String) : compactStart { s with
        customMessages := messages
        customTerminalWatermarks := s.customTerminalWatermarks.insert origin (next - 1) } o =
        if o = origin then next else s.compactStart o := by
      simp only [compactStart, lookup_insert_eq]
      split_ifs
      · exact Nat.sub_add_cancel (by omega)
      · rfl
    refine ⟨?_, fun o ho => ?_⟩
    · rw [WatermarkMaximal, hstart, if_pos rfl]
      exact hmaximal
    · rw [WatermarkMaximal, WatermarkMaximal, hstart, if_neg ho]
      rw [hlookup, if_neg fun h => ho h.1]

variable {l : List String} {origin : String}

/-- Compacting some origins makes their watermarks maximal and leaves the other origins alone. -/
theorem watermarkMaximal_foldl_compact {s : ClusterState I} {o : String} :
    (l.foldl compactCustomWatermark s).WatermarkMaximal o ↔ o ∈ l ∨ s.WatermarkMaximal o := by
  induction l generalizing s with
  | nil => simp
  | cons origin l ih =>
    obtain ⟨hself, hother⟩ := watermarkMaximal_compact s origin
    rw [foldl_cons, ih, mem_cons]
    by_cases ho : o = origin
    · subst ho
      simp [hself]
    · simp [ho, hother o ho]

variable {s : ClusterState I} {k : String × ℕ} {m : CustomMsgState}
  {messages : HashMap (String × ℕ) CustomMsgState} {settled : List (String × ℕ)}

/-- Compaction writes no entry. -/
theorem lookup_compactCustomWatermark
    (h : (s.compactCustomWatermark origin).customMessages.lookup k = some m) :
    s.customMessages.lookup k = some m := by
  have hlookup := (compactLoop_spec origin s.customMessages.entries.length s.customMessages
    (s.compactStart origin)).lookup k
  unfold compactCustomWatermark at h
  generalize compactLoop origin s.customMessages.entries.length s.customMessages
    (s.compactStart origin) = r at h hlookup
  dsimp only at h
  split at h
  case isFalse => exact h
  case isTrue =>
    rw [hlookup] at h
    split at h
    case isTrue => cases h
    case isFalse => exact h

/-- Compaction brings no message. -/
theorem lookup_foldl_compact
    (h : (l.foldl compactCustomWatermark s).customMessages.lookup k = some m) :
    s.customMessages.lookup k = some m := by
  induction l generalizing s with
  | nil => exact h
  | cons origin l ih => exact lookup_compactCustomWatermark (ih h)

/-! ## A restore -/

/-- The first number of an origin above some watermarks. -/
def startAbove (watermarks : HashMap String ℕ) (origin : String) : ℕ :=
  match watermarks.lookup origin with
  | some w => w + 1
  | none => 1

variable (watermarks : HashMap String ℕ)

/-- The first number above the watermark is not covered. -/
theorem not_covers_startAbove (origin : String) :
    covers watermarks (origin, startAbove watermarks origin) = false := by
  unfold covers startAbove
  cases watermarks.lookup origin <;> simp

/-- Numbers start at one. -/
theorem one_le_startAbove (origin : String) : 1 ≤ startAbove watermarks origin := by
  unfold startAbove
  cases watermarks.lookup origin <;> simp

/-- The peer has handled a message of the origin that is above both watermarks and not settled
here. -/
def TakesHandled (s : ClusterState I) (messages : HashMap (String × ℕ) CustomMsgState)
    (watermarks : HashMap String ℕ) (origin : String) : Prop :=
  ∃ seq, covers (mergeGrowMax s.customTerminalWatermarks watermarks) (origin, seq) = false ∧
    messages.lookup (origin, seq) = some .handled ∧
    msgStatusOf (s.customMessages.lookup (origin, seq)) ≠ .terminal

/-- **Where a restore stops short.** The first message above both watermarks is settled here, or
unknown here and failed at the peer; and the peer brings no handled message of the origin that
would make the node compact. -/
def Stalls (s : ClusterState I) (messages : HashMap (String × ℕ) CustomMsgState)
    (watermarks : HashMap String ℕ) (origin : String) : Prop :=
  let k := (origin, startAbove (mergeGrowMax s.customTerminalWatermarks watermarks) origin)
  (msgStatusOf (s.customMessages.lookup k) = .terminal ∨
    s.customMessages.lookup k = none ∧ messages.lookup k = some .failed) ∧
    ¬s.TakesHandled messages watermarks origin

/-- The origins that the merge notes. -/
theorem mem_touched_iff (l : List (Sigma fun _ : String × ℕ => CustomMsgState))
    (hnodup : l.NodupKeys) (acc : ClusterState I × List String) (origin : String) :
    origin ∈ (l.foldl restoreCustomMessage acc).2 ↔ origin ∈ acc.2 ∨
      ∃ seq, (⟨(origin, seq), .handled⟩ : Sigma fun _ : String × ℕ => CustomMsgState) ∈ l ∧
        covers acc.1.customTerminalWatermarks (origin, seq) = false ∧
        msgStatusOf (acc.1.customMessages.lookup (origin, seq)) ≠ .terminal := by
  induction l generalizing acc with
  | nil => simp
  | cons e l ih =>
    obtain ⟨hmarks, hlookup, htouched⟩ := restoreCustomMessage_spec
    obtain ⟨hnew, hnodup⟩ := nodupKeys_cons.mp hnodup
    -- The later rounds are about other keys, whose entries this round leaves alone.
    have hlater : ∀ seq,
      (⟨(origin, seq), .handled⟩ : Sigma fun _ : String × ℕ => CustomMsgState) ∈ l →
        (restoreCustomMessage acc e).1.customMessages.lookup (origin, seq) =
          acc.1.customMessages.lookup (origin, seq) := by
      intro seq hmem
      rw [hlookup, if_neg]
      rintro ⟨heq, _⟩
      exact hnew (heq ▸ mem_keys_of_mem hmem)
    rw [foldl_cons, ih hnodup, htouched, hmarks]
    constructor
    · rintro (hmem | ⟨seq, hmem, hopen, hlocal⟩)
      · split at hmem
        case isFalse => exact .inl hmem
        case isTrue hnoted =>
          rcases mem_cons.mp hmem with rfl | hmem
          · obtain ⟨key, incoming⟩ := e
            obtain ⟨hopen, hhandled, hlocal⟩ := hnoted
            subst hhandled
            exact .inr ⟨key.2, mem_cons_self, hopen, hlocal⟩
          · exact .inl hmem
      · rw [hlater seq hmem] at hlocal
        exact .inr ⟨seq, mem_cons_of_mem e hmem, hopen, hlocal⟩
    · rintro (hmem | ⟨seq, hmem, hopen, hlocal⟩)
      · left
        split
        · exact mem_cons_of_mem _ hmem
        · exact hmem
      · rcases mem_cons.mp hmem with rfl | hmem
        · left
          rw [if_pos ⟨hopen, rfl, hlocal⟩]
          exact mem_cons_self
        · exact .inr ⟨seq, hmem, hopen, by rwa [hlater seq hmem]⟩

/-- **A restore leaves the watermark of an origin maximal exactly when it does not stall.** -/
theorem InboxCompact.watermarkMaximal_restoreCustom (hs : s.InboxCompact)
    (hnumbered : Numbered messages) {watermarks : HashMap String ℕ} :
    (s.restoreCustom messages watermarks).WatermarkMaximal origin ↔
      ¬s.Stalls messages watermarks origin := by
  obtain ⟨_, hentry⟩ := hs.joinWatermarks
  have hjoined := (foldl_pruneBelowCustomWatermark watermarks.keys { s with
    customTerminalWatermarks := mergeGrowMax s.customTerminalWatermarks watermarks }).1
  unfold ClusterState.restoreCustom
  dsimp only at hentry hjoined ⊢
  generalize watermarks.keys.foldl pruneBelowCustomWatermark _ = t at hentry hjoined
  rw [hjoined] at hentry
  have htouched := mem_touched_iff messages.entries messages.nodupKeys (t, []) origin
  obtain ⟨hmarks, hlookup⟩ := foldl_restoreCustomMessage
  generalize messages.entries.foldl restoreCustomMessage (t, []) = r at htouched hmarks hlookup
  rw [hjoined] at htouched hmarks hlookup
  -- The noted origins are those of which a handled message is taken over.
  have htakes : origin ∈ r.2 ↔ s.TakesHandled messages watermarks origin := by
    rw [htouched, TakesHandled]
    simp only [not_mem_nil, false_or, mem_entries_iff]
    refine exists_congr fun seq => ⟨?_, ?_⟩
    · rintro ⟨hhandled, hopen, hlocal⟩
      rw [hentry _ (hnumbered _ _ hhandled), hopen] at hlocal
      exact ⟨hopen, hhandled, hlocal⟩
    · rintro ⟨hopen, hhandled, hlocal⟩
      refine ⟨hhandled, hopen, ?_⟩
      rw [hentry _ (hnumbered _ _ hhandled), hopen]
      exact hlocal
  -- The entry that the merge leaves at the first uncovered number.
  have hstart : r.1.compactStart origin =
      startAbove (mergeGrowMax s.customTerminalWatermarks watermarks) origin := by
    rw [← hmarks]
    rfl
  rw [watermarkMaximal_foldl_compact, htakes, WatermarkMaximal, hstart, Stalls]
  generalize hk :
    (origin, startAbove (mergeGrowMax s.customTerminalWatermarks watermarks) origin) = k
  have hopen : covers (mergeGrowMax s.customTerminalWatermarks watermarks) k = false :=
    hk ▸ not_covers_startAbove _ origin
  have hone : 1 ≤ k.2 := hk ▸ one_le_startAbove _ origin
  have hat : r.1.customMessages.lookup k = ((messages.lookup k).map
      (joinEntry (s.customMessages.lookup k))).getD (s.customMessages.lookup k) := by
    rw [hlookup, hopen, hentry k hone, hopen]
    rfl
  rw [hat, not_and_or, not_not, or_comm]
  refine or_congr_left' fun hno => ?_
  -- Nothing handled is taken over, so a handled message at `k` was settled here already.
  have hsettled : messages.lookup k = some .handled →
      msgStatusOf (s.customMessages.lookup k) = .terminal := by
    intro hhandled
    by_contra hlocal
    subst hk
    exact hno ⟨_, hopen, hhandled, hlocal⟩
  cases hl : s.customMessages.lookup k with
  | none =>
    rw [hl] at hsettled
    cases hm : messages.lookup k with
    | none => simp [msgStatusOf]
    | some m =>
      cases m with
      | unhandled | failed => simp [joinEntry, msgStatusOf]
      | handled => cases hsettled hm
  | some l =>
    rw [hl] at hsettled
    cases hm : messages.lookup k with
    | none => simp
    | some m =>
      cases l with
      | unhandled =>
        cases m with
        | handled => cases hsettled hm
        | unhandled | failed => simp [joinEntry, msgStatusOf]
      | handled | failed => simp [joinEntry, msgStatusOf]

/-- Every entry after a restore was here or at the peer. -/
theorem Numbered.restoreCustom (hs : Numbered s.customMessages) (hmessages : Numbered messages)
    (watermarks : HashMap String ℕ) :
    Numbered (s.restoreCustom messages watermarks).customMessages := by
  intro k m hm
  have hmerged := lookup_foldl_compact hm
  rw [(foldl_restoreCustomMessage).2 k] at hmerged
  rw [(foldl_pruneBelowCustomWatermark watermarks.keys _).2 k] at hmerged
  cases hin : messages.lookup k with
  | some incoming => exact hmessages k incoming hin
  | none =>
    rw [hin, Option.map_none, Option.getD_none, ite_self] at hmerged
    split at hmerged
    case isTrue => cases hmerged
    case isFalse => exact hs k m hmerged

/-! ## The invariant of a node -/

/-- **The watermark of an origin is exact**: no retained message is at or below it, every message
at or below it has been settled, and the message behind it is unknown or still unhandled. -/
structure WatermarkExact (settled : List (String × ℕ)) (s : ClusterState I) (origin : String) :
    Prop where
  retained : ∀ seq m, s.customMessages.lookup (origin, seq) = some m →
    s.customWatermarkCovers origin seq = false
  settled : ∀ seq, 1 ≤ seq → s.customWatermarkCovers origin seq = true → (origin, seq) ∈ settled
  maximal : s.customMessages.lookup (origin, s.compactStart origin) = none ∨
    ∃ topic data isHighVolume, s.customMessages.lookup (origin, s.compactStart origin) =
      some (.unhandled topic data isHighVolume)

/-- A message in some entries and watermarks is terminal only when it has been settled. -/
def OnlySettled (settled : List (String × ℕ)) (messages : HashMap (String × ℕ) CustomMsgState)
    (watermarks : HashMap String ℕ) : Prop :=
  ∀ k : String × ℕ, 1 ≤ k.2 → inboxStatus messages watermarks k = .terminal → k ∈ settled

/-- What a node keeps of its inbox in every run. -/
structure InboxSound (settled : List (String × ℕ)) (s : ClusterState I) : Prop where
  compact : s.InboxCompact
  numbered : Numbered s.customMessages
  onlySettled : OnlySettled settled s.customMessages s.customTerminalWatermarks

/-- What a node keeps of its inbox as long as no restore stalls. -/
structure InboxExact (settled : List (String × ℕ)) (s : ClusterState I) : Prop
    extends InboxSound settled s where
  maximal : ∀ origin, s.WatermarkMaximal origin

/-- An exact inbox has an exact watermark. -/
theorem InboxExact.watermarkExact (h : InboxExact settled s) : WatermarkExact settled s origin where
  retained := by
    intro seq m hm
    cases hcov : s.customWatermarkCovers origin seq with
    | false => rfl
    | true =>
      rw [h.compact (origin, seq) (h.numbered _ m hm) hcov] at hm
      cases hm
  settled := fun seq hseq hcov => h.onlySettled (origin, seq) hseq (if_pos hcov)
  maximal := by
    have hmax := h.maximal origin
    rw [WatermarkMaximal] at hmax
    cases hl : s.customMessages.lookup (origin, s.compactStart origin) with
    | none => exact .inl rfl
    | some m =>
      rw [hl] at hmax
      cases m with
      | unhandled topic data isHighVolume => exact .inr ⟨topic, data, isHighVolume, rfl⟩
      | handled => exact (hmax rfl).elim
      | failed => exact (hmax rfl).elim

/-- An exact watermark is maximal. -/
theorem WatermarkExact.watermarkMaximal
    (h : WatermarkExact settled s origin) : s.WatermarkMaximal origin := by
  rw [WatermarkMaximal]
  rcases h.maximal with hnone | ⟨topic, data, isHighVolume, hunhandled⟩
  · rw [hnone]
    decide
  · rw [hunhandled]
    simp [msgStatusOf]

/-- More settled messages make nothing unsound. -/
theorem InboxSound.mono {settled' : List (String × ℕ)}
    (h : InboxSound settled s) (hsub : settled ⊆ settled') : InboxSound settled' s :=
  { h with onlySettled := fun k hk hterm => hsub (h.onlySettled k hk hterm) }

section SameInbox

variable {t : ClusterState I} (hsame : SameInbox s t)
include hsame

/-- Soundness is a matter of the inbox. -/
theorem InboxSound.sameInbox (h : InboxSound settled s) : InboxSound settled t where
  compact := hsame.inboxCompact h.compact
  numbered := by
    rw [hsame.messages]
    exact h.numbered
  onlySettled := by
    rw [hsame.messages, hsame.watermarks]
    exact h.onlySettled

/-- Maximality is a matter of the inbox. -/
theorem SameInbox.watermarkMaximal : t.WatermarkMaximal origin ↔ s.WatermarkMaximal origin := by
  rw [WatermarkMaximal, WatermarkMaximal, compactStart, compactStart, hsame.messages,
    hsame.watermarks]

end SameInbox

/-- Writing a message that no watermark covers. -/
theorem InboxSound.insert (h : InboxSound settled s) (hk : 1 ≤ k.2)
    (hopen : covers s.customTerminalWatermarks k = false)
    (hm : msgStatusOf (some m) = .terminal → k ∈ settled) :
    InboxSound settled { s with customMessages := s.customMessages.insert k m } := by
  refine ⟨h.compact.insert k hopen m, fun k' m' hm' => ?_, fun k' hk' hterm => ?_⟩
  · rw [lookup_insert_eq] at hm'
    split at hm'
    case isTrue heq => exact heq ▸ hk
    case isFalse => exact h.numbered k' m' hm'
  · rw [inboxStatus, lookup_insert_eq] at hterm
    by_cases heq : k' = k
    · subst heq
      rw [hopen] at hterm
      simp only [Bool.false_eq_true, if_false, if_true] at hterm
      exact hm hterm
    · rw [if_neg heq] at hterm
      exact h.onlySettled k' hk' hterm

/-- Writing a message moves no watermark, and stops none short unless it is settled. -/
theorem watermarkMaximal_insert (h : s.WatermarkMaximal origin)
    (hm : origin = k.1 → msgStatusOf (some m) ≠ .terminal) :
    WatermarkMaximal { s with customMessages := s.customMessages.insert k m } origin := by
  rw [WatermarkMaximal] at h ⊢
  rw [lookup_insert_eq]
  split
  case isTrue heq => exact hm (congrArg Prod.fst heq)
  case isFalse => exact h

section Operations

variable [DefaultHasher] [RecordCodec I] [Identifier I] [DonePayloadCodec]

/-- A mutation keeps the inbox sound. -/
theorem InboxSound.apply (h : InboxSound settled s) (m : ClusterMutation I)
    (hnumber : ∀ k, m.message = some k → 1 ≤ k.2)
    (hsettles : ∀ k, m.settles = some k → k ∈ settled) : InboxSound settled (s.apply m).state := by
  rcases apply_inbox_cases s m with
    hsame | ⟨k, topic, data, isHighVolume, hk, _, hopen, _, heq⟩ |
      ⟨k, state, hk, hsettle, hopen, _, heq⟩
  · exact h.sameInbox hsame
  · rw [heq]
    exact h.insert (hnumber k hk) hopen fun hterm => by cases hterm
  · have hwritten := h.insert (m := state) (hnumber k hk) hopen fun _ => hsettles k hsettle
    obtain ⟨hcompact, hsame⟩ := hwritten.compact.compactCustomWatermark k.1
    rw [heq, settleCustomMessage]
    exact ⟨hcompact, fun k' m' hm' => hwritten.numbered k' m' (lookup_compactCustomWatermark hm'),
      fun k' hk' hterm => hwritten.onlySettled k' hk' ((hsame k' hk').symm.trans hterm)⟩

/-- Every mutation keeps the watermarks maximal. -/
theorem watermarkMaximal_apply (h : ∀ o, s.WatermarkMaximal o) (m : ClusterMutation I) :
    (s.apply m).state.WatermarkMaximal origin := by
  rcases apply_inbox_cases s m with
    hsame | ⟨k, topic, data, isHighVolume, _, _, _, _, heq⟩ | ⟨k, state, _, _, _, _, heq⟩
  · exact hsame.watermarkMaximal.mpr (h origin)
  · rw [heq]
    exact watermarkMaximal_insert (h origin) fun _ => by simp [msgStatusOf]
  · obtain ⟨hself, hothers⟩ := watermarkMaximal_compact
      ({ s with customMessages := s.customMessages.insert k state } : ClusterState I) k.1
    rw [heq, settleCustomMessage]
    by_cases ho : origin = k.1
    · subst ho
      exact hself
    · exact (hothers origin ho).mpr (watermarkMaximal_insert (h origin) fun heq => (ho heq).elim)

section Restore

variable (snap : ClusterStateSnapshot I) (order : List (TaskHash × TaskState I))
  (hnumbered : Numbered snap.customMessages)
include hnumbered

omit [Identifier I] [DonePayloadCodec] in
/-- A restore keeps the inbox sound. -/
theorem InboxSound.restore (h : InboxSound settled s)
    (honly : OnlySettled settled snap.customMessages snap.customTerminalWatermarks) :
    InboxSound settled (s.restoreInOrder snap order).1 := by
  obtain ⟨t, hsame, hrestore⟩ := restoreInOrder_inbox s snap order
  have ht := h.sameInbox hsame
  obtain ⟨hcompact, hinbox⟩ :=
    ht.compact.restoreCustom snap.customMessages snap.customTerminalWatermarks
  rw [hrestore]
  refine ⟨hcompact, ht.numbered.restoreCustom hnumbered _, fun k hk hterm => ?_⟩
  have hjoin := (hinbox k hk).symm.trans hterm
  split at hjoin
  case isTrue => cases hjoin
  case isFalse =>
    rcases MsgStatus.join_eq_terminal.mp hjoin with hlocal | hpeer
    · exact ht.onlySettled k hk hlocal
    · exact honly k hk hpeer

omit [Identifier I] [DonePayloadCodec] in
/-- The watermark behind a restore is maximal, unless the restore stalls. -/
theorem InboxSound.watermarkMaximal_restore (h : InboxSound settled s) (origin : String) :
    (s.restoreInOrder snap order).1.WatermarkMaximal origin ↔
      ¬s.Stalls snap.customMessages snap.customTerminalWatermarks origin := by
  obtain ⟨t, hsame, hrestore⟩ := restoreInOrder_inbox s snap order
  rw [hrestore, (h.sameInbox hsame).compact.watermarkMaximal_restoreCustom hnumbered, Stalls,
    Stalls, TakesHandled, TakesHandled, hsame.messages, hsame.watermarks]

end Restore

end Operations

end ClusterState

/-! ## Replicas that exchange their inboxes -/

/-- Some replicas, the snapshots they have sent, and the messages that some replica has been told
to be handled or failed. -/
structure InboxCluster (I : Type) where
  /-- The state of every node. -/
  replica : String → ClusterState I
  /-- The snapshots that may still arrive. -/
  sent : List (ClusterStateSnapshot I)
  /-- The messages that have been settled anywhere. -/
  settled : List (String × ℕ)

/-- What can happen: a replica applies a mutation, ships a snapshot or a package of one, or
restores what some replica has shipped. -/
inductive InboxCluster.Event (I : Type)
  | apply (node : String) (m : ClusterMutation I)
  | ship (node : String) (snap : ClusterStateSnapshot I)
  | restore (node : String) (snap : ClusterStateSnapshot I) (order : List (TaskHash × TaskState I))

namespace InboxCluster

/-- Fresh replicas. -/
def start : InboxCluster I := ⟨fun _ => .empty, [], []⟩

section Run

variable [DefaultHasher] [RecordCodec I] [Identifier I] [DonePayloadCodec]

/-- One step. -/
def step (x : InboxCluster I) : Event I → InboxCluster I
  | .apply node m =>
    { x with
      replica := Function.update x.replica node ((x.replica node).apply m).state
      settled := m.settles.toList ++ x.settled }
  | .ship _ snap => { x with sent := snap :: x.sent }
  | .restore node snap order =>
    { x with
      replica := Function.update x.replica node ((x.replica node).restoreInOrder snap order).1 }

/-- A package carries the inbox of its sender, or none. -/
def CarriesInbox (s : ClusterState I) (snap : ClusterStateSnapshot I) : Prop :=
  snap.customMessages = s.customMessages ∧
      snap.customTerminalWatermarks = s.customTerminalWatermarks ∨
    snap.customMessages = ∅ ∧ snap.customTerminalWatermarks = ∅

/-- What the surroundings allow. Sequence numbers start at one. -/
def Allowed (x : InboxCluster I) : Event I → Prop
  | .apply _ m => ∀ k, m.message = some k → 1 ≤ k.2
  | .ship node snap => CarriesInbox (x.replica node) snap
  | .restore _ snap order => snap ∈ x.sent ∧ order.Perm snap.taskEntries

/-- The steps that stop no watermark short. -/
def Harmless (x : InboxCluster I) : Event I → Prop
  | .restore node snap _ => ∀ origin,
      ¬(x.replica node).Stalls snap.customMessages snap.customTerminalWatermarks origin
  | _ => True

/-- The clusters that a run whose steps meet `cond` can reach. -/
inductive Reached (cond : InboxCluster I → Event I → Prop) : InboxCluster I → Prop
  | start : Reached cond start
  | step {x : InboxCluster I} (e : Event I) (hx : Reached cond x) (hallowed : x.Allowed e)
      (hcond : cond x e) : Reached cond (x.step e)

/-- Every replica is in order, and every snapshot under way says only what has been settled. -/
structure Sound (x : InboxCluster I) : Prop where
  replica : ∀ n, (x.replica n).InboxSound x.settled
  sent : ∀ snap ∈ x.sent, Numbered snap.customMessages ∧
    OnlySettled x.settled snap.customMessages snap.customTerminalWatermarks

variable {x : InboxCluster I} {e : Event I}

/-- What an event does to a replica. -/
theorem replica_step (x : InboxCluster I) (e : Event I) (n : String) :
    (x.step e).replica n = x.replica n ∨
      (∃ m, e = .apply n m ∧ (x.step e).replica n = ((x.replica n).apply m).state) ∨
      ∃ snap order, e = .restore n snap order ∧
        (x.step e).replica n = ((x.replica n).restoreInOrder snap order).1 := by
  cases e with
  | ship => exact .inl rfl
  | apply node m =>
    by_cases hn : n = node
    · subst hn
      exact .inr (.inl ⟨m, rfl, Function.update_self _ _ _⟩)
    · exact .inl (Function.update_of_ne hn _ _)
  | restore node snap order =>
    by_cases hn : n = node
    · subst hn
      exact .inr (.inr ⟨snap, order, rfl, Function.update_self _ _ _⟩)
    · exact .inl (Function.update_of_ne hn _ _)

/-- What was settled stays settled. -/
theorem settled_subset_step (x : InboxCluster I) (e : Event I) :
    x.settled ⊆ (x.step e).settled := by
  cases e with
  | apply => exact subset_append_right _ _
  | ship | restore => exact Subset.refl _

/-- A harmless step keeps the invariant. -/
theorem Sound.step (hx : x.Sound) (hallowed : x.Allowed e) : (x.step e).Sound := by
  have hsub := x.settled_subset_step e
  refine ⟨fun n => ?_, fun snap hsnap => ?_⟩
  · rcases x.replica_step e n with heq | ⟨m, rfl, heq⟩ | ⟨snap, order, rfl, heq⟩
    · rw [heq]
      exact (hx.replica n).mono hsub
    · rw [heq]
      refine ((hx.replica n).mono hsub).apply m hallowed fun k hk => ?_
      change k ∈ m.settles.toList ++ x.settled
      rw [hk]
      exact mem_cons_self
    · obtain ⟨hnumbered, honly⟩ := hx.sent snap hallowed.1
      rw [heq]
      exact (hx.replica n).restore snap order hnumbered honly
  · have hold : snap ∈ x.sent → Numbered snap.customMessages ∧
        OnlySettled (x.step e).settled snap.customMessages
          snap.customTerminalWatermarks := fun h =>
      ⟨(hx.sent snap h).1, fun k hk hterm => hsub ((hx.sent snap h).2 k hk hterm)⟩
    cases e with
    | apply | restore => exact hold hsnap
    | ship node =>
      rcases mem_cons.mp hsnap with rfl | hsnap
      · have hnode := hx.replica node
        rcases hallowed with ⟨hmessages, hmarks⟩ | ⟨hmessages, hmarks⟩
        · rw [hmessages, hmarks]
          exact ⟨hnode.numbered, hnode.onlySettled⟩
        · rw [hmessages, hmarks]
          refine ⟨fun _ _ h => ?_, fun _ _ h => ?_⟩ <;> cases h
      · exact hold hsnap

/-- Every watermark is as far as it can be, in addition. -/
structure Exact (x : InboxCluster I) : Prop extends Sound x where
  maximal : ∀ n origin, (x.replica n).WatermarkMaximal origin

/-- A harmless step keeps every inbox exact. -/
theorem Exact.step (hx : x.Exact) (hallowed : x.Allowed e) (hharmless : x.Harmless e) :
    (x.step e).Exact := by
  have hsound := hx.toSound.step hallowed
  refine ⟨hsound, fun n => ?_⟩
  rcases x.replica_step e n with heq | ⟨m, rfl, heq⟩ | ⟨snap, order, rfl, heq⟩
  · rw [heq]
    exact hx.maximal n
  · rw [heq]
    exact fun _ => watermarkMaximal_apply (hx.maximal n) m
  · rw [heq]
    exact fun origin => ((hx.replica n).watermarkMaximal_restore snap order
      (hx.sent snap hallowed.1).1 origin).mpr (hharmless origin)

/-- In every harmless run the inboxes are exact. -/
theorem Reached.exact (hx : Reached Harmless x) : x.Exact := by
  induction hx with
  | start =>
    refine ⟨⟨fun _ => ?_, fun _ h => by cases h⟩, fun _ _ h => by cases h⟩
    exact ⟨fun _ _ _ => rfl, fun _ _ h => (by cases h), fun _ _ h => by cases h⟩
  | step e _ hallowed hcond ih => exact ih.step hallowed hcond

/-- **Watermarks are exact while no restore stalls.** In every run in which no restore stalls, the
watermark of every origin is exact on every replica; and the first restore that stalls leaves a
settled message behind the watermark. -/
theorem watermarks_exact {x : InboxCluster I} (hx : Reached Harmless x) :
    (∀ node origin, (x.replica node).WatermarkExact x.settled origin) ∧
      ∀ node snap order, x.Allowed (.restore node snap order) → ∀ origin,
        (x.replica node).Stalls snap.customMessages snap.customTerminalWatermarks origin →
        ¬((x.step (.restore node snap order)).replica node).WatermarkExact x.settled origin := by
  have hexact := hx.exact
  refine ⟨fun node origin =>
      InboxExact.watermarkExact ⟨hexact.replica node, hexact.maximal node⟩,
    fun node snap order hallowed origin hstalls hafter => ?_⟩
  have hmax := hafter.watermarkMaximal
  change (Function.update x.replica node _ node).WatermarkMaximal origin at hmax
  rw [Function.update_self] at hmax
  exact ((hexact.replica node).watermarkMaximal_restore snap order (hexact.sent snap hallowed.1).1
    origin).mp hmax hstalls

/-- **No message is settled unless some replica was told so**, in every run, also where restores
stall; and no replica keeps a message at or below a watermark. -/
theorem watermarks_sound {cond : InboxCluster I → Event I → Prop} {x : InboxCluster I}
    (hx : Reached cond x) (node : String) : (x.replica node).InboxSound x.settled := by
  suffices hsound : x.Sound from hsound.replica node
  induction hx with
  | start =>
    refine ⟨fun _ => ⟨fun _ _ _ => rfl, ?_, ?_⟩, fun _ h => by cases h⟩
    · exact fun _ _ h => by cases h
    · exact fun _ _ h => by cases h
  | step e _ hallowed _ ih => exact ih.step hallowed

end Run

end InboxCluster

namespace Sample

open InboxCluster

/-- A replica has handled the first message of an origin and shipped its inbox. -/
def firstHandled : InboxCluster String :=
  let x := start.step (.apply "peer" (.customMessageHandled "s1" 1))
  x.step (.ship "peer" (x.replica "peer").snapshot)

/-- The sample cluster is reached. -/
theorem reached_firstHandled {cond : InboxCluster String → Event String → Prop}
    (happly : ∀ x node m, cond x (.apply node m))
    (hship : ∀ x node snap, cond x (.ship node snap)) :
    Reached cond firstHandled := by
  have hhandled : Reached cond (start.step (.apply "peer" (.customMessageHandled "s1" 1))) := by
    refine .step _ .start (fun k hk => ?_) (happly _ _ _)
    cases hk
    exact le_rfl
  exact .step (.ship "peer" _) hhandled (.inl ⟨rfl, rfl⟩) (hship _ _ _)

/-- In the sample the peer has settled what was settled. -/
theorem firstHandled_sound : (firstHandled.replica "peer").InboxSound [("s1", 1)] := by
  have hreached : Reached (fun _ _ => True) firstHandled :=
    reached_firstHandled (fun _ _ _ => trivial) fun _ _ _ => trivial
  exact watermarks_sound hreached "peer"

/-- A fresh replica takes over the watermark. -/
theorem watermark_taken_over_exact :
    ((firstHandled.step (.restore "node" (firstHandled.replica "peer").snapshot [])).replica
      "node").WatermarkExact [("s1", 1)] "s1" := by
  have hfirst : Reached Harmless firstHandled :=
    reached_firstHandled (fun _ _ _ => trivial) fun _ _ _ => trivial
  have hrestored : Reached Harmless
      (firstHandled.step (.restore "node" (firstHandled.replica "peer").snapshot [])) := by
    refine .step _ hfirst ⟨mem_cons_self, .refl _⟩ fun origin hstalls => ?_
    rcases hstalls.1 with hlocal | ⟨_, hpeer⟩
    · cases hlocal
    · cases hpeer
  exact (watermarks_exact hrestored).1 "node" "s1"

/-- A replica that has handled the second message of an origin, and then learns from the peer that
the first one is settled. -/
def secondStaysBehind : InboxCluster String :=
  let x := firstHandled.step (.apply "node" (.customMessageHandled "s1" 2))
  x.step (.restore "node" (firstHandled.replica "peer").snapshot [])

/-- The second message stays behind the watermark although it is handled. -/
theorem handled_message_stays_behind : Reached (fun _ _ => True) secondStaysBehind ∧
      (secondStaysBehind.replica "node").customTerminalWatermarks.lookup "s1" = some 1 ∧
      (secondStaysBehind.replica "node").customMessages.lookup ("s1", 2) = some .handled ∧
      ¬(secondStaysBehind.replica "node").WatermarkExact secondStaysBehind.settled "s1" := by
  have hsecond : Reached (fun _ _ => True)
      (firstHandled.step (.apply "node" (.customMessageHandled "s1" 2))) := by
    refine .step _ (reached_firstHandled (fun _ _ _ => trivial) fun _ _ _ => trivial)
      (fun k hk => ?_) trivial
    cases hk
    exact Nat.le_succ 1
  have hreached : Reached (fun _ _ => True) secondStaysBehind :=
    .step (.restore "node" _ []) hsecond ⟨mem_cons_self, .refl _⟩ trivial
  exact ⟨hreached, by decide, by decide, fun h => h.watermarkMaximal (by decide)⟩

end Sample

end DynRunner
