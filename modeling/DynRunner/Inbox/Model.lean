import DynRunner.Ledger.Cascade

/-!
# The custom-message inbox

A node knows nothing of a message, or that it was posted, or that it is settled; the last
may be written in the entry of the message or only in the watermark of its origin. This file
defines that reading, shows that compaction does not change it, and that the operations on the
task ledger leave the inbox alone. Sequence numbers start at one.
-/

namespace DynRunner

open HashMap

variable {I : Type}

/-- What is known of a message. -/
inductive MsgStatus
  | absent
  | unhandled
  | terminal
  deriving DecidableEq, Repr

/-- What two nodes know together. -/
def MsgStatus.join : MsgStatus → MsgStatus → MsgStatus
  | .terminal, _ | _, .terminal => .terminal
  | .unhandled, _ | _, .unhandled => .unhandled
  | .absent, .absent => .absent

/-- A join is terminal if one of its sides is. -/
theorem MsgStatus.join_eq_terminal {a b : MsgStatus} :
    a.join b = .terminal ↔ a = .terminal ∨ b = .terminal := by
  cases a <;> cases b <;> decide

/-- What an entry says of its message. -/
def msgStatusOf : Option CustomMsgState → MsgStatus
  | none => .absent
  | some (.unhandled ..) => .unhandled
  | some .handled | some .failed => .terminal

/-- A message at or below the watermark of its origin. -/
def covers (watermarks : HashMap String ℕ) (k : String × ℕ) : Bool :=
  match watermarks.lookup k.1 with
  | some w => decide (k.2 ≤ w)
  | none => false

/-- What a set of entries and watermarks says of a message. -/
def inboxStatus (messages : HashMap (String × ℕ) CustomMsgState) (watermarks : HashMap String ℕ)
    (k : String × ℕ) : MsgStatus :=
  if covers watermarks k then .terminal else msgStatusOf (messages.lookup k)

/-- A terminal message is terminal in the model. -/
theorem msgStatusOf_terminal {m : CustomMsgState} (h : m.isTerminal = true) :
    msgStatusOf (some m) = .terminal := by
  cases m <;> first | rfl | cases h

namespace ClusterState

variable (s : ClusterState I)

/-- What a node knows of a message. -/
def inbox (k : String × ℕ) : MsgStatus :=
  inboxStatus s.customMessages s.customTerminalWatermarks k

/-- No entry is left at or below the watermark of its origin. -/
def InboxCompact : Prop :=
  ∀ k : String × ℕ, 1 ≤ k.2 → covers s.customTerminalWatermarks k = true →
    s.customMessages.lookup k = none

/-- The node would hand the message out. -/
def Listed (k : String × ℕ) : Prop :=
  ∃ topic data isHighVolume, (k.1, k.2, topic, data, isHighVolume) ∈ s.unhandledCustomMessages

variable {s : ClusterState I} {k : String × ℕ}

/-- A message is handed out when its entry is unhandled. -/
theorem listed_iff : s.Listed k ↔ msgStatusOf (s.customMessages.lookup k) = .unhandled := by
  unfold Listed unhandledCustomMessages
  simp only [List.mem_mergeSort, List.mem_filterMap]
  constructor
  · rintro ⟨topic, data, isHighVolume, ⟨key, m⟩, hmem, hm⟩
    have hlookup := mem_entries_iff.mp hmem
    cases m with
    | unhandled =>
      simp only [Option.some.injEq, Prod.mk.injEq] at hm
      obtain rfl : key = k := Prod.ext hm.1 hm.2.1
      rw [hlookup]
      rfl
    | handled => cases hm
    | failed => cases hm
  · intro hstatus
    cases hlookup : s.customMessages.lookup k with
    | none => rw [hlookup] at hstatus; cases hstatus
    | some m =>
      rw [hlookup] at hstatus
      cases m with
      | unhandled topic data isHighVolume =>
        exact ⟨topic, data, isHighVolume, ⟨k, .unhandled topic data isHighVolume⟩,
          mem_entries_iff.mpr hlookup, rfl⟩
      | handled => cases hstatus
      | failed => cases hstatus

/-- In a compact inbox the messages that are handed out are the unhandled ones. -/
theorem InboxCompact.listed_iff (hs : s.InboxCompact)
    (hk : 1 ≤ k.2) : s.Listed k ↔ s.inbox k = .unhandled := by
  rw [ClusterState.listed_iff, inbox, inboxStatus]
  split
  · rename_i hcov
    rw [hs k hk hcov]
    simp [msgStatusOf]
  · exact Iff.rfl

/-- The first uncovered number is where compaction starts. -/
theorem covers_iff_lt_compactStart (hk : 1 ≤ k.2) :
    covers s.customTerminalWatermarks k = true ↔ k.2 < s.compactStart k.1 := by
  unfold covers compactStart
  cases s.customTerminalWatermarks.lookup k.1 with
  | none => simp; omega
  | some =>
    simp only [decide_eq_true_eq]
    omega

/-- From `next` on, the entries of an origin up to the returned number are terminal, and they
are the ones that are dropped. -/
structure Compacted (origin : String) (messages : HashMap (String × ℕ) CustomMsgState) (next : ℕ)
    (r : HashMap (String × ℕ) CustomMsgState × ℕ) : Prop where
  le : next ≤ r.2
  terminal : ∀ j, next ≤ j → j < r.2 → msgStatusOf (messages.lookup (origin, j)) = .terminal
  lookup : ∀ k, r.1.lookup k =
    if k.1 = origin ∧ next ≤ k.2 ∧ k.2 < r.2 then none else messages.lookup k

/-- Compaction may stop at once. -/
theorem Compacted.stop (origin : String) (messages : HashMap (String × ℕ) CustomMsgState)
    (next : ℕ) : Compacted origin messages next (messages, next) where
  le := le_rfl
  terminal := fun _ hj hlt => absurd hlt (not_lt.mpr hj)
  lookup := fun _ => (if_neg fun h => absurd h.2.2 (not_lt.mpr h.2.1)).symm

/-- What the compaction loop does. -/
theorem compactLoop_spec (origin : String) (fuel : ℕ)
    (messages : HashMap (String × ℕ) CustomMsgState) (next : ℕ) :
    Compacted origin messages next (compactLoop origin fuel messages next) := by
  induction fuel generalizing messages next with
  | zero => exact .stop origin messages next
  | succ fuel ih =>
    rw [compactLoop]
    cases hm : messages.lookup (origin, next) with
    | none => exact .stop origin messages next
    | some =>
      dsimp only
      split
      case isFalse => exact .stop origin messages next
      case isTrue hterm =>
        have hrest := ih (messages.erase (origin, next)) (next + 1)
        have hle := hrest.le
        refine ⟨by omega, fun j hj hlt => ?_, fun k => ?_⟩
        · rcases Nat.eq_or_lt_of_le hj with rfl | hj'
          · rw [hm]
            exact msgStatusOf_terminal hterm
          · have hj := hrest.terminal j hj' hlt
            rwa [lookup_erase_eq, if_neg fun h => (by cases h; omega)] at hj
        · rw [hrest.lookup k, lookup_erase_eq]
          by_cases hk : k = (origin, next)
          · subst hk
            rw [if_pos rfl, ite_self, if_pos ⟨rfl, le_rfl, by omega⟩]
          · rw [if_neg hk]
            refine if_congr ⟨fun h => ⟨h.1, by omega, h.2.2⟩, fun h => ⟨h.1, ?_, h.2.2⟩⟩ rfl rfl
            have hne : k.2 ≠ next := fun h₂ => hk (Prod.ext h.1 h₂)
            omega

/-- **Compaction changes the reading of no message**, and leaves the inbox compact. -/
theorem InboxCompact.compactCustomWatermark (hs : s.InboxCompact)
    (origin : String) : (s.compactCustomWatermark origin).InboxCompact ∧
      ∀ k : String × ℕ, 1 ≤ k.2 → (s.compactCustomWatermark origin).inbox k = s.inbox k := by
  obtain ⟨_, hrun, hlookup⟩ := compactLoop_spec origin s.customMessages.entries.length
    s.customMessages (s.compactStart origin)
  unfold ClusterState.compactCustomWatermark
  generalize compactLoop origin s.customMessages.entries.length s.customMessages
    (s.compactStart origin) = r at hrun hlookup
  obtain ⟨messages, next⟩ := r
  dsimp only at hrun hlookup ⊢
  split
  case isFalse => exact ⟨hs, fun _ _ => rfl⟩
  case isTrue hadv =>
    -- What is covered now was covered before, or the loop has dropped it.
    have hcovers : ∀ k : String × ℕ, 1 ≤ k.2 →
        (covers (s.customTerminalWatermarks.insert origin (next - 1)) k = true ↔
          covers s.customTerminalWatermarks k = true ∨
            k.1 = origin ∧ s.compactStart origin ≤ k.2 ∧ k.2 < next) := by
      intro k hk
      by_cases ho : k.1 = origin
      · rw [covers_iff_lt_compactStart hk, ho]
        simp only [covers, lookup_insert_eq, ho, if_true, decide_eq_true_eq, true_and]
        omega
      · simp only [covers, lookup_insert_eq, ho, if_false, false_and, or_false]
    refine ⟨fun k hk hcov => ?_, fun k hk => ?_⟩
    · rw [hlookup k]
      split_ifs with hdropped
      · rfl
      · exact hs k hk (((hcovers k hk).mp hcov).resolve_right hdropped)
    · unfold inbox inboxStatus
      rw [hlookup k]
      by_cases hdropped : k.1 = origin ∧ s.compactStart origin ≤ k.2 ∧ k.2 < next
      · have hopen : ¬covers s.customTerminalWatermarks k = true := by
          rw [covers_iff_lt_compactStart hk, hdropped.1]
          omega
        rw [if_pos ((hcovers k hk).mpr (.inr hdropped)), if_neg hopen]
        have hterm := hrun k.2 hdropped.2.1 hdropped.2.2
        rw [← hdropped.1] at hterm
        exact hterm.symm
      · rw [if_neg hdropped, if_congr ((hcovers k hk).trans (or_iff_left hdropped)) rfl rfl]

end ClusterState

end DynRunner
