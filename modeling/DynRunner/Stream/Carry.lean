import Mathlib.Data.List.TakeWhile
import Mathlib.Order.WithBot
import DynRunner.Ledger.Refinement
import DynRunner.Stream.Exchange

/-!
# What a package carries

A plan still has to send the keys behind its position. A reposition skips only keys at or below
the cursor it is given, and the next package carries the following keys up to its own cursor.
Both rest on two facts: the keys of a plan are sorted, and a ledger never forgets a task.
-/

namespace DynRunner

open HashMap SnapshotStreamPlan ClusterState List

variable {I : Type}

/-- What a plan streams for a key is the entry of the logical ledger. -/
theorem ClusterState.map_streamEntry [RecordCodec I] (s : ClusterState I) {k : TaskHash} :
    (s.streamEntry k).map (·.1) = s.logical k := by
  unfold streamEntry
  cases hfat : s.tasks.lookup k with
  | some => exact (logical_of_fat hfat).symm
  | none => exact (logical_of_archive hfat).symm

/-- A cursor as a bound on the keys; no cursor bounds none. -/
def cursorBound : Option TaskHash → WithBot TaskHash
  | none => ⊥
  | some k => (k : WithBot TaskHash)

namespace SnapshotStreamPlan

/-- The keys a plan has still to send. -/
def rest (plan : SnapshotStreamPlan) : Set TaskHash := {k | k ∈ plan.keys.drop plan.pos}

variable {plan : SnapshotStreamPlan}

/-- Nothing is left behind the last key. -/
theorem rest_eq_empty (h : plan.keys.length ≤ plan.pos) : plan.rest = ∅ := by
  rw [rest, drop_eq_nil_of_le h]
  ext k
  simp

/-- A complete plan is behind its last key. -/
theorem length_le_of_complete (h : plan.complete = true) : plan.keys.length ≤ plan.pos := by
  simp only [complete, Bool.and_eq_true, decide_eq_true_eq] at h
  exact h.1.2

/-- What a reposition skips lies at or below the cursor. -/
theorem rest_reposition {resumeAfter : Option TaskHash} :
    ∀ k ∈ plan.rest, k ∈ (plan.reposition resumeAfter).rest ∨
      (k : WithBot TaskHash) ≤ cursorBound resumeAfter := by
  intro k hk
  cases resumeAfter with
  | none => exact .inl hk
  | some cursor =>
    let below := plan.keys.takeWhile fun k => decide (k ≤ cursor)
    change k ∈ plan.keys.drop (max plan.pos below.length) ∨ _
    rcases le_total below.length plan.pos with hle | hle
    · rw [max_eq_left hle]
      exact .inl hk
    · rw [max_eq_right hle]
      have hsplit : plan.keys = below ++ plan.keys.dropWhile fun k => decide (k ≤ cursor) :=
        takeWhile_append_dropWhile.symm
      have hmem : k ∈ plan.keys := mem_of_mem_drop hk
      rw [hsplit, mem_append] at hmem
      rcases hmem with hbelow | habove
      · have hk := mem_takeWhile_imp hbelow
        exact .inr (WithBot.coe_le_coe.mpr (by simpa using hk))
      · left
        rw [hsplit, drop_left]
        exact habove

end SnapshotStreamPlan

section Move

variable [DefaultHasher] [RecordCodec I]

variable {s t : ClusterState I} {k : TaskHash}

omit [DefaultHasher] [RecordCodec I] in
/-- A known task is in memory or settled. -/
theorem containsTask_iff : s.containsTask k = true ↔
      (∃ st, s.tasks.lookup k = some st) ∨ ∃ e, s.settled.index.lookup k = some e := by
  rw [containsTask, settledContains, Bool.or_eq_true,
    decide_eq_true_iff, decide_eq_true_iff, mem_iff_lookup, mem_iff_lookup]

/-- A step of the ledger forgets no task. -/
theorem LedgerStep.containsTask (h : LedgerStep s t)
    (hk : s.containsTask k = true) : t.containsTask k = true := by
  rw [containsTask_iff] at hk ⊢
  cases h with
  | frame same =>
    rw [same.tasks, same.settled]
    exact hk
  | write h new =>
    rw [setTaskState_lookup]
    by_cases hkh : k = h
    · exact .inl ⟨new, if_pos hkh⟩
    · rw [if_neg hkh]
      exact hk
  | @retouch h _ new _ _ _ =>
    rw [lookup_insert_eq]
    by_cases hkh : k = h
    · exact .inl ⟨new, if_pos hkh⟩
    · rw [if_neg hkh]
      exact hk
  | @rehydrate h _ record _ _ _ =>
    change (∃ st, (s.tasks.insert h record.state).lookup k = some st) ∨
      ∃ e, (s.settled.index.erase h).lookup k = some e
    rw [lookup_insert_eq, lookup_erase_eq]
    by_cases hkh : k = h
    · exact .inl ⟨record.state, if_pos hkh⟩
    · rw [if_neg hkh, if_neg hkh]
      exact hk

omit [RecordCodec I] in
/-- Spilling an entry forgets no task. -/
theorem containsTask_commitRecord {w : WrittenRecord I}
    (hk : s.containsTask k = true) : (s.commitRecord w).containsTask k = true := by
  unfold commitRecord
  split
  · exact hk
  · split
    · exact hk
    · split
      · exact hk
      · rename_i state _ _ _ settledClass _
        rw [containsTask_iff] at hk ⊢
        change (∃ st, (s.tasks.erase w.hash).lookup k = some st) ∨
          ∃ e, (s.settled.index.insert w.hash _).lookup k = some e
        rw [lookup_erase_eq, lookup_insert_eq]
        by_cases hkh : k = w.hash
        · exact .inr ⟨_, if_pos hkh⟩
        · rw [if_neg hkh, if_neg hkh]
          exact hk

/-- A ledger never forgets a task. -/
theorem LedgerMove.containsTask (h : LedgerMove s t)
    (hk : s.containsTask k = true) : t.containsTask k = true := by
  cases h with
  | steps h =>
    induction h with
    | refl => exact hk
    | tail _ hstep ih => exact LedgerStep.containsTask hstep ih
  | attachSpillSegment => exact hk
  | commitSpill receipt =>
    induction receipt generalizing s with
    | nil => exact hk
    | cons w receipt ih => exact ih (containsTask_commitRecord hk)
  | installSettledBase hlegal =>
    rw [containsTask_iff] at hk ⊢
    rcases hk with hfat | ⟨e, he⟩
    · exact .inl hfat
    · rw [hlegal.none_settled] at he
      cases he

omit [DefaultHasher] in
/-- Where records can be read, a known key has an entry to stream. -/
theorem streamEntry_isSome (hcodec : RecordCodec.RoundTrips I)
    (hk : s.containsTask k = true) : ∃ entry, s.streamEntry k = some entry := by
  unfold streamEntry
  split
  · exact ⟨_, rfl⟩
  · rename_i hfat
    rcases containsTask_iff.mp hk with ⟨st, hst⟩ | ⟨e, he⟩
    · rw [hfat] at hst
      cases hst
    · obtain ⟨record, hread⟩ := (legible_of_roundTrips hcodec s).reads k e he
      exact ⟨(record.state, record.outputs), by
        rw [settledRecord, settledEntry, he, Option.bind_some, hread]
        rfl⟩

/-- What the next package of a plan carries, and what it leaves for later. -/
structure Carries [StreamCodec I] (plan : SnapshotStreamPlan) (built : StreamPackage I)
    (plan' : SnapshotStreamPlan) (snap : ClusterStateSnapshot I) : Prop where
  keys : plan'.keys = plan.keys
  decodes : StreamCodec.decodeStreamPayload built.payload = .ok snap
  bare : built.cursor = none → snap.tasks.keys = []
  upTo : ∀ k ∈ plan.rest, (k : WithBot TaskHash) ≤ cursorBound built.cursor → k ∈ snap.tasks.keys
  split : ∀ k ∈ plan.rest, k ∈ snap.tasks.keys ∨ k ∈ plan'.rest
  last : built.done = true → ∀ k ∈ plan.rest, k ∈ snap.tasks.keys

omit [DefaultHasher] in
/-- **A package carries the next keys of its plan up to its cursor.** -/
theorem SnapshotStreamPlan.Built.carries [StreamCodec I] (hcodec : RecordCodec.RoundTrips I)
    (hstream : StreamCodec.RoundTrips I) {state : ClusterState I} {plan plan' : SnapshotStreamPlan}
    {built : StreamPackage I} (h : SnapshotStreamPlan.Built state plan built plan')
    (hsorted : plan.keys.Pairwise (· ≤ ·)) (hheld : ∀ k ∈ plan.keys, state.containsTask k = true) :
    ∃ snap, Carries plan built plan' snap := by
  have hempty : ∀ {c : Option TaskHash} {k : TaskHash}, c = none →
      ¬(k : WithBot TaskHash) ≤ cursorBound c := by
    rintro _ k rfl hle
    exact WithBot.not_coe_le_bot k hle
  cases h with
  | head _ hpayload hcursor hdone =>
    refine ⟨state.streamHead, rfl, hstream _ _ hpayload, fun _ => rfl, fun k _ hle => ?_,
      fun k hk => .inr hk, fun h k hk => ?_⟩
    · exact (hempty hcursor hle).elim
    · rw [hdone] at h
      have hlen := length_le_of_complete h
      change plan.keys.length ≤ plan.pos at hlen
      rw [rest_eq_empty hlen] at hk
      exact hk.elim
  | batch taken rest snap hkeys hpayload htasks _ hcursor hdone =>
    have hrest : plan.rest = {k | k ∈ taken ++ rest} := by rw [SnapshotStreamPlan.rest, hkeys]
    have hdrop : plan.keys.drop (plan.pos + taken.length) = rest := by
      rw [← drop_drop, hkeys, drop_left]
    have htaken : ∀ k ∈ taken, k ∈ snap.tasks.keys := by
      intro k hk
      have hmem : k ∈ plan.keys := mem_of_mem_drop (hkeys ▸ mem_append_left rest hk)
      obtain ⟨entry, hentry⟩ := streamEntry_isSome hcodec (hheld k hmem)
      refine AList.mem_keys.mp (mem_iff_lookup.mpr ⟨entry.1, ?_⟩)
      rw [htasks k, if_pos hk, hentry]
      rfl
    have hordered : (taken ++ rest).Pairwise (· ≤ ·) := hkeys ▸ hsorted.drop
    refine ⟨snap, rfl, hstream _ _ hpayload, fun hnone => ?_, fun k hk hle => ?_, fun k hk => ?_,
      fun h k hk => ?_⟩
    · have hnil : taken = [] := getLast?_eq_none_iff.mp (hcursor.symm.trans hnone)
      have hlookup : snap.tasks = ∅ := eq_empty_of_lookup fun k => by
        rw [htasks k, if_neg (by rw [hnil]; exact not_mem_nil)]
      rw [hlookup]
      rfl
    · rw [hrest] at hk
      rcases mem_append.mp hk with hk | hk
      · exact htaken k hk
      · -- A later key is not below the last taken one, unless it is that key.
        cases hlast : taken.getLast? with
        | none => exact (hempty (hcursor.trans hlast) hle).elim
        | some c =>
          have hc : c ∈ taken := mem_of_getLast? hlast
          have hck := (pairwise_append.mp hordered).2.2 c hc k hk
          rw [hcursor, hlast] at hle
          have hkc : k = c := le_antisymm (WithBot.coe_le_coe.mp hle) hck
          exact htaken k (hkc ▸ hc)
    · rw [hrest] at hk
      rcases mem_append.mp hk with hk | hk
      · exact .inl (htaken k hk)
      · right
        change k ∈ plan.keys.drop (plan.pos + taken.length)
        rwa [hdrop]
    · have hlen := length_le_of_complete (hdone.symm.trans h)
      have hnil : rest = [] := hdrop ▸ drop_eq_nil_of_le hlen
      rw [hrest, hnil, append_nil] at hk
      exact htaken k hk
  | tail tallies hpos _ hpayload =>
    have hnone : plan.rest = ∅ := rest_eq_empty hpos
    refine ⟨_, rfl, hstream _ _ hpayload, fun _ => rfl, fun k hk => ?_, fun k hk => ?_,
      fun _ k hk => ?_⟩ <;> (rw [hnone] at hk; exact hk.elim)

end Move

end DynRunner
