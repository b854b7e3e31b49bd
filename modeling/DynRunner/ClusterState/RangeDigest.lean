import DynRunner.ClusterState.Consistency
import Mathlib.Algebra.BigOperators.Group.Finset.Piecewise
import Mathlib.Data.Fintype.Basic

/-!
# The memoised range digest

Anti-entropy compares two ledgers bucket by bucket: the number of entries in a bucket and
the XOR of their content terms. The digest is served from a memo that every write updates.
Adding terms commutes, so the digest of a ledger depends on the terms it holds and not on
an order, and a write, a spill or a read-back keeps the memo equal to it. Adopting a settled
base does not touch the memo.
-/

namespace DynRunner

open HashMap RangeDigest List

variable {I : Type}

namespace RangeDigest

/-- The XOR of all bucket folds. -/
def xorFolds (d : RangeDigest) : UInt64 :=
  (finRange rangeCount).foldr (fun r acc => d.folds r ^^^ acc) 0

/-- The sum of all bucket counts. -/
def sumCounts (d : RangeDigest) : ℕ := ∑ r, d.counts r

variable {r : Fin rangeCount} {d : RangeDigest} {key k : TaskHash} {term old new : UInt64}
  {terms : List (TaskHash × UInt64)}

/-- Changing one summand of an XOR over distinct indices changes the XOR by as much. -/
theorem foldr_xor_update (f g : Fin rangeCount → UInt64) (term : UInt64)
    (hr : g r = f r ^^^ term) (hother : ∀ i, i ≠ r → g i = f i) (l : List (Fin rangeCount))
    (hnodup : l.Nodup) : l.foldr (fun i acc => g i ^^^ acc) 0 =
      l.foldr (fun i acc => f i ^^^ acc) 0 ^^^ if r ∈ l then term else 0 := by
  induction l with
  | nil => simp
  | cons i l ih =>
    obtain ⟨hi, hl⟩ := nodup_cons.mp hnodup
    rw [foldr_cons, foldr_cons, ih hl]
    by_cases hir : i = r
    · subst hir
      simp only [hi, if_false, hr, mem_cons_self, if_true, UInt64.xor_zero]
      rw [UInt64.xor_assoc, UInt64.xor_assoc, UInt64.xor_comm term]
    · rw [hother i hir, UInt64.xor_assoc]
      simp only [mem_cons, Ne.symm hir, false_or]

/-- The empty digest folds to zero. -/
theorem xorFolds_empty : xorFolds .empty = 0 := by
  simp only [xorFolds, empty, UInt64.zero_xor]
  exact foldr_fixed _

variable [DefaultHasher]

@[simp] theorem add_folds :
    (d.add key term).folds r = d.folds r ^^^ if r = rangeIndex key then term else 0 := by
  by_cases hr : r = rangeIndex key
  · subst hr
    simp [add]
  · simp [add, hr]

@[simp] theorem add_counts : (d.add key term).counts r =
      if r = rangeIndex key then min (d.counts r + 1) u32Max else d.counts r := by
  by_cases hr : r = rangeIndex key
  · subst hr
    simp [add]
  · simp [add, hr]

@[simp] theorem swap_folds : (d.swap key old new).folds r =
      d.folds r ^^^ if r = rangeIndex key then old ^^^ new else 0 := by
  by_cases hr : r = rangeIndex key
  · subst hr
    simp [swap]
  · simp [swap, hr]

@[simp] theorem swap_counts : (d.swap key old new).counts = d.counts := rfl

/-- Terms can be added in any order. -/
theorem add_comm (d : RangeDigest) {k' : TaskHash} {t t' : UInt64} :
    (d.add k t).add k' t' = (d.add k' t').add k t := by
  refine RangeDigest.ext (funext fun r => ?_) (funext fun r => ?_)
  · rw [add_folds, add_folds, add_folds, add_folds, UInt64.xor_assoc, UInt64.xor_assoc,
      UInt64.xor_comm (if r = rangeIndex k then t else 0)]
  · simp only [add_counts]
    split <;> split <;> rfl

/-- Swapping a term is adding the new one in place of the old one. -/
theorem swap_add : (d.add k old).swap k old new = d.add k new := by
  refine RangeDigest.ext (funext fun r => ?_) (funext fun r => ?_)
  · rw [swap_folds, add_folds, add_folds]
    split
    · rw [UInt64.xor_assoc, ← UInt64.xor_assoc old old new, UInt64.xor_self, UInt64.zero_xor]
    · rw [UInt64.xor_assoc, UInt64.xor_self]
  · rw [swap_counts, add_counts, add_counts]

/-- The digest of a list of terms. -/
def ofTerms (terms : List (TaskHash × UInt64)) : RangeDigest :=
  terms.foldr (fun t d => d.add t.1 t.2) .empty

/-- The digest depends on the terms only, not on their order. -/
theorem ofTerms_perm {terms' : List (TaskHash × UInt64)} (h : terms.Perm terms') :
    ofTerms terms = ofTerms terms' :=
  h.foldr_eq' (fun _ _ _ _ d => add_comm d) .empty

/-- Adding the terms of a list one after the other. -/
theorem foldl_add (terms : List (TaskHash × UInt64)) (before : List (TaskHash × UInt64)) :
    terms.foldl (fun d t => d.add t.1 t.2) (ofTerms before) = ofTerms (terms ++ before) := by
  induction terms generalizing before with
  | nil => rfl
  | cons t terms ih =>
    rw [foldl_cons]
    exact (ih (t :: before)).trans (ofTerms_perm perm_middle)

/-- One more term enters the fold of all ranges. -/
theorem xorFolds_add : (d.add key term).xorFolds = d.xorFolds ^^^ term := by
  have hsum := foldr_xor_update d.folds (d.add key term).folds (r := rangeIndex key) term
    (by simp) (fun i hi => by simp [hi]) (finRange rangeCount) (nodup_finRange _)
  rw [if_pos (mem_finRange _)] at hsum
  exact hsum

/-- The XOR of the bucket folds is the XOR of all terms. -/
theorem xorFolds_ofTerms : (ofTerms terms).xorFolds = terms.foldr (fun t acc => acc ^^^ t.2) 0 := by
  induction terms with
  | nil => exact xorFolds_empty
  | cons t terms ih => rw [ofTerms, foldr_cons, ← ofTerms, xorFolds_add, ih, foldr_cons]

/-- A bucket counts its terms, up to the largest 32-bit number. -/
theorem counts_ofTerms :
    (ofTerms terms).counts r = min (terms.countP fun t => r = rangeIndex t.1) u32Max := by
  induction terms with
  | nil => rfl
  | cons t terms ih =>
    rw [ofTerms, foldr_cons, ← ofTerms, add_counts, ih, countP_cons]
    split <;> rename_i hr <;> simp only [hr, decide_true, decide_false, if_true, Bool.false_eq_true,
      if_false] <;> omega

/-- Every term lies in one bucket. -/
theorem sum_countP : ∑ r, terms.countP (fun t => r = rangeIndex t.1) = terms.length := by
  induction terms with
  | nil => exact Finset.sum_const_zero
  | cons t terms ih =>
    simp only [countP_cons, decide_eq_true_eq]
    rw [Finset.sum_add_distrib, ih, Finset.sum_ite_eq' Finset.univ, if_pos (Finset.mem_univ _),
      length_cons]

/-- While no bucket overflows, the bucket counts sum to the number of terms. -/
theorem sumCounts_ofTerms (hlen : terms.length ≤ u32Max) :
    (ofTerms terms).sumCounts = terms.length := by
  have hcount : ∀ r, (ofTerms terms).counts r = terms.countP fun t => r = rangeIndex t.1 := by
    intro r
    rw [counts_ofTerms]
    exact Nat.min_eq_left (countP_le_length.trans hlen)
  rw [sumCounts, Finset.sum_congr rfl fun r _ => hcount r, sum_countP]

end RangeDigest

namespace ClusterState

variable [DefaultHasher] (s : ClusterState I)

/-- `tasks_range_digest`: served from the memo. -/
def tasksRangeDigest : RangeDigest := s.rangeFoldMemo

/-- `fresh_tasks_range_digest`: folded from scratch over fat and settled entries. -/
def freshTasksRangeDigest : RangeDigest :=
  let digest := s.tasks.entries.foldl (fun d e => d.add e.1 (taskDigestTerm e.1 e.2)) .empty
  s.settled.index.entries.foldl (fun d e => d.add e.1 e.2.digestContribution) digest

/-- The `tasks_hash` of the state digest: the fat terms folded into the accumulator of the
settled ones. -/
def tasksHash : UInt64 :=
  s.tasks.entries.foldl (fun acc e => acc ^^^ taskDigestTerm e.1 e.2) s.settled.tasksHashAcc

/-- The `tasks_count` of the state digest. -/
def tasksCount : ℕ := s.tasks.entries.length + s.settled.index.entries.length

/-- The content terms of the entries in memory. -/
def fatTerms (tasks : HashMap TaskHash (TaskState I)) : List (TaskHash × UInt64) :=
  tasks.entries.map fun e => (e.1, taskDigestTerm e.1 e.2)

/-- The content terms of the settled entries. -/
def settledTerms (index : HashMap TaskHash (SettledEntry I)) : List (TaskHash × UInt64) :=
  index.entries.map fun e => (e.1, e.2.digestContribution)

/-- The content terms of the whole ledger. -/
def ledgerTerms : List (TaskHash × UInt64) :=
  fatTerms s.tasks ++ settledTerms s.settled.index

/-- The digest computed afresh is that of the terms of the ledger. -/
theorem freshTasksRangeDigest_eq {s : ClusterState I} :
    s.freshTasksRangeDigest = .ofTerms s.ledgerTerms := by
  have hfat : s.tasks.entries.foldl (fun d e => d.add e.1 (taskDigestTerm e.1 e.2)) .empty =
      RangeDigest.ofTerms (fatTerms s.tasks) := by
    have h := foldl_add (fatTerms s.tasks) []
    rw [fatTerms, foldl_map, ← fatTerms, append_nil] at h
    exact h
  have hsettled := foldl_add (settledTerms s.settled.index) (fatTerms s.tasks)
  rw [settledTerms, foldl_map, ← settledTerms] at hsettled
  rw [freshTasksRangeDigest, hfat]
  exact hsettled.trans (ofTerms_perm perm_append_comm)

variable {tasks : HashMap TaskHash (TaskState I)} {st : TaskState I}

/-- Writing an entry puts its term in front of the other terms. -/
theorem fatTerms_insert (h : TaskHash) :
    fatTerms (tasks.insert h st) = (h, taskDigestTerm h st) :: fatTerms (tasks.erase h) := rfl

variable {h : TaskHash} {s t : ClusterState I}

/-- The term of an entry beside those of the others. -/
theorem fatTerms_of_lookup (hst : tasks.lookup h = some st) :
    (fatTerms tasks).Perm ((h, taskDigestTerm h st) :: fatTerms (tasks.erase h)) :=
  (perm_cons_erase hst).map _

/-- The memo is the digest of the ledger. -/
def MemoAgrees (s : ClusterState I) : Prop := s.rangeFoldMemo = .ofTerms s.ledgerTerms

/-- A change that keeps the memo and, up to order, the terms keeps their agreement. -/
theorem MemoAgrees.of_perm (hs : s.MemoAgrees)
    (hmemo : t.rangeFoldMemo = s.rangeFoldMemo) (hterms : s.ledgerTerms.Perm t.ledgerTerms) :
    t.MemoAgrees := by
  rw [MemoAgrees, hmemo, hs]
  exact ofTerms_perm hterms

/-- Writing an entry keeps the memo right. -/
theorem MemoAgrees.setTaskState (hs : s.MemoAgrees) (h : TaskHash)
    (new : TaskState I) : (s.setTaskState h new).MemoAgrees := by
  have hterms : (s.setTaskState h new).ledgerTerms = (h, taskDigestTerm h new) ::
      (fatTerms (s.tasks.erase h) ++ settledTerms s.settled.index) := rfl
  rw [MemoAgrees, hterms]
  rw [ClusterState.setTaskState]
  cases hst : s.tasks.lookup h with
  | none =>
    rw [erase_of_lookup_none hst, hs]
    rfl
  | some st =>
    have hperm : s.ledgerTerms.Perm ((h, taskDigestTerm h st) ::
        (fatTerms (s.tasks.erase h) ++ settledTerms s.settled.index)) :=
      (fatTerms_of_lookup hst).append_right _
    rw [hs, ofTerms_perm hperm]
    exact swap_add

/-- A step of the ledger keeps the memo right. -/
theorem MemoAgrees.step [RecordCodec I] (hkeep : s.ReadsKeep)
    (hcons : s.Consistent) (hs : s.MemoAgrees) (hstep : LedgerStep s t) : t.MemoAgrees := by
  cases hstep with
  | frame same =>
    refine hs.of_perm same.rangeFoldMemo ?_
    rw [ledgerTerms, ledgerTerms, same.tasks, same.settled]
  | write h new => exact hs.setTaskState h new
  | @retouch h st new present status attempt =>
    refine hs.of_perm rfl (Perm.append_right _ ?_)
    have hterm : taskDigestTerm h new = taskDigestTerm h st := by
      rw [taskDigestTerm, taskJoinKey, status, attempt]
      rfl
    rw [fatTerms_insert, hterm]
    exact fatTerms_of_lookup present
  | @rehydrate h entry record settled absent read =>
    refine hs.of_perm rfl ?_
    obtain ⟨hstatus, hattempt⟩ := hkeep h entry record settled read
    have hentry := hcons.settled.entries h entry settled
    have hterm : taskDigestTerm h record.state = entry.digestContribution := by
      rw [hentry.digest, ← hentry.key, taskDigestTerm, taskJoinKey, hstatus, hattempt]
      rfl
    change (fatTerms s.tasks ++ settledTerms s.settled.index).Perm
      (fatTerms (s.tasks.insert h record.state) ++ settledTerms (s.settled.index.erase h))
    rw [fatTerms_insert, erase_of_lookup_none absent, hterm]
    exact (((perm_cons_erase settled).map _).append_left _).trans perm_middle

/-- So do several steps. -/
theorem MemoAgrees.steps [RecordCodec I] (hkeep : s.ReadsKeep)
    (hcons : s.Consistent) (hs : s.MemoAgrees) (hsteps : LedgerSteps s t) : t.MemoAgrees := by
  induction hsteps with
  | refl => exact hs
  | tail hbefore hstep ih => exact ih.step (hkeep.steps hbefore) (hcons.steps hkeep hbefore) hstep

/-- A spilled entry takes its term along. -/
theorem MemoAgrees.commitRecord (hcons : s.Consistent) (hs : s.MemoAgrees)
    (w : WrittenRecord I) : (s.commitRecord w).MemoAgrees := by
  unfold ClusterState.commitRecord
  cases hst : s.tasks.lookup w.hash with
  | none => exact hs
  | some state =>
    dsimp only
    split
    · exact hs
    · cases hclass : settledClassOf state.status with
      | none => exact hs
      | some c =>
        refine hs.of_perm rfl ?_
        have hnone := hcons.disjoint w.hash state hst
        have hinsert : settledTerms (s.settled.index.insert w.hash (s.settledEntryOf w state c)) =
            (w.hash, taskDigestTerm w.hash state) :: settledTerms s.settled.index := by
          change _ :: settledTerms (s.settled.index.erase w.hash) = _
          rw [erase_of_lookup_none hnone]
          rfl
        change s.ledgerTerms.Perm
          (fatTerms (s.tasks.erase w.hash) ++ settledTerms (s.settled.index.insert w.hash _))
        rw [hinsert]
        exact ((fatTerms_of_lookup hst).append_right _).trans perm_middle.symm

/-- A committed batch keeps the memo right. -/
theorem MemoAgrees.commitSpill (hcons : s.Consistent) (hs : s.MemoAgrees)
    {receipt : List (WrittenRecord I)} (hreceipt : ∀ w ∈ receipt, WrittenSound w) :
    (s.commitSpill receipt).MemoAgrees := by
  induction receipt generalizing s with
  | nil => exact hs
  | cons w receipt ih =>
    exact ih (hcons.commitRecord (hreceipt w mem_cons_self)) (hs.commitRecord hcons w)
      (fun w' hw' => hreceipt w' (mem_cons_of_mem w hw'))

/-- The XOR of all terms is the task hash of the digest. -/
theorem foldr_ledgerTerms (hs : s.Consistent) :
    s.ledgerTerms.foldr (fun t acc => acc ^^^ t.2) 0 = s.tasksHash := by
  have hsettled : (settledTerms s.settled.index).foldr (fun t acc => acc ^^^ t.2) 0 =
      s.settled.tasksHashAcc := by
    rw [hs.settled.acc, settledTerms, foldr_map, HashMap.foldMap]
    simp only [UInt64.xor_comm]
  rw [ledgerTerms, foldr_append, hsettled, tasksHash, fatTerms, foldr_map, foldl_eq_foldr_reverse]
  refine (reverse_perm _).symm.foldr_eq' (fun e _ e' _ acc => ?_) _
  rw [UInt64.xor_assoc, UInt64.xor_assoc, UInt64.xor_comm (taskDigestTerm e.1 e.2)]

section Run

variable [RecordCodec I] [Identifier I] [DonePayloadCodec]

/-- The memo agrees with the ledger along every run that adopts no settled entry. -/
theorem Reachable.memoAgrees (hcodec : RecordCodec.KeepsState I)
    (hs : Reachable (fun base => base.index = ∅) s) : s.MemoAgrees := by
  induction hs with
  | new => rfl
  | apply m hs ih =>
    exact ih.steps (readsKeep_of_keepsState hcodec) (hs.consistent hcodec) (apply_steps _ m)
  | restore snap order _ hs ih =>
    exact ih.steps (readsKeep_of_keepsState hcodec) (hs.consistent hcodec)
      (restoreInOrder_steps _ snap order)
  | attachSpillSegment _ ih => exact ih
  | commitSpill n hs _ ih => exact ih.commitSpill (hs.consistent hcodec) writeSpillBatch_sound
  | unsettle hash key hs ih =>
    exact ih.steps (readsKeep_of_keepsState hcodec) (hs.consistent hcodec)
      (taskEntryUnsettling_steps _ hash key).steps
  | @installSettledBase s donor _ _ hempty hlegal ih _ =>
    refine ih.of_perm rfl ?_
    change (fatTerms s.tasks ++ settledTerms s.settled.index).Perm
      (fatTerms s.tasks ++ settledTerms donor.settled.index)
    rw [hlegal.none_settled, hempty]

/-- **The memoised range digest is the fresh one in every run that adopts no settled entry.**
The XOR of its folds is then the task hash of the state digest, and its counts sum to the
task count while that number fits in a bucket. -/
theorem range_digest_matches_fresh_fold (hcodec : RecordCodec.KeepsState I)
    {s : ClusterState I} (hs : Reachable (fun base => base.index = ∅) s) :
    s.tasksRangeDigest = s.freshTasksRangeDigest ∧ s.tasksRangeDigest.xorFolds = s.tasksHash ∧
      (s.tasksCount ≤ u32Max → s.tasksRangeDigest.sumCounts = s.tasksCount) := by
  have hmemo : s.tasksRangeDigest = .ofTerms s.ledgerTerms := hs.memoAgrees hcodec
  have hlength : s.ledgerTerms.length = s.tasksCount := by
    simp only [ledgerTerms, fatTerms, settledTerms, length_append, length_map, tasksCount]
  refine ⟨?_, ?_, fun hcount => ?_⟩
  · rw [hmemo, freshTasksRangeDigest_eq]
  · rw [hmemo, xorFolds_ofTerms, foldr_ledgerTerms (hs.consistent hcodec)]
  · rw [hmemo, sumCounts_ofTerms (hlength ▸ hcount), hlength]

end Run

end ClusterState

namespace Sample

/-- The conclusion at a node that spilled its only entry. -/
theorem spilled_range_digest :
    spilled.tasksCount = 1 ∧ spilled.tasksRangeDigest = spilled.freshTasksRangeDigest ∧
      spilled.tasksRangeDigest.xorFolds = spilled.tasksHash ∧
      spilled.tasksRangeDigest.sumCounts = 1 := by
  have h := ClusterState.range_digest_matches_fresh_fold skippingCodec_keepsState spilled_reachable
  exact ⟨by decide, h.1, h.2.1, h.2.2 (by decide)⟩

/-- A promoted node: it adopted the settled store of `spilled` and nothing else. -/
def promoted : ClusterState String := ClusterState.empty.installSettledBase spilled.settled

/-- The sample replica can be reached. -/
theorem promoted_reachable : ClusterState.Reachable (fun _ => True) promoted :=
  .installSettledBase .new spilled_reachable trivial ⟨rfl, fun _ _ h => by cases h⟩

/-- The promoted node holds one task, and its range digest counts none. -/
theorem promoted_range_digest_misses_base : ClusterState.Reachable (fun _ => True) promoted ∧
      promoted.tasksRangeDigest ≠ promoted.freshTasksRangeDigest ∧
      promoted.tasksCount = 1 ∧ promoted.tasksRangeDigest.sumCounts = 0 := by
  refine ⟨promoted_reachable, fun h => ?_, by decide, Finset.sum_const_zero⟩
  have hcount := congrArg (fun d => d.counts (rangeIndex "a")) h
  revert hcount
  decide

end Sample

end DynRunner
