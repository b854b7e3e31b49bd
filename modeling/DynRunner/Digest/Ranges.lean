import DynRunner.Digest.Compute
import DynRunner.Lib.BucketSync
import Mathlib.Algebra.Order.BigOperators.Group.Finset

/-!
# Divergent ranges

Two nodes compare their range digests bucket by bucket, and a node that is behind pulls the buckets
in which the other one has more entries, or as many with another fold. A bucket that is left out
holds the same keys on both nodes, or fewer tasks on the other one, provided that equal summaries
mean equal contents. So while the digests are those of the ledgers, a node whose task digest is
behind finds a bucket to pull.
-/

namespace DynRunner

open RangeDigest List

variable {I : Type}

namespace RangeDigest

/-- Whether the peer is ahead in a bucket. -/
def rangeBehind (self peer : RangeDigest) (r : Fin rangeCount) : Bool :=
  decide (self.counts r < peer.counts r) ||
    (peer.counts r == self.counts r && peer.folds r != self.folds r)

/-- `divergent_ranges`: the buckets in which the peer holds something that is missing here. -/
def divergentRanges (self peer : RangeDigest) : List ℕ :=
  ((finRange rangeCount).filter (self.rangeBehind peer)).map Fin.val

variable {self peer : RangeDigest}

/-- The divergent ranges are those in which this node is behind. -/
theorem mem_divergentRanges {r : Fin rangeCount} :
    (r : ℕ) ∈ self.divergentRanges peer ↔ self.rangeBehind peer r = true := by
  simp [divergentRanges, Fin.val_inj]

/-- No range diverges if this node is behind in none. -/
theorem divergentRanges_eq_nil :
    self.divergentRanges peer = [] ↔ ∀ r, self.rangeBehind peer r = false := by
  simp [divergentRanges, filter_eq_nil_iff]

end RangeDigest

namespace ClusterState

open BucketSync

variable [DefaultHasher] {s t : ClusterState I} {r : Fin rangeCount}

/-- `divergent_ranges_for_pull`: the buckets that a node asks another one for. -/
def divergentRangesForPull (requester target : ClusterState I) : List ℕ :=
  requester.tasksRangeDigest.divergentRanges target.tasksRangeDigest

/-- **No fold collides**: a bucket whose entries have the same count and the same fold on two nodes
holds the same join keys on both. -/
def FoldsFaithful (s t : ClusterState I) : Prop :=
  ∀ r, s.freshTasksRangeDigest.counts r = t.freshTasksRangeDigest.counts r →
    s.freshTasksRangeDigest.folds r = t.freshTasksRangeDigest.folds r →
      SameIn rangeIndex s.joinKeyOf t.joinKeyOf r

/-- The keys that a node knows, in memory or settled. -/
def knownKeys (s : ClusterState I) : List TaskHash := s.tasks.keys ++ s.settled.index.keys

/-- What is not known has no join key. -/
theorem joinKeyOf_eq_none {h : TaskHash} (hnot : h ∉ s.knownKeys) : s.joinKeyOf h = none := by
  rw [knownKeys, mem_append, not_or] at hnot
  rw [joinKeyOf, settledEntry, AList.lookup_eq_none.mpr hnot.1, AList.lookup_eq_none.mpr hnot.2]
  rfl

/-- It is enough to look at the buckets of the tasks that one of the nodes knows. -/
theorem foldsFaithful_of_knownKeys (hkeys : ∀ h ∈ s.knownKeys ++ t.knownKeys,
    s.freshTasksRangeDigest.counts (rangeIndex h) = t.freshTasksRangeDigest.counts (rangeIndex h) →
      s.freshTasksRangeDigest.folds (rangeIndex h) = t.freshTasksRangeDigest.folds (rangeIndex h) →
        s.joinKeyOf h = t.joinKeyOf h) : s.FoldsFaithful t := by
  rintro r hcount hfold h rfl
  by_cases hknown : h ∈ s.knownKeys ++ t.knownKeys
  · exact hkeys h hknown hcount hfold
  · rw [mem_append, not_or] at hknown
    rw [joinKeyOf_eq_none hknown.1, joinKeyOf_eq_none hknown.2]

variable (hs : s.Consistent)
include hs

/-- The tasks of a bucket, as a list. -/
theorem keysIn_eq (r : Fin rangeCount) : keysIn rangeIndex s.joinKeyOf r =
      {k | k ∈ (s.ledgerTerms.filter fun t => r = rangeIndex t.1).map Prod.fst} := by
  ext k
  rw [keysIn, Set.mem_ofPred_eq, Set.mem_ofPred_eq, mem_map]
  constructor
  · rintro ⟨hbucket, hkey⟩
    obtain ⟨key, hkey⟩ := Option.ne_none_iff_exists'.mp hkey
    refine ⟨(k, digestTermOfKey k key), mem_filter.mpr ⟨?_, ?_⟩, rfl⟩
    · exact (mem_ledgerTerms hs).mpr ⟨key, hkey, rfl⟩
    · exact decide_eq_true hbucket.symm
  · rintro ⟨⟨k', term⟩, hmem, rfl⟩
    obtain ⟨hmem, hbucket⟩ := mem_filter.mp hmem
    obtain ⟨key, hkey, -⟩ := (mem_ledgerTerms hs).mp hmem
    exact ⟨(of_decide_eq_true hbucket).symm, by rw [hkey]; simp⟩

/-- A range has finitely many keys. -/
theorem finite_keysIn (r : Fin rangeCount) : (keysIn rangeIndex s.joinKeyOf r).Finite := by
  rw [keysIn_eq hs]
  exact finite_toSet _

/-- A bucket has as many tasks as terms. -/
theorem ncard_keysIn (r : Fin rangeCount) : (keysIn rangeIndex s.joinKeyOf r).ncard =
      s.ledgerTerms.countP fun t => r = rangeIndex t.1 := by
  have hnodup : ((s.ledgerTerms.filter fun t => r = rangeIndex t.1).map Prod.fst).Nodup := by
    refine ((nodup_ledgerTerms hs).filter _).map_on ?_
    rintro ⟨k, term⟩ hmem ⟨k', term'⟩ hmem' heq
    obtain rfl : k = k' := heq
    obtain ⟨key, hkey, rfl⟩ := (mem_ledgerTerms hs).mp (mem_filter.mp hmem).1
    obtain ⟨key', hkey', rfl⟩ := (mem_ledgerTerms hs).mp (mem_filter.mp hmem').1
    rw [hkey] at hkey'
    cases hkey'
    rfl
  have hset : {k | k ∈ (s.ledgerTerms.filter fun t => r = rangeIndex t.1).map Prod.fst} =
      ↑((s.ledgerTerms.filter fun t => r = rangeIndex t.1).map Prod.fst).toFinset := by
    ext k
    simp
  rw [keysIn_eq hs, hset, Set.ncard_coe_finset, toFinset_card_of_nodup hnodup,
    length_map, countP_eq_length_filter]

omit hs in
/-- The count of tasks is the number of terms. -/
theorem tasksCount_eq : s.tasksCount = s.ledgerTerms.length := by
  simp only [ledgerTerms, fatTerms, settledTerms, length_append, length_map, tasksCount]

/-- **What a bucket that is not pulled holds**: the same join keys on both nodes, or fewer tasks on
the other one. -/
theorem same_or_fewer (ht : t.Consistent) (hmemo : s.MemoAgrees)
    (hmemo' : t.MemoAgrees) (hfaithful : s.FoldsFaithful t)
    (hr : s.tasksRangeDigest.rangeBehind t.tasksRangeDigest r = false) :
    SameIn rangeIndex s.joinKeyOf t.joinKeyOf r ∨
      (keysIn rangeIndex t.joinKeyOf r).ncard < (keysIn rangeIndex s.joinKeyOf r).ncard := by
  simp only [RangeDigest.rangeBehind, Bool.or_eq_false_iff, decide_eq_false_iff_not, not_lt,
    Bool.and_eq_false_imp, beq_iff_eq, bne_eq_false_iff_eq] at hr
  obtain ⟨hle, hfold⟩ := hr
  rcases hle.eq_or_lt with heq | hlt
  · have hfresh : ∀ u : ClusterState I, u.MemoAgrees →
      u.tasksRangeDigest = u.freshTasksRangeDigest :=
      fun u hu => hu.trans u.freshTasksRangeDigest_eq.symm
    rw [hfresh s hmemo, hfresh t hmemo'] at heq hfold
    exact Or.inl (hfaithful r heq.symm (hfold heq).symm)
  · rw [ncard_keysIn hs, ncard_keysIn ht]
    rw [tasksRangeDigest, tasksRangeDigest, hmemo, hmemo', counts_ofTerms, counts_ofTerms] at hlt
    exact Or.inr (by omega)

/-- The buckets that a node asks for leave out only what may be left out. -/
theorem covers_divergentRanges (ht : t.Consistent) (hmemo : s.MemoAgrees)
    (hmemo' : t.MemoAgrees) (hfaithful : s.FoldsFaithful t) :
    Covers rangeIndex s.joinKeyOf t.joinKeyOf
      fun r => s.divergentRangesForPull t = [] ∨ (r : ℕ) ∈ s.divergentRangesForPull t := by
  intro r hr
  rw [not_or, divergentRangesForPull, mem_divergentRanges, Bool.not_eq_true] at hr
  exact same_or_fewer hs ht hmemo hmemo' hfaithful hr.2

/-- **A node that is behind finds a bucket to pull.** -/
theorem divergentRanges_ne_nil (ht : t.Consistent) (hmemo : s.MemoAgrees)
    (hmemo' : t.MemoAgrees) (hfaithful : s.FoldsFaithful t) {other other' : OtherDigests}
    (hbehind : (s.digest other).tasks.behind (t.digest other').tasks = true) :
    s.divergentRangesForPull t ≠ [] := by
  intro hnil
  have hcases := fun r => same_or_fewer hs ht hmemo hmemo' hfaithful
    (divergentRanges_eq_nil.mp hnil r)
  have hle : ∀ r, (keysIn rangeIndex t.joinKeyOf r).ncard ≤
      (keysIn rangeIndex s.joinKeyOf r).ncard := by
    intro r
    rcases hcases r with hsame | hfewer
    · refine Set.ncard_le_ncard (fun k hk => ⟨hk.1, ?_⟩) (finite_keysIn hs r)
      rw [hsame k hk.1]
      exact hk.2
    · exact hfewer.le
  have hsum : ∀ u : ClusterState I, u.Consistent →
      u.tasksCount = ∑ r, (keysIn rangeIndex u.joinKeyOf r).ncard := by
    intro u hu
    rw [tasksCount_eq, ← sum_countP]
    exact Finset.sum_congr rfl fun r _ => (ncard_keysIn hu r).symm
  have hcount : t.tasksCount ≤ s.tasksCount := by
    rw [hsum s hs, hsum t ht]
    exact Finset.sum_le_sum fun r _ => hle r
  simp only [FieldDigest.behind, Bool.or_eq_true, decide_eq_true_eq, Bool.and_eq_true, beq_iff_eq,
    bne_iff_ne] at hbehind
  rcases hbehind with hless | ⟨heq, hne⟩
  · exact absurd hless (not_lt.mpr hcount)
  · -- With as many tasks in all, no bucket has fewer, so every bucket agrees.
    have hall : ∀ r, (keysIn rangeIndex t.joinKeyOf r).ncard =
        (keysIn rangeIndex s.joinKeyOf r).ncard := by
      have htotal : t.tasksCount = s.tasksCount := heq
      rw [hsum s hs, hsum t ht] at htotal
      have hpoint := (Finset.sum_eq_sum_iff_of_le fun r _ => hle r).mp htotal
      exact fun r => hpoint r (Finset.mem_univ r)
    have hkeys : ∀ h, s.joinKeyOf h = t.joinKeyOf h := by
      intro h
      rcases hcases (rangeIndex h) with hsame | hfewer
      · exact hsame h rfl
      · exact absurd (hall (rangeIndex h)) hfewer.ne
    exact hne (congrArg FieldDigest.hash (digest_tasks_congr hs ht hkeys).symm)

end ClusterState

end DynRunner
