import DynRunner.ClusterState.RangeDigest
import DynRunner.Digest.StateDigest
import DynRunner.Ledger.Convergence

/-!
# The digest of a node

`compute_digest` folds every collection of the state into a count and an order-independent hash.
For the tasks the fold runs over fat and settled entries alike, so that their part of the digest
is a function of the join keys.
-/

namespace DynRunner

open List

variable {I : Type}

/-- The parts of a digest whose collections the ledger model does not hold. -/
structure OtherDigests where
  secondaryCapacities : FieldDigest
  latestResourceSamples : FieldDigest
  capabilities : FieldDigest
  retryPassesUsed : FieldDigest
  unfulfillableReinjectUsed : FieldDigest
  respawnEvents : FieldDigest
  affine : FieldDigest
  deriving DecidableEq, Repr

section Hashes

variable [DefaultHasher]

/-- XOR the hashes of the elements of a collection. -/
def xorHashes {α : Type} (atoms : α → List HashAtom) (l : List α) : UInt64 :=
  l.foldl (fun acc a => acc ^^^ DefaultHasher.hashOne (atoms a)) 0

/-- `fold_grow_max` and `fold_grow_set`: the pairs of a map. -/
def foldGrowMap {K V : Type} [DecidableEq K] (key : K → List HashAtom) (value : V → List HashAtom)
    (m : HashMap K V) : FieldDigest :=
  ⟨m.entries.length, xorHashes (fun e => key e.1 ++ value e.2) m.entries⟩

/-- What hashing the primary register feeds. -/
def primaryAtoms : Option String → List HashAtom
  | none => [.u64 0]
  | some primary => [.u64 1, .str primary]

/-- What hashing a tally feeds. -/
def PhaseTally.atoms : PhaseTally → List HashAtom
  | .completed => [.u64 0]
  | .failed => [.u64 1]

/-- What hashing a message state feeds. -/
def CustomMsgState.atoms : CustomMsgState → List HashAtom
  | .unhandled topic data isHighVolume =>
    .u64 0 :: .str topic :: .u64 data.length :: data.map .u8 ++ [.u8 isHighVolume.toNat]
  | .handled => [.u64 1]
  | .failed => [.u64 2]

namespace ClusterState

/-- The hash of the published outputs: those in memory folded into the settled accumulator. -/
def taskOutputsHash (s : ClusterState I) : UInt64 :=
  s.taskOutputs.entries.foldl (fun acc e => acc ^^^ outputsDigestTerm e.1 e.2)
    s.settled.taskOutputsHashAcc

/-- `compute_digest`, for a node that keeps its outputs in memory. -/
def digest (s : ClusterState I) (other : OtherDigests) : StateDigest where
  tasks := ⟨s.tasksCount, s.tasksHash⟩
  secondaryCapacities := other.secondaryCapacities
  latestResourceSamples := other.latestResourceSamples
  taskOutputs := ⟨s.taskOutputs.entries.length + s.settled.settledOutputsCount, s.taskOutputsHash⟩
  phaseDeps := ⟨s.control.phaseDeps.length, canonicalPhaseDepsHash s.control.phaseDeps⟩
  currentPrimaryHash := DefaultHasher.hashOne (primaryAtoms s.control.currentPrimary)
  capabilities := other.capabilities
  primaryEpoch := s.control.primaryEpoch
  runComplete := s.control.runComplete
  runAborted := s.control.runAborted.isSome
  gracefulAbort := s.control.gracefulAbortRequested
  discoveryDebt := s.control.discoveryDebt
  phaseEventTallies := foldGrowMap (fun k => .str k.1 :: k.2.atoms) (fun n => [.u32 n])
    s.phaseEventTallies
  retryPassesUsed := other.retryPassesUsed
  unfulfillableReinjectUsed := other.unfulfillableReinjectUsed
  phasesEnded := ⟨s.control.phasesEnded.length,
    xorHashes (fun phase => [.str phase]) s.control.phasesEnded⟩
  windDownRequested := ⟨s.control.windDownRequested.length,
    xorHashes (fun e => [.str e.1, .u64 e.2]) s.control.windDownRequested⟩
  respawnEvents := other.respawnEvents
  customMessages := foldGrowMap (fun k => [.str k.1, .u64 k.2]) CustomMsgState.atoms
    s.customMessages
  customTerminalWatermarks := foldGrowMap (fun k => [.str k]) (fun n => [.u64 n])
    s.customTerminalWatermarks
  affine := other.affine

/-! ## The task part is a function of the join keys -/

variable {h : TaskHash} {term : UInt64} {s : ClusterState I}

/-- The terms of the entries in memory. -/
theorem mem_fatTerms {tasks : HashMap TaskHash (TaskState I)} : (h, term) ∈ fatTerms tasks ↔
      ∃ st, tasks.lookup h = some st ∧ term = digestTermOfKey h (taskJoinKey st) := by
  simp only [fatTerms, mem_map, Prod.mk.injEq]
  constructor
  · rintro ⟨⟨x, st⟩, he, rfl, rfl⟩
    exact ⟨st, HashMap.mem_entries_iff.mp he, rfl⟩
  · rintro ⟨st, hst, rfl⟩
    exact ⟨⟨h, st⟩, HashMap.mem_entries_iff.mpr hst, rfl, rfl⟩

omit [DefaultHasher] in
/-- The terms of the settled entries. -/
theorem mem_settledTerms {index : HashMap TaskHash (SettledEntry I)} :
    (h, term) ∈ settledTerms index ↔
      ∃ entry, index.lookup h = some entry ∧ term = entry.digestContribution := by
  simp only [settledTerms, mem_map, Prod.mk.injEq]
  constructor
  · rintro ⟨⟨x, entry⟩, he, rfl, rfl⟩
    exact ⟨entry, HashMap.mem_entries_iff.mp he, rfl⟩
  · rintro ⟨entry, hentry, rfl⟩
    exact ⟨⟨h, entry⟩, HashMap.mem_entries_iff.mpr hentry, rfl, rfl⟩

variable (hs : s.Consistent)
include hs

/-- Each task contributes the term of its join key, in memory or settled. -/
theorem mem_ledgerTerms :
    (h, term) ∈ s.ledgerTerms ↔ ∃ k, s.joinKeyOf h = some k ∧ term = digestTermOfKey h k := by
  rw [ledgerTerms, mem_append, mem_fatTerms, mem_settledTerms, joinKeyOf, settledEntry]
  cases hst : s.tasks.lookup h with
  | some st =>
    rw [hs.disjoint h st hst]
    simp
  | none =>
    cases hentry : s.settled.index.lookup h with
    | none => simp
    | some entry => simp [(hs.settled.entries h entry hentry).digest]

/-- No term occurs twice, since fat and settled entries have different keys. -/
theorem nodup_ledgerTerms : s.ledgerTerms.Nodup := by
  have hfat : (fatTerms s.tasks).Nodup := by
    refine .of_map Prod.fst ?_
    rw [fatTerms, map_map]
    exact s.tasks.keys_nodup
  have hsettled : (settledTerms s.settled.index).Nodup := by
    refine .of_map Prod.fst ?_
    rw [settledTerms, map_map]
    exact s.settled.index.keys_nodup
  refine nodup_append.mpr ⟨hfat, hsettled, ?_⟩
  rintro ⟨h, term⟩ hin ⟨h', term'⟩ hin' heq
  cases heq
  obtain ⟨st, hst, _⟩ := mem_fatTerms.mp hin
  obtain ⟨entry, hentry, _⟩ := mem_settledTerms.mp hin'
  rw [hs.disjoint h st hst] at hentry
  cases hentry

/-- Nodes with equal join keys have equal task digests, however their entries are spread over
memory and settled store. -/
theorem digest_tasks_congr {t : ClusterState I} (ht : t.Consistent)
    (hkeys : ∀ h, s.joinKeyOf h = t.joinKeyOf h) {other other' : OtherDigests} :
    (s.digest other).tasks = (t.digest other').tasks := by
  have hperm : s.ledgerTerms.Perm t.ledgerTerms := by
    refine (perm_ext_iff_of_nodup (nodup_ledgerTerms hs) (nodup_ledgerTerms ht)).mpr ?_
    rintro ⟨h, term⟩
    rw [mem_ledgerTerms hs, mem_ledgerTerms ht, hkeys]
  have hcount : ∀ s : ClusterState I, s.tasksCount = s.ledgerTerms.length := by
    intro s
    simp only [ledgerTerms, fatTerms, settledTerms, length_append, length_map, tasksCount]
  have hhash : s.tasksHash = t.tasksHash := by
    rw [← foldr_ledgerTerms hs, ← foldr_ledgerTerms ht]
    refine hperm.foldr_eq' (fun e _ e' _ acc => ?_) 0
    rw [UInt64.xor_assoc, UInt64.xor_assoc, UInt64.xor_comm e.2]
  exact FieldDigest.ext ((hcount s).trans (hperm.length_eq.trans (hcount t).symm)) hhash

end ClusterState

end Hashes

namespace Sample

/-- A node outside whose ledger nothing has happened. -/
def noOthers : OtherDigests := ⟨⟨0, 0⟩, ⟨0, 0⟩, ⟨0, 0⟩, ⟨0, 0⟩, ⟨0, 0⟩, ⟨0, 0⟩, ⟨0, 0⟩⟩

end Sample

end DynRunner
