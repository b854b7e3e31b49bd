import DynRunner.ClusterState.DerivedIndexes
import DynRunner.ClusterState.LedgerStep

/-!
# The derived indexes agree with a fresh scan

The invariant of every reachable state: no hash is both in memory and settled, the reverse
index lists exactly the paused tasks, the outcome tally is what a scan would count, and a
settled entry agrees with the record its segment holds. It is proved for the elementary
changes of the ledger, for a spill and for the adoption of a donor's settled base, and
carried along every run.
-/

namespace DynRunner

open HashMap OutcomeSummary ClusterState RecordCodec

variable {I : Type}

/-- A record that can be read back has the variant and the attempt that were written. -/
def RecordCodec.KeepsState (I : Type) [RecordCodec I] : Prop :=
  ∀ record read : SettledRecord I, readBack record = some read →
    read.state.status = record.state.status ∧ read.state.attempt = record.state.attempt

instance xorCommutative : Std.Commutative (α := UInt64) (· ^^^ ·) := ⟨UInt64.xor_comm⟩

instance xorAssociative : Std.Associative (α := UInt64) (· ^^^ ·) := ⟨UInt64.xor_assoc⟩

section Sound

variable [DefaultHasher]

/-- A settled entry agrees with its record. -/
structure SettledEntry.Sound (h : TaskHash) (e : SettledEntry I) : Prop where
  key : taskJoinKey e.record.state = e.joinKey
  eligible : settleEligible e.record.state.status = true
  bucket : outcomeBucketOf e.record.state.status = some (settledBucketOf e.settledClass)
  digest : e.digestContribution = digestTermOfKey h e.joinKey

/-- Every settled entry agrees with its record, and the accumulator is the fold of their
content terms. -/
structure SettledStore.Sound (t : SettledStore I) : Prop where
  entries : ∀ h e, t.index.lookup h = some e → e.Sound h
  acc : t.tasksHashAcc = foldMap (· ^^^ ·) 0 (fun _ e => e.digestContribution) t.index

/-- The join key of an eligible state determines its outcome bucket. -/
theorem outcomeBucketOf_of_joinKey {a b : ℕ} {σ τ : TaskStatus} {c : SettledClass}
    (hkey : σ.joinKey a = τ.joinKey b) (hσ : settleEligible σ = true)
    (hτ : settledClassOf τ = some c) : outcomeBucketOf σ = some (settledBucketOf c) := by
  have hfinal : ∀ kind : ErrorType, kind.retryable = false →
      bucketForFailedKind kind = .failFinal := by
    intro kind hkind
    cases kind <;> simp_all [ErrorType.retryable, bucketForFailedKind]
  cases σ <;> simp only [settleEligible, Bool.false_eq_true, Bool.not_eq_true'] at hσ <;>
    cases τ <;> simp only [settledClassOf, reduceCtorEq, Option.some.injEq] at hτ <;>
    simp only [TaskStatus.joinKey, keyCompleted, keyFailed, keyInvalidTask, keySkipped,
      keySetupCompleted, TaskJoinKey.mk.injEq, reduceCtorEq, false_and, and_false] at hkey
  case failed.failed =>
    split at hτ
    · cases hτ
    · rename_i hretry
      cases hτ
      simp only [outcomeBucketOf, settledBucketOf, hfinal _ hσ,
        hfinal _ (Bool.eq_false_iff.mpr hretry)]
  all_goals
    subst hτ
    rfl

end Sound

namespace ClusterState

/-- Task `x` is in memory, paused on `on`. -/
def PausedOn (s : ClusterState I) (x on : TaskHash) : Prop :=
  ∃ st, s.tasks.lookup x = some st ∧ st.status.blockedOn = some on

variable [DefaultHasher]

/-- The derived indexes agree with the ledger. -/
structure Consistent (s : ClusterState I) : Prop where
  disjoint : ∀ h st, s.tasks.lookup h = some st → s.settled.index.lookup h = none
  waiters_nodup : ∀ h, (waiters s.blockedBy h).Nodup
  mem_waiters : ∀ h x, x ∈ waiters s.blockedBy h ↔ s.PausedOn x h
  tally : ∀ b, s.outcomeTally.field b =
    count (inBucket b) s.tasks + count (settledInBucket b) s.settled.index
  settled : s.settled.Sound

/-- The empty state is consistent. -/
theorem empty_consistent : (empty : ClusterState I).Consistent where
  disjoint := fun _ _ h => by cases h
  waiters_nodup := fun _ => List.nodup_nil
  mem_waiters := fun h x => by
    constructor
    · intro hx
      cases hx
    · rintro ⟨st, hst, _⟩
      cases hst
  tally := fun b => by cases b <;> rfl
  settled := ⟨fun _ _ h => (by cases h), rfl⟩

variable {s : ClusterState I} {h : TaskHash}

/-- Consistency reads nothing outside the ledger and its summaries. -/
theorem Consistent.congr {t : ClusterState I} (h : s.Consistent) (same : SameLedger s t) :
    t.Consistent where
  disjoint := by rw [same.tasks, same.settled]; exact h.disjoint
  waiters_nodup := by rw [same.blockedBy]; exact h.waiters_nodup
  mem_waiters := by
    simp only [PausedOn, same.tasks, same.blockedBy]
    exact h.mem_waiters
  tally := by rw [same.tasks, same.settled, same.outcomeTally]; exact h.tally
  settled := by rw [same.settled]; exact h.settled

/-- Writing an entry keeps the indexes right. -/
theorem Consistent.setTaskState (hs : s.Consistent)
    (new : TaskState I) (free : s.Writable h) : (s.setTaskState h new).Consistent where
  disjoint := by
    intro x st hst
    rw [setTaskState_lookup] at hst
    split at hst
    · rename_i hx
      rw [hx]
      exact free.elim (fun ⟨st, hst⟩ => hs.disjoint h st hst) id
    · exact hs.disjoint x st hst
  waiters_nodup := nodup_waiters_reindexBlocked hs.waiters_nodup
  mem_waiters := by
    intro on x
    have hold : ∀ on, h ∈ waiters s.blockedBy on ↔
        ((s.tasks.lookup h).bind fun st => st.status.blockedOn) = some on := by
      intro on
      rw [hs.mem_waiters on h, PausedOn, Option.bind_eq_some_iff]
    refine (mem_waiters_reindexBlocked hold on).trans ?_
    rw [hs.mem_waiters on x, PausedOn, PausedOn, setTaskState_lookup]
    by_cases hx : x = h
    · simp [hx]
    · simp [hx]
  tally := by
    intro b
    have htally := hs.tally b
    change (s.outcomeTally.swap _ _).field b = count (inBucket b) (s.tasks.insert h new) + _
    rw [field_swap, count_insert, htally]
    have hnew : inBucket b h new = decide (outcomeBucketOf new.status = some b) := rfl
    cases hst : s.tasks.lookup h with
    | none =>
      rw [erase_of_lookup_none hst, hnew]
      simp only [Option.bind_none, reduceCtorEq, if_false, decide_eq_true_eq, setTaskState_settled]
      omega
    | some st =>
      have hold : inBucket b h st = decide (outcomeBucketOf st.status = some b) := rfl
      rw [count_of_lookup (inBucket b) hst, hnew, hold]
      simp only [Option.bind_some, decide_eq_true_eq, setTaskState_settled]
      omega
  settled := hs.settled

/-- A change of definition or routing keeps every index right. -/
theorem Consistent.retouch (hs : s.Consistent)
    {st new : TaskState I} (present : s.tasks.lookup h = some st)
    (status : new.status = st.status) :
    ({ s with tasks := s.tasks.insert h new } : ClusterState I).Consistent where
  disjoint := by
    intro x st' hst'
    rw [lookup_insert_eq] at hst'
    split at hst'
    · rename_i hx
      rw [hx]
      exact hs.disjoint h st present
    · exact hs.disjoint x st' hst'
  __ := hs
  mem_waiters := by
    intro on x
    refine (hs.mem_waiters on x).trans ?_
    rw [PausedOn, PausedOn, lookup_insert_eq]
    by_cases hx : x = h
    · subst hx
      simp [present, status]
    · simp [hx]
  tally := by
    intro b
    have hbucket : inBucket b h new = inBucket b h st := by simp only [inBucket, status]
    refine (hs.tally b).trans ?_
    rw [count_insert, count_of_lookup (inBucket b) present, hbucket]

section Steps

/-- Reading a settled entry back moves it to memory with the same key and bucket. -/
theorem Consistent.rehydrate (hs : s.Consistent) {entry : SettledEntry I} {record : SettledRecord I}
    (settled : s.settled.index.lookup h = some entry) (absent : s.tasks.lookup h = none)
    (hstatus : record.state.status = entry.record.state.status) :
    (s.rehydrate h entry record).Consistent where
  disjoint := by
    intro x st hst
    change (s.settled.index.erase h).lookup x = none
    rw [lookup_erase_eq]
    split
    · rfl
    · rename_i hx
      refine hs.disjoint x st ?_
      change (s.tasks.insert h record.state).lookup x = some st at hst
      rwa [lookup_insert_eq, if_neg hx] at hst
  waiters_nodup := hs.waiters_nodup
  mem_waiters := by
    -- An eligible state is not paused, and an absent one is not either.
    intro on x
    have hfree : record.state.status.blockedOn = none := by
      have heligible := (hs.settled.entries h entry settled).eligible
      rw [hstatus]
      cases hvariant : entry.record.state.status <;> rw [hvariant] at heligible <;>
        first | rfl | cases heligible
    refine (hs.mem_waiters on x).trans ?_
    change _ ↔ ∃ st, (s.tasks.insert h record.state).lookup x = some st ∧ _
    rw [PausedOn, lookup_insert_eq]
    by_cases hx : x = h
    · subst hx
      simp [absent, hfree]
    · simp [hx]
  tally := by
    intro b
    have hbucket : inBucket b h record.state = settledInBucket b h entry := by
      simp only [inBucket, settledInBucket, hstatus,
        (hs.settled.entries h entry settled).bucket, Option.some.injEq]
    refine (hs.tally b).trans ?_
    change _ = count (inBucket b) (s.tasks.insert h record.state) +
      count (settledInBucket b) (s.settled.index.erase h)
    rw [count_insert_of_none _ _ absent, count_of_lookup _ settled, hbucket]
    omega
  settled := by
    refine ⟨fun x e he => hs.settled.entries x e (lookup_of_erase he), ?_⟩
    -- A term cancels itself.
    change s.settled.tasksHashAcc ^^^ entry.digestContribution = _
    rw [hs.settled.acc, foldMap_of_lookup _ _ _ settled, UInt64.xor_comm, ← UInt64.xor_assoc,
      UInt64.xor_self, UInt64.zero_xor]
    rfl

variable [RecordCodec I]

/-- The settled records that can be read back keep their variant and attempt. -/
def ReadsKeep (s : ClusterState I) : Prop :=
  ∀ h entry read, s.settled.index.lookup h = some entry →
    readBack entry.record = some read →
    read.state.status = entry.record.state.status ∧ read.state.attempt = entry.record.state.attempt

variable {t : ClusterState I}

/-- No step brings a record that cannot be read. -/
theorem ReadsKeep.steps (hs : s.ReadsKeep) (hsteps : LedgerSteps s t) : t.ReadsKeep :=
  fun h entry read hentry hread => hs h entry read (hsteps.settled_lookup hentry) hread

/-- Every elementary change keeps the indexes right. -/
theorem Consistent.step (hs : s.Consistent) (hkeep : s.ReadsKeep)
    (hstep : LedgerStep s t) : t.Consistent := by
  cases hstep with
  | frame same => exact hs.congr same
  | write h new free => exact hs.setTaskState new free
  | retouch h present status => exact hs.retouch present status
  | @rehydrate h entry record settled absent read =>
    exact hs.rehydrate settled absent (hkeep h entry record settled read).1

/-- Steps of the ledger keep the indexes right. -/
theorem Consistent.steps (hs : s.Consistent) (hkeep : s.ReadsKeep)
    (hsteps : LedgerSteps s t) : t.Consistent := by
  induction hsteps with
  | refl => exact hs
  | tail hbefore hstep ih => exact ih.step (hkeep.steps hbefore) hstep

end Steps

/-- A written record carries the key of its body, which was eligible when captured. -/
structure WrittenSound (w : WrittenRecord I) : Prop where
  key : taskJoinKey w.record.state = w.joinKey
  eligible : settleEligible w.record.state.status = true

/-- The records of a batch say what the entries said. -/
theorem writeSpillBatch_sound {s : ClusterState I} {n : ℕ} :
    ∀ w ∈ writeSpillBatch (s.collectSpillBatch n), WrittenSound w := by
  intro w hw
  obtain ⟨cand, hcand, rfl⟩ := List.mem_map.mp hw
  unfold collectSpillBatch at hcand
  split at hcand
  · obtain ⟨e, he, rfl⟩ := List.mem_map.mp hcand
    exact ⟨rfl, (List.mem_filter.mp (List.mem_of_mem_take he)).2⟩
  · cases hcand

variable {w : WrittenRecord I}

/-- Evicting a terminal entry keeps every index right: the entry only changes sides. -/
theorem Consistent.settle (hs : s.Consistent)
    (hw : WrittenSound w) {state : TaskState I} (present : s.tasks.lookup w.hash = some state)
    (hkey : taskJoinKey state = w.joinKey) {c : SettledClass}
    (hclass : settledClassOf state.status = some c) :
    (s.settle w.hash (s.settledEntryOf w state c)).Consistent where
  disjoint := by
    intro x st hst
    change (s.tasks.erase w.hash).lookup x = some st at hst
    change (s.settled.index.insert w.hash _).lookup x = none
    rw [lookup_erase_eq] at hst
    rw [lookup_insert_eq]
    split at hst
    · cases hst
    · rename_i hx
      rw [if_neg hx]
      exact hs.disjoint x st hst
  waiters_nodup := hs.waiters_nodup
  mem_waiters := by
    -- A state in a settled class is terminal, hence not paused.
    intro on x
    have hfree : state.status.blockedOn = none := by
      cases hstatus : state.status <;> rw [hstatus] at hclass <;> first | rfl | cases hclass
    refine (hs.mem_waiters on x).trans ?_
    change _ ↔ ∃ st, (s.tasks.erase w.hash).lookup x = some st ∧ _
    rw [PausedOn, lookup_erase_eq]
    by_cases hx : x = w.hash
    · subst hx
      simp [present, hfree]
    · simp [hx]
  tally := by
    intro b
    have hbucket : inBucket b w.hash state =
        settledInBucket b w.hash (s.settledEntryOf w state c) := by
      have heligible : settleEligible state.status = true := by
        cases hstatus : state.status <;> simp_all [settledClassOf, settleEligible]
      have hsame := outcomeBucketOf_of_joinKey (Eq.refl (taskJoinKey state)) heligible hclass
      exact decide_eq_decide.mpr (by rw [hsame, Option.some.injEq, settledEntryOf])
    refine (hs.tally b).trans ?_
    change _ = count (inBucket b) (s.tasks.erase w.hash) +
      count (settledInBucket b) (s.settled.index.insert w.hash _)
    rw [count_insert_of_none _ _ (hs.disjoint _ _ present), count_of_lookup _ present, hbucket]
    omega
  settled := by
    have hnone := hs.disjoint _ _ present
    refine ⟨fun x e he => ?_, ?_⟩
    · change (s.settled.index.insert w.hash _).lookup x = some e at he
      rw [lookup_insert_eq] at he
      split at he
      · rename_i hx
        cases he
        refine ⟨hw.key, hw.eligible, ?_, ?_⟩
        · exact outcomeBucketOf_of_joinKey (hw.key.trans hkey.symm) hw.eligible hclass
        · rw [hx]
          exact congrArg (digestTermOfKey w.hash) hkey
      · exact hs.settled.entries x e he
    · change s.settled.tasksHashAcc ^^^ _ = foldMap _ _ _ (s.settled.index.insert w.hash _)
      rw [foldMap_insert_of_none _ _ _ hnone, hs.settled.acc, UInt64.xor_comm]

/-- Committing a spill keeps every index right. -/
theorem Consistent.commitRecord (hs : s.Consistent)
    (hw : WrittenSound w) : (s.commitRecord w).Consistent := by
  unfold ClusterState.commitRecord
  cases hst : s.tasks.lookup w.hash with
  | none => exact hs
  | some state =>
    dsimp only
    split
    · exact hs
    · rename_i hkey
      cases hclass : settledClassOf state.status with
      | none => exact hs
      | some => exact hs.settle hw hst (not_not.mp hkey) hclass

/-- A committed batch keeps the indexes right. -/
theorem Consistent.commitSpill (hs : s.Consistent)
    {receipt : List (WrittenRecord I)} (hreceipt : ∀ w ∈ receipt, WrittenSound w) :
    (s.commitSpill receipt).Consistent := by
  induction receipt generalizing s with
  | nil => exact hs
  | cons w receipt ih =>
    exact ih (hs.commitRecord (hreceipt w List.mem_cons_self))
      (fun w' hw' => hreceipt w' (List.mem_cons_of_mem w hw'))

/-- The contract of `install_settled_base`: nothing is settled yet, and nothing in memory is
settled at the donor. -/
structure InstallLegal (s : ClusterState I) (base : SettledStore I) : Prop where
  none_settled : s.settled.index = ∅
  disjoint : ∀ h st, s.tasks.lookup h = some st → base.index.lookup h = none

/-- Adopting a donor's base where it is legal keeps every index right. -/
theorem Consistent.installSettledBase (hs : s.Consistent)
    {base : SettledStore I} (hlegal : s.InstallLegal base) (hbase : base.Sound) :
    (s.installSettledBase base).Consistent where
  disjoint := hlegal.disjoint
  __ := hs
  tally := by
    intro b
    change (base.index.entries.foldl _ s.outcomeTally).field b = _
    rw [field_foldl_swap, hs.tally b, hlegal.none_settled]
    simp only [Option.some.injEq, count_empty, Nat.add_zero]
    rfl
  settled := ⟨hbase.entries, hbase.acc⟩

/-- The states a node can be in: any interleaving of mutations, restores, spills, read-backs
and, where its contract allows it, the adoption of another node's settled store. `adopt`
restricts which stores are adopted. -/
inductive Reachable [RecordCodec I] [Identifier I] [DonePayloadCodec]
    (adopt : SettledStore I → Prop) : ClusterState I → Prop
  | new : Reachable adopt .empty
  | apply {s : ClusterState I} (m : ClusterMutation I) (hs : Reachable adopt s) :
      Reachable adopt (s.apply m).state
  | restore {s : ClusterState I} (snap : ClusterStateSnapshot I)
      (order : List (TaskHash × TaskState I)) (horder : order.Perm snap.taskEntries)
      (hs : Reachable adopt s) : Reachable adopt (s.restoreInOrder snap order).1
  | attachSpillSegment {s : ClusterState I} (hs : Reachable adopt s) :
      Reachable adopt s.attachSpillSegment
  -- The batch may have been collected in any state, not only in an earlier one of the run.
  | commitSpill {s t : ClusterState I} (n : ℕ) (hs : Reachable adopt s) (ht : Reachable adopt t) :
      Reachable adopt (s.commitSpill (writeSpillBatch (t.collectSpillBatch n)))
  | unsettle {s : ClusterState I} (hash : TaskHash) (key : TaskJoinKey) (hs : Reachable adopt s) :
      Reachable adopt (s.taskEntryUnsettling hash key).1
  | installSettledBase {s donor : ClusterState I} (hs : Reachable adopt s)
      (hdonor : Reachable adopt donor) (hadopt : adopt donor.settled)
      (hlegal : s.InstallLegal donor.settled) :
      Reachable adopt (s.installSettledBase donor.settled)

section Run

variable [RecordCodec I] [Identifier I] [DonePayloadCodec] {adopt : SettledStore I → Prop}

omit [DefaultHasher] [Identifier I] [DonePayloadCodec] in
/-- A codec that keeps the state keeps it for every record. -/
theorem readsKeep_of_keepsState (hcodec : KeepsState I) :
    s.ReadsKeep := fun _ entry read _ hread => hcodec entry.record read hread

/-- Every reachable state is consistent. -/
theorem Reachable.consistent (hcodec : KeepsState I) (hs : Reachable adopt s) : s.Consistent := by
  induction hs with
  | new => exact empty_consistent
  | apply m _ ih => exact ih.steps (readsKeep_of_keepsState hcodec) (apply_steps _ m)
  | restore snap order _ _ ih =>
      exact ih.steps (readsKeep_of_keepsState hcodec) (restoreInOrder_steps _ snap order)
  | attachSpillSegment _ ih =>
    exact ⟨ih.disjoint, ih.waiters_nodup, ih.mem_waiters, ih.tally,
      ⟨ih.settled.entries, ih.settled.acc⟩⟩
  | commitSpill n _ _ ih => exact ih.commitSpill writeSpillBatch_sound
  | unsettle hash key _ ih =>
      exact ih.steps (readsKeep_of_keepsState hcodec) (taskEntryUnsettling_steps _ hash key).steps
  | installSettledBase _ _ _ hlegal ih ihdonor => exact ih.installSettledBase hlegal ihdonor.settled

/-- **The derived indexes agree with a fresh scan in every reachable state**: the reverse
index lists exactly the tasks paused on a hash, the outcome tally is the one a scan of the
fat and settled entries computes, and no hash is both fat and settled. -/
theorem derived_indexes_agree_with_scan (hcodec : KeepsState I) {s : ClusterState I}
    (hs : Reachable (fun _ => True) s) :
    (∀ h, (waiters s.blockedBy h).Nodup ∧ ∀ x, x ∈ waiters s.blockedBy h ↔ s.PausedOn x h) ∧
      s.outcomeTally = s.outcomeCountsByScan ∧ ∀ h, h ∈ s.tasks → h ∉ s.settled.index := by
  have hcons := hs.consistent hcodec
  refine ⟨fun h => ⟨hcons.waiters_nodup h, hcons.mem_waiters h⟩, ?_, ?_⟩
  · apply ext_field
    intro b
    rw [outcomeCountsByScan_field]
    exact hcons.tally b
  · intro h hfat
    obtain ⟨st, hst⟩ := mem_iff_lookup.mp hfat
    exact AList.lookup_eq_none.mp (hcons.disjoint h st hst)

end Run

end ClusterState

namespace Sample

/-- The sample codec keeps the state. -/
theorem skippingCodec_keepsState : KeepsState I := by
  intro record read hread
  cases hread
  exact ⟨rfl, rfl⟩

/-- A node that has spilled the only task it completed. -/
def spilled : ClusterState String :=
  let s := (empty.attachSpillSegment.apply (.taskAdded "a" (task "a" []) none)).state
  let s := (s.apply (.taskCompleted "a" none 0)).state
  s.commitSpill (writeSpillBatch (s.collectSpillBatch 8))

/-- The sample with a spilled entry can be reached. -/
theorem spilled_reachable {adopt : SettledStore String → Prop} : Reachable adopt spilled := by
  have hdone : Reachable adopt ((empty.attachSpillSegment.apply
      (.taskAdded "a" (task "a" []) none)).state.apply (.taskCompleted "a" none 0)).state :=
    .apply _ (.apply _ (.attachSpillSegment .new))
  exact .commitSpill 8 hdone hdone

/-- A node that adopted the settled store of `spilled` as its base and went on. -/
def adopted : ClusterState String :=
  ((empty.installSettledBase spilled.settled).apply
    (.taskAdded "b" (task "b" ["a"]) none)).state

/-- The sample with an adopted store can be reached. -/
theorem adopted_reachable : Reachable (fun _ => True) adopted :=
  .apply _ (.installSettledBase .new spilled_reachable trivial ⟨rfl, fun _ _ h => by cases h⟩)

/-- The adopted entry is settled and counted, the new one is in memory. -/
theorem adopted_indexes_agree :
    "a" ∈ adopted.settled.index ∧ "b" ∈ adopted.tasks ∧ adopted.outcomeTally.succeeded = 1 ∧
      adopted.outcomeTally = adopted.outcomeCountsByScan ∧
      ∀ h, h ∈ adopted.tasks → h ∉ adopted.settled.index := by
  have hagree := derived_indexes_agree_with_scan skippingCodec_keepsState adopted_reachable
  exact ⟨by decide, by decide, by decide, hagree.2⟩

end Sample

end DynRunner
