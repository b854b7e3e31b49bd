import DynRunner.Ledger.Refinement

/-!
# Spills on the logical ledger

Committing a spill replaces an entry in memory by the record that was written for it. The record
was captured earlier, so it may carry an older routing; its key is the key of the entry.
-/

namespace DynRunner

variable {I : Type}

/-- Only an entry that may settle has a settled class. -/
theorem settleEligible_of_settledClassOf {status : TaskStatus} {c : SettledClass}
    (h : settledClassOf status = some c) : settleEligible status = true := by
  cases status with
  | failed =>
    rw [settledClassOf] at h
    split_ifs at h with hretry
    rw [settleEligible, Bool.eq_false_iff.mpr hretry]
    rfl
  | completed => rfl
  | skippedAlreadyDone => rfl
  | setupCompleted => rfl
  | invalidTask => rfl
  | _ => cases h

namespace ClusterState

variable [DefaultHasher] [RecordCodec I]

variable {w : WrittenRecord I} {s : ClusterState I}

omit [RecordCodec I] in
/-- A written record either finds its entry unchanged and evicts it, or is dropped. -/
theorem commitRecord_cases (s : ClusterState I) :
    s.commitRecord w = s ∨ ∃ state c, s.tasks.lookup w.hash = some state ∧
      taskJoinKey state = w.joinKey ∧ settledClassOf state.status = some c ∧
      s.commitRecord w = s.settle w.hash (s.settledEntryOf w state c) := by
  unfold commitRecord
  cases hst : s.tasks.lookup w.hash with
  | none => exact .inl rfl
  | some state =>
    dsimp only
    by_cases hkey : taskJoinKey state = w.joinKey
    · rw [if_neg (not_not.mpr hkey)]
      cases hclass : settledClassOf state.status with
      | none => exact .inl rfl
      | some c => exact .inr ⟨state, c, rfl, hkey, hclass, rfl⟩
    · rw [if_pos hkey]
      exact .inl rfl

omit [DefaultHasher] in
/-- An evicted entry is the one that its record reads back as. -/
theorem logical_settle {h : TaskHash} {entry : SettledEntry I}
    {read : SettledRecord I} (hread : RecordCodec.readBack entry.record = some read) :
    (s.settle h entry).logical = s.logical.put h read.state := by
  have hfat : ∀ x, (s.settle h entry).fat x = if x = h then none else s.fat x :=
    fun x => HashMap.lookup_erase_eq
  have hindex : ∀ x, (s.settle h entry).settled.index.lookup x =
      if x = h then some entry else s.settled.index.lookup x :=
    fun x => HashMap.lookup_insert_eq
  funext x
  by_cases hx : x = h
  · subst hx
    rw [logical_of_archive ((hfat x).trans (if_pos rfl)),
      archive_of_entry ((hindex x).trans (if_pos rfl)) hread, Ledger.put_same]
  · have harchive : (s.settle h entry).archive x = s.archive x := by
      simp only [archive, settledRecord, settledEntry, hindex, if_neg hx]
    rw [Ledger.put_of_ne hx, logical, logical, Ledger.overlay, Ledger.overlay, hfat, if_neg hx,
      harchive]

/-- What a written record does to the logical ledger. -/
theorem logical_commitRecord (hcodec : RecordCodec.RoundTrips I) :
    s.commitRecord w = s ∨ ∃ state c path, s.fat w.hash = some state ∧
      taskJoinKey state = w.joinKey ∧ settledClassOf state.status = some c ∧
      (s.commitRecord w).logical = s.logical.put w.hash { w.record.state with routing :=
        { w.record.state.routing with resolvedPath := path } } := by
  rcases s.commitRecord_cases with hsame | ⟨state, c, hst, hkey, hclass, heq⟩
  · exact .inl hsame
  · obtain ⟨read, hread, -, -, hstate⟩ := hcodec w.record
    refine .inr ⟨state, c, read.state.routing.resolvedPath, hst, hkey, hclass, ?_⟩
    have hentry : RecordCodec.readBack (s.settledEntryOf w state c).record = some read := hread
    rw [heq, logical_settle hentry, ← hstate]

end ClusterState

end DynRunner
