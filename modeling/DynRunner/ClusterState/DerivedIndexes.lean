import DynRunner.ClusterState.Write

/-!
# Delta updates of the derived indexes

The reverse index of paused tasks and the outcome tally are never rebuilt: each write
moves the written hash from its old set and bucket to the new ones. This file says what
one such move does to a set and to a bucket, and what a tally rebuilt from scratch counts.
-/

namespace DynRunner

open HashMap

variable {I : Type}

/-- The set of tasks the reverse index lists under a prerequisite. -/
def waiters (index : HashMap TaskHash (List TaskHash)) (on : TaskHash) : List TaskHash :=
  (index.lookup on).getD []

variable {index : HashMap TaskHash (List TaskHash)} {hash : TaskHash}
  {on oldOn newOn : Option TaskHash}

/-- Removing a waiter concerns its own prerequisite. -/
theorem waiters_removeBlocked (h : TaskHash) : waiters (removeBlocked index hash on) h =
      if on = some h then (waiters index h).filter (· ≠ hash) else waiters index h := by
  cases on with
  | none => simp [removeBlocked]
  | some on =>
    by_cases hon : on = h
    · subst hon
      rw [if_pos rfl, removeBlocked]
      cases hset : index.lookup on with
      | none => simp [waiters, hset]
      | some set =>
        dsimp only
        split
        · rename_i hempty
          simp only [waiters, lookup_erase_eq, hset, if_true, Option.getD_none, Option.getD_some]
          exact (List.isEmpty_iff.mp hempty).symm
        · simp [waiters, hset]
    · have hne : ¬h = on := fun h' => hon h'.symm
      rw [if_neg (by simpa using hon), removeBlocked]
      cases hset : index.lookup on with
      | none => rfl
      | some =>
        simp only [waiters]
        split
        · rw [lookup_erase_eq, if_neg hne]
        · rw [lookup_insert_eq, if_neg hne]

/-- Adding a waiter concerns its own prerequisite. -/
theorem waiters_addBlocked (h : TaskHash) : waiters (addBlocked index hash on) h =
      if on = some h then (waiters index h).insert hash else waiters index h := by
  cases on with
  | none => simp [addBlocked]
  | some on =>
    by_cases hon : on = h
    · subst hon
      simp [waiters, addBlocked]
    · simp [waiters, addBlocked, hon, Ne.symm hon]

/-- After a move the written hash is listed under its new prerequisite only, and every
other hash where it was. -/
theorem mem_waiters_reindexBlocked
    (hold : ∀ h, hash ∈ waiters index h ↔ oldOn = some h) {x : TaskHash} (h : TaskHash) :
    x ∈ waiters (reindexBlocked index hash oldOn newOn) h ↔
      (x ≠ hash ∧ x ∈ waiters index h) ∨ (x = hash ∧ newOn = some h) := by
  have hkept : x ∈ waiters index h ↔
      (x ≠ hash ∧ x ∈ waiters index h) ∨ (x = hash ∧ oldOn = some h) := by
    by_cases hx : x = hash
    · simp [hx, hold h]
    · simp [hx]
  have hremoved : x ∈ waiters (removeBlocked index hash oldOn) h ↔
      x ≠ hash ∧ x ∈ waiters index h := by
    rw [waiters_removeBlocked]
    split
    · simp [and_comm]
    · rename_i hne
      rw [hkept]
      simp [hne]
  unfold reindexBlocked
  split
  · rename_i hsame
    rw [← hsame]
    exact hkept
  · rw [waiters_addBlocked]
    split
    · rename_i hnew
      rw [List.mem_insert_iff, hremoved]
      simp [hnew, or_comm]
    · rename_i hnew
      rw [hremoved]
      simp [hnew]

/-- A move keeps the sets free of duplicates. -/
theorem nodup_waiters_reindexBlocked (hnodup : ∀ h, (waiters index h).Nodup)
    (h : TaskHash) : (waiters (reindexBlocked index hash oldOn newOn) h).Nodup := by
  have hremoved : (waiters (removeBlocked index hash oldOn) h).Nodup := by
    rw [waiters_removeBlocked]
    split
    · exact (hnodup h).filter _
    · exact hnodup h
  unfold reindexBlocked
  split
  · exact hnodup h
  · rw [waiters_addBlocked]
    split
    · exact hremoved.insert
    · exact hremoved

namespace OutcomeSummary

variable {t : OutcomeSummary} {b : OutcomeBucket}

/-- One counter of the tally changes. -/
theorem field_fieldMut {f : ℕ → ℕ} {c : OutcomeBucket} :
    (t.fieldMut f b).field c = if c = b then f (t.field c) else t.field c := by
  cases b <;> cases c <;> rfl

/-- One move between buckets, read bucket by bucket. -/
theorem field_swap {old new : Option OutcomeBucket} : (t.swap old new).field b =
      t.field b - (if old = some b then 1 else 0) + if new = some b then 1 else 0 := by
  have hdown : ∀ o : OutcomeBucket, (t.fieldMut (· - 1) o).field b =
      t.field b - if some o = some b then 1 else 0 := by
    intro o
    rw [field_fieldMut]
    by_cases ho : o = b
    · simp [ho]
    · simp [ho, Ne.symm ho]
  have hup : ∀ (u : OutcomeSummary) (n : OutcomeBucket), (u.fieldMut (· + 1) n).field b =
      u.field b + if some n = some b then 1 else 0 := by
    intro u n
    rw [field_fieldMut]
    by_cases hn : n = b
    · simp [hn]
    · simp [hn, Ne.symm hn]
  cases old <;> cases new <;> simp only [swap, hdown, hup, reduceCtorEq, if_false, Nat.sub_zero,
    Nat.add_zero]

/-- A summary is its counts. -/
theorem ext_field {u : OutcomeSummary} (h : ∀ b, t.field b = u.field b) : t = u := by
  obtain ⟨a, b, c, d, e, f⟩ := t
  obtain ⟨a', b', c', d', e', f'⟩ := u
  have h1 : a = a' := h .succeeded
  have h2 : b = b' := h .failRetry
  have h3 : c = c' := h .failOom
  have h4 : d = d' := h .failFinal
  have h5 : e = e' := h .skipped
  have h6 : f = f' := h .setupSucceeded
  subst h1 h2 h3 h4 h5 h6
  rfl

/-- Counting entries in one after the other counts each bucket. -/
theorem field_foldl_swap {α : Type} {bucket : α → Option OutcomeBucket} {l : List α} :
    (l.foldl (fun t a => t.swap none (bucket a)) t).field b =
      t.field b + l.countP fun a => bucket a = some b := by
  induction l generalizing t with
  | nil => rfl
  | cons a l ih =>
    rw [List.foldl_cons, ih, field_swap, List.countP_cons]
    simp only [reduceCtorEq, if_false, Nat.sub_zero, decide_eq_true_eq]
    omega

end OutcomeSummary

namespace ClusterState

/-- `outcome_counts_by_scan`: the outcome summary computed from scratch. -/
def outcomeCountsByScan (s : ClusterState I) : OutcomeSummary :=
  let tally := s.tasks.entries.foldl (fun tally e => tally.swap none (outcomeBucketOf e.2.status))
    ⟨0, 0, 0, 0, 0, 0⟩
  s.settled.index.entries.foldl
    (fun tally e => tally.swap none (some (settledBucketOf e.2.settledClass))) tally

/-- Whether a fat entry counts for a bucket. -/
def inBucket (b : OutcomeBucket) (_ : TaskHash) (st : TaskState I) : Bool :=
  outcomeBucketOf st.status = some b

/-- Whether a settled entry counts for a bucket. -/
def settledInBucket (b : OutcomeBucket) (_ : TaskHash) (e : SettledEntry I) : Bool :=
  settledBucketOf e.settledClass = b

/-- The scan counts, for each bucket, its fat and its settled entries. -/
theorem outcomeCountsByScan_field {s : ClusterState I} {b : OutcomeBucket} :
    s.outcomeCountsByScan.field b =
      count (inBucket b) s.tasks + count (settledInBucket b) s.settled.index := by
  rw [outcomeCountsByScan, OutcomeSummary.field_foldl_swap, OutcomeSummary.field_foldl_swap]
  simp only [Option.some.injEq, count, inBucket, settledInBucket]
  have hzero : OutcomeSummary.field ⟨0, 0, 0, 0, 0, 0⟩ b = 0 := by cases b <;> rfl
  rw [hzero, Nat.zero_add]

end ClusterState

end DynRunner
