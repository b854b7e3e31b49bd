import DynRunner.Digest.Compute
import DynRunner.Ledger.RestoreConflict

/-!
# Applying reports and restoring their result

A node that applies outcome reports moves the join keys of its tasks up. A node that restores
its snapshot takes the greater of two keys for every entry that the snapshot carries. A settled
entry is not in the snapshot, but a report that left it settled has not changed it either. So
while nothing is paused both ways lead to the same keys.
-/

namespace DynRunner

open List

variable {I : Type}

section Agreement

variable [DefaultHasher]

namespace Ledger

variable {S L : Ledger I} {st : TaskState I} {x : TaskHash}

omit [DefaultHasher] in
/-- Nothing waits if nothing is paused. -/
theorem NonePaused.not_waits (hS : S.NonePaused) (hst : S x = some st) : st.waitsOn = none := by
  cases hon : st.waitsOn with
  | none => rfl
  | some on => exact (hS x on ⟨st, hst, hon⟩).elim

variable (hL : L.NonePaused)
include hL

/-- A merge of an entry that does not wait pauses nothing. -/
theorem NonePaused.merge (h : TaskHash) (hst : st.waitsOn = none) : (L.merge h st).NonePaused := by
  obtain ⟨hput, hkeep⟩ := merge_of_nonePaused hL h st hst
  by_cases hwins : L.Wins h st
  · rw [hput hwins]
    exact hL.put h hst
  · rw [hkeep hwins]
    exact hL

/-- While nothing is paused a merge keeps the greater key of its task. -/
theorem keyOf_merge (h : TaskHash) (hst : st.waitsOn = none) :
    (L.merge h st).keyOf x = if x = h then max (L.keyOf x) (some (taskJoinKey st))
      else L.keyOf x := by
  obtain ⟨hput, hkeep⟩ := merge_of_nonePaused hL h st hst
  by_cases hx : x = h
  · subst hx
    rw [if_pos rfl]
    by_cases hwins : L.Wins x st
    · rw [hput hwins, keyOf, put_same, keyOf]
      cases hold : L x with
      | none => simp
      | some old => simp [max_eq_right (hwins old hold).le]
    · rw [hkeep hwins]
      obtain ⟨old, hold, hle⟩ : ∃ old, L x = some old ∧ taskJoinKey st ≤ taskJoinKey old := by
        simpa [Wins] using hwins
      rw [keyOf, hold, Option.map_some, Option.max_some_some, max_eq_left hle]
  · rw [if_neg hx]
    by_cases hwins : L.Wins h st
    · rw [hput hwins, keyOf, put_of_ne hx, keyOf]
    · rw [hkeep hwins]

/-- While nothing is paused, merging the entries of a ledger in any order leaves each task with
the greater of its two keys. -/
theorem keyOf_mergeAll (hS : S.NonePaused)
    {order : List (TaskHash × TaskState I)} (horder : Enumerates S order) :
    (L.mergeAll order).keyOf x = max (L.keyOf x) (S.keyOf x) := by
  -- The induction visits entries of `S`; what it has not visited keeps its key.
  have hvisit : ∀ (l : List (TaskHash × TaskState I)) (M : Ledger I), M.NonePaused →
      (∀ e ∈ l, S e.1 = some e.2) → (l.map Prod.fst).Nodup →
      (M.mergeAll l).keyOf x =
        if x ∈ l.map Prod.fst then max (M.keyOf x) (S.keyOf x) else M.keyOf x := by
    intro l
    induction l with
    | nil => intro M _ _ _; rfl
    | cons e l ih =>
      intro M hM hl hnodup
      have hst := hS.not_waits (hl e mem_cons_self)
      obtain ⟨hfresh, hnodup⟩ := nodup_cons.mp hnodup
      rw [mergeAll_cons, ih _ (hM.merge e.1 hst) (fun e' he' => hl e' (mem_cons_of_mem e he'))
        hnodup, keyOf_merge hM e.1 hst]
      by_cases hx : x = e.1
      · subst hx
        simp [hfresh, keyOf, hl e mem_cons_self]
      · simp only [hx, if_false, map_cons, mem_cons, false_or]
  rw [hvisit order L hL (fun e he => (horder.mem e.1 e.2).mp he) horder.nodup]
  split
  · rfl
  · rename_i hx
    cases hst : S x with
    | none => simp [keyOf, hst]
    | some st => exact (hx (mem_map.mpr ⟨(x, st), (horder.mem x st).mpr hst, rfl⟩)).elim

end Ledger

namespace ClusterState

variable [RecordCodec I]

variable {s : ClusterState I} {order : List (TaskHash × TaskState I)}
  {ms : List (ClusterMutation I)}

/-- A state without paused tasks has a ledger without paused tasks. -/
theorem nonePaused_logical (hs : s.Consistent) (hlegible : s.Legible)
    (hno : ∀ x on, ¬s.PausedOn x on) : s.logical.NonePaused := fun x y hw =>
  hno x y ((Ledger.waits_overlay (hs.archive_waitsOn hlegible.keeps) x y).mp hw)

/-- A restore leaves each task with the greater of its key and the key in the snapshot. -/
theorem joinKeyOf_restoreInOrder (hs : s.Consistent) (hlegible : s.Legible)
    (hno : s.logical.NonePaused) {snap : ClusterStateSnapshot I} (hsnap : snap.ledger.NonePaused)
    (horder : order.Perm snap.taskEntries) (h : TaskHash) :
    (s.restoreInOrder snap order).1.joinKeyOf h = max (s.joinKeyOf h) (snap.ledger.keyOf h) := by
  have hsteps := restoreInOrder_steps s snap order
  rw [joinKeyOf_eq (hs.steps hlegible.keeps hsteps) (hlegible.steps hsteps),
    logical_restoreInOrder hs hlegible, joinKeyOf_eq hs hlegible]
  exact Ledger.keyOf_mergeAll hno hsnap ((snap.enumerates_iff).mpr horder)

/-- `t` holds what a node with the state `s` holds after outcome reports: no task is paused, no
key is smaller, and a task that is not in memory is settled as it was. -/
structure ReportedFrom (s t : ClusterState I) : Prop where
  consistent : t.Consistent
  legible : t.Legible
  nonePaused : t.logical.NonePaused
  keys : ∀ h, max (s.joinKeyOf h) (t.joinKeyOf h) = t.joinKeyOf h
  unreported : ∀ h, t.tasks.lookup h = none → t.joinKeyOf h = s.joinKeyOf h

/-- Restoring the snapshot of one node into another that has its origin in common takes the
greater of their keys, for the tasks that the snapshot leaves out as well. -/
theorem joinKeyOf_restore_snapshot {t u : ClusterState I} (ht : ReportedFrom s t)
    (hu : ReportedFrom s u) (horder : order.Perm u.snapshot.taskEntries) (h : TaskHash) :
    (t.restoreInOrder u.snapshot order).1.joinKeyOf h = max (t.joinKeyOf h) (u.joinKeyOf h) := by
  have hfat : u.snapshot.ledger.NonePaused := by
    rintro x y ⟨st, hst, hon⟩
    exact hu.nonePaused x y ⟨st, logical_of_fat hst, hon⟩
  rw [joinKeyOf_restoreInOrder ht.consistent ht.legible ht.nonePaused hfat horder]
  cases hst : u.tasks.lookup h with
  | some =>
    have hkey : u.snapshot.ledger.keyOf h = u.joinKeyOf h := by
      change (u.tasks.lookup h).map taskJoinKey = u.joinKeyOf h
      rw [joinKeyOf, hst]
      rfl
    rw [hkey]
  | none =>
    have hkey : u.snapshot.ledger.keyOf h = none := by
      change (u.tasks.lookup h).map taskJoinKey = none
      rw [hst]
      rfl
    rw [hkey, Option.max_none_right, hu.unreported h hst, ← ht.keys h]
    cases s.joinKeyOf h <;> cases t.joinKeyOf h <;> simp

variable [Identifier I] [DonePayloadCodec]

/-- Several mutations take steps of the ledger. -/
theorem applyAll_steps (s : ClusterState I) (ms : List (ClusterMutation I)) :
    LedgerSteps s (s.applyAll ms) := by
  induction ms generalizing s with
  | nil => exact .refl
  | cons m ms ih => exact (apply_steps s m).trans (ih (s.apply m).state)

/-- Outcome reports pause nothing. -/
theorem nonePaused_applyAll (hs : s.Consistent) (hlegible : s.Legible) (hno : s.logical.NonePaused)
    (hms : ∀ m ∈ ms, m.candidate.isSome) : (s.applyAll ms).logical.NonePaused := by
  induction ms generalizing s with
  | nil => exact hno
  | cons m ms ih =>
    obtain ⟨⟨hash, status, attempt⟩, hm⟩ := Option.isSome_iff_exists.mp (hms m mem_cons_self)
    have hsteps := apply_steps s m
    refine ih (s := (s.apply m).state) (hs.steps hlegible.keeps hsteps) (hlegible.steps hsteps) ?_
      fun m' hm' => hms m' (mem_cons_of_mem m hm')
    rw [logical_apply_candidate hs hlegible hm]
    exact hno.offer hash (ClusterMutation.candidate_ne hm).1 attempt

/-- After any candidates the ledger reports what it was offered. -/
theorem reportedFrom_applyAll (hs : s.Consistent) (hlegible : s.Legible)
    (hno : s.logical.NonePaused)
    (hms : ∀ m ∈ ms, m.candidate.isSome) : ReportedFrom s (s.applyAll ms) := by
  have hsteps := applyAll_steps s ms
  have hkeys : ∀ h, (s.applyAll ms).joinKeyOf h =
      (s.joinKeyOf h).map fun k => (candidateKeys h ms).foldl max k := by
    intro h
    rw [keyOf_applyAll hs hlegible hno hms h, joinKeyOf_eq hs hlegible]
  refine ⟨hs.steps hlegible.keeps hsteps, hlegible.steps hsteps,
    nonePaused_applyAll hs hlegible hno hms, fun h => ?_, fun h hfat => ?_⟩
  · rw [hkeys]
    cases s.joinKeyOf h with
    | none => rfl
    | some k =>
      have hle : k ≤ (candidateKeys h ms).foldl max k := (foldl_max_le_iff.mp le_rfl).1
      rw [Option.map_some, Option.max_some_some, max_eq_right hle]
  · cases hentry : (s.applyAll ms).settled.index.lookup h with
    | none =>
      -- A task that is not there has no key, and a report adds no task.
      have hnone : (s.applyAll ms).joinKeyOf h = none := by
        rw [joinKeyOf, settledEntry, hfat, hentry]
        rfl
      rw [hnone]
      rw [hkeys, Option.map_eq_none_iff] at hnone
      exact hnone.symm
    | some =>
      have hbefore := hsteps.settled_lookup hentry
      have hfat' : s.tasks.lookup h = none := by
        cases hst : s.tasks.lookup h with
        | none => rfl
        | some st =>
          rw [hs.disjoint h st hst] at hbefore
          cases hbefore
      rw [joinKeyOf, joinKeyOf, settledEntry, settledEntry, hfat, hfat', hentry, hbefore]

/-- **Applying reports and restoring their result agree.** Let `s` hold no paused task. Restoring
the snapshot of a node that has applied outcome reports to `s` into `s` itself gives that node's
join key for every task. When two nodes have applied outcome reports to `s` and each restores the
other's snapshot, their task digests are equal. -/
theorem apply_and_restore_agree {s : ClusterState I} (hs : s.Consistent) (hlegible : s.Legible)
    (hno : ∀ x on, ¬s.PausedOn x on) (ms ms' : List (ClusterMutation I))
    (hms : ∀ m ∈ ms, m.candidate.isSome) (hms' : ∀ m ∈ ms', m.candidate.isSome) :
    (∀ order, order.Perm (s.applyAll ms).snapshot.taskEntries → ∀ h,
      (s.restoreInOrder (s.applyAll ms).snapshot order).1.joinKeyOf h =
        (s.applyAll ms).joinKeyOf h) ∧
    ∀ order order', order.Perm (s.applyAll ms').snapshot.taskEntries →
      order'.Perm (s.applyAll ms).snapshot.taskEntries → ∀ other other',
      (((s.applyAll ms).restoreInOrder (s.applyAll ms').snapshot order).1.digest other).tasks =
        (((s.applyAll ms').restoreInOrder (s.applyAll ms).snapshot order').1.digest
          other').tasks := by
  have hpaused := nonePaused_logical hs hlegible hno
  have hnone : ∀ m ∈ ([] : List (ClusterMutation I)), m.candidate.isSome = true := by simp
  have hself : ReportedFrom s s := reportedFrom_applyAll hs hlegible hpaused hnone
  have hone := reportedFrom_applyAll hs hlegible hpaused hms
  have htwo := reportedFrom_applyAll hs hlegible hpaused hms'
  constructor
  · intro order horder h
    rw [joinKeyOf_restore_snapshot hself hone horder, hone.keys]
  · intro order order' horder horder' other other'
    have hafter : ∀ {t : ClusterState I}, ReportedFrom s t → ∀ snap order,
        (t.restoreInOrder snap order).1.Consistent := fun ht snap order =>
      ht.consistent.steps ht.legible.keeps (restoreInOrder_steps _ snap order)
    refine digest_tasks_congr (hafter hone _ order) (hafter htwo _ order') (fun h => ?_)
    rw [joinKeyOf_restore_snapshot hone htwo horder, joinKeyOf_restore_snapshot htwo hone horder']
    cases (s.applyAll ms).joinKeyOf h <;> cases (s.applyAll ms').joinKeyOf h <;> simp [max_comm]

end ClusterState

end Agreement

namespace Sample

/-- A node that has assigned the task of `oneTask`. -/
def assignedTask : ClusterState String := oneTask.applyAll [.taskAssigned "a" "s1" 3 ⟨1, 1⟩ 0]

/-- A node that has heard that the task of `oneTask` failed. -/
def failedTask : ClusterState String :=
  oneTask.applyAll [.taskFailed "a" .nonRecoverable "exit 1" ⟨1, 2⟩ 0]

/-- A restore of the assignment gives its key. The two nodes have different task digests, and
equal ones after they have exchanged their snapshots. -/
theorem assignment_and_failure_exchanged :
    (oneTask.restoreInOrder assignedTask.snapshot assignedTask.snapshot.taskEntries).1.joinKeyOf
        "a" = some (keyInFlight 0 ⟨1, 1⟩) ∧
      (assignedTask.digest noOthers).tasks ≠ (failedTask.digest noOthers).tasks ∧
      ((assignedTask.restoreInOrder failedTask.snapshot
          failedTask.snapshot.taskEntries).1.digest noOthers).tasks =
        ((failedTask.restoreInOrder assignedTask.snapshot
          assignedTask.snapshot.taskEntries).1.digest noOthers).tasks := by
  have h := ClusterState.apply_and_restore_agree oneTask_consistent
    (ClusterState.legible_of_roundTrips skippingCodec_roundTrips oneTask) oneTask_not_pausedOn
    [.taskAssigned "a" "s1" 3 ⟨1, 1⟩ 0] [.taskFailed "a" .nonRecoverable "exit 1" ⟨1, 2⟩ 0]
    (by decide) (by decide)
  refine ⟨?_, by decide, h.2 _ _ (.refl _) (.refl _) noOthers noOthers⟩
  rw [assignedTask, h.1 _ (.refl _) "a"]
  decide

end Sample

end DynRunner
