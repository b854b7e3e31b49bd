import DynRunner.Ledger.ApplyRestore
import DynRunner.Lib.BucketSync
import DynRunner.Stream.Carry

/-!
# A stream that is delivered completely

The requester restores every package of a plan as it comes, and the responder's ledger stays as it
is. A package of task entries is a partial snapshot, so while no task is paused on either side its
restore keeps the greater join key for each task that it carries, and at the end every key of the
plan has been carried.
-/

namespace DynRunner

open ClusterState StreamCodec

variable {I : Type}

section Merging

variable [DefaultHasher]

/-- Merging entries that are not paused pauses nothing. -/
theorem Ledger.NonePaused.mergeAll {L : Ledger I} (hL : L.NonePaused)
    {order : List (TaskHash × TaskState I)} (horder : ∀ e ∈ order, e.2.waitsOn = none) :
    (L.mergeAll order).NonePaused := by
  induction order generalizing L with
  | nil => exact hL
  | cons e order ih =>
    obtain ⟨hhead, htail⟩ := List.forall_mem_cons.mp horder
    rw [mergeAll_cons]
    exact ih (hL.merge e.1 hhead) htail

namespace ClusterState

variable [RecordCodec I]

/-- Restoring a snapshot without paused entries pauses nothing. -/
theorem nonePaused_restoreInOrder {s : ClusterState I} (hs : s.Consistent) (hlegible : s.Legible)
    (hno : s.logical.NonePaused) {snap : ClusterStateSnapshot I} (hsnap : snap.ledger.NonePaused)
    {order : List (TaskHash × TaskState I)} (horder : order.Perm snap.taskEntries) :
    (s.restoreInOrder snap order).1.logical.NonePaused := by
  rw [logical_restoreInOrder hs hlegible]
  refine hno.mergeAll fun e he => ?_
  have henum := (snap.enumerates_iff).mpr horder
  exact hsnap.not_waits ((henum.mem e.1 e.2).mp he)

end ClusterState

end Merging

namespace SnapshotStreamPlan

variable [DefaultHasher] [RecordCodec I] [StreamCodec I]

/-- The requester has restored every package of the plan. The task map of a package may be visited
in any order. -/
inductive Delivered (budget : PackageBudget) (responder : ClusterState I) :
    SnapshotStreamPlan → ClusterState I → ClusterState I → Prop
  | complete {plan : SnapshotStreamPlan} {s : ClusterState I} (hcomplete : plan.complete = true) :
      Delivered budget responder plan s s
  | package {plan plan' : SnapshotStreamPlan} {p : StreamPackage I} {snap : ClusterStateSnapshot I}
      {order : List (TaskHash × TaskState I)} {s s' : ClusterState I}
      (hnext : plan.nextPackage budget responder = (plan', some (.ok p)))
      (hdecode : decodeStreamPayload p.payload = .ok snap)
      (horder : order.Perm snap.taskEntries)
      (hrest : Delivered budget responder plan' (s.restoreInOrder snap order).1 s') :
      Delivered budget responder plan s s'

/-- The same as a computation, for at most so many packages. -/
def deliverAll (budget : PackageBudget) (responder : ClusterState I) :
    ℕ → SnapshotStreamPlan → ClusterState I → Option (ClusterState I)
  | 0, plan, s => if plan.complete then some s else none
  | packages + 1, plan, s =>
    if plan.complete then some s
    else match plan.nextPackage budget responder with
      | (plan', some (.ok p)) =>
        match decodeStreamPayload p.payload with
        | .ok snap => deliverAll budget responder packages plan' (s.restore snap)
        | .error _ => none
      | _ => none

variable {plan : SnapshotStreamPlan} {s s' : ClusterState I} {adopt : SettledStore I → Prop}

/-- What all packages of a plan deliver. -/
theorem delivered_of_deliverAll {budget : PackageBudget} {responder : ClusterState I} (packages : ℕ)
    (h : deliverAll budget responder packages plan s = some s') :
    Delivered budget responder plan s s' := by
  induction packages generalizing plan s with
  | zero =>
    rw [deliverAll] at h
    split_ifs at h with hcomplete
    cases h
    exact .complete hcomplete
  | succ packages ih =>
    rw [deliverAll] at h
    split_ifs at h with hcomplete
    · cases h
      exact .complete hcomplete
    · split at h
      · rename_i plan' p hnext
        split at h
        · rename_i snap hdecode
          exact .package hnext hdecode (.refl _) (ih h)
        · cases h
      · cases h

variable [Identifier I] [DonePayloadCodec] {budget : PackageBudget} {responder : ClusterState I}

/-- What a node holds after a delivery is reached by restores. -/
theorem Delivered.reachable (h : Delivered budget responder plan s s')
    (hs : Reachable adopt s) : Reachable adopt s' := by
  induction h with
  | complete => exact hs
  | package _ _ horder _ ih => exact ih (.restore _ _ horder hs)

omit [DefaultHasher] [Identifier I] [DonePayloadCodec] in
/-- What a package carries: of the keys that are left, some with the responder's entries, and no
other entry. -/
theorem Built.ledger (hstream : RoundTrips I) {plan' : SnapshotStreamPlan}
    {p : StreamPackage I} {snap : ClusterStateSnapshot I} (h : Built responder plan p plan')
    (hdecode : decodeStreamPayload p.payload = .ok snap) : ∃ taken : List TaskHash,
      (∀ k, k ∈ plan.rest ↔ k ∈ taken ∨ k ∈ plan'.rest) ∧
        ∀ k, snap.ledger k = if k ∈ taken then responder.logical k else none := by
  cases h with
  | head _ hpayload =>
    rw [hstream _ _ hpayload] at hdecode
    cases hdecode
    exact ⟨[], fun k => by simp [rest], fun k => by simp; rfl⟩
  | batch taken others snap' hkeys hpayload htasks =>
    rw [hstream _ _ hpayload] at hdecode
    cases hdecode
    have hdrop : plan.keys.drop (plan.pos + taken.length) = others := by
      rw [← List.drop_drop, hkeys, List.drop_left]
    refine ⟨taken, fun k => ?_, fun k => ?_⟩
    · change k ∈ plan.keys.drop plan.pos ↔ _ ∨ k ∈ plan.keys.drop (plan.pos + taken.length)
      rw [hkeys, hdrop, List.mem_append]
    · rw [ClusterStateSnapshot.ledger, htasks k, responder.map_streamEntry]
  | tail tallies _ _ hpayload =>
    rw [hstream _ _ hpayload] at hdecode
    cases hdecode
    exact ⟨[], fun k => by simp [rest], fun k => by simp; rfl⟩

/-- **A complete delivery keeps the greater join key of every task of the plan**, and leaves the
other tasks. -/
theorem Delivered.joinKeyOf (hcodec : RecordCodec.RoundTrips I) (hstream : RoundTrips I)
    (hresponder : Reachable adopt responder) (hpaused : responder.logical.NonePaused)
    (h : Delivered budget responder plan s s') (hs : Reachable adopt s)
    (hno : s.logical.NonePaused) : s'.logical.NonePaused ∧
      (∀ k ∈ plan.rest, s'.joinKeyOf k = max (s.joinKeyOf k) (responder.joinKeyOf k)) ∧
      ∀ k ∉ plan.rest, s'.joinKeyOf k = s.joinKeyOf k := by
  have hlegible := fun u : ClusterState I => legible_of_roundTrips hcodec u
  induction h with
  | @complete plan s hcomplete =>
    have hempty := rest_eq_empty (length_le_of_complete hcomplete)
    refine ⟨hno, fun k hk => ?_, fun k _ => rfl⟩
    rw [hempty] at hk
    exact hk.elim
  | @package plan plan' p snap order s s' hnext hdecode horder _ ih =>
    obtain ⟨taken, hrest, hledger⟩ := (nextPackage_built hnext).ledger hstream hdecode
    have hcons := hs.consistent hcodec.keepsState
    have hsnap : snap.ledger.NonePaused := by
      rintro x y ⟨st, hst, hwaits⟩
      rw [hledger] at hst
      split_ifs at hst
      exact hpaused x y ⟨st, hst, hwaits⟩
    have hkey : ∀ k, snap.ledger.keyOf k = if k ∈ taken then responder.joinKeyOf k else none := by
      intro k
      rw [Ledger.keyOf, hledger]
      split_ifs
      · exact (joinKeyOf_eq (hresponder.consistent hcodec.keepsState) (hlegible responder) k).symm
      · rfl
    have hrestored := joinKeyOf_restoreInOrder hcons (hlegible s) hno hsnap horder
    obtain ⟨hlast, hpulled, hother⟩ := ih (.restore snap order horder hs)
      (nonePaused_restoreInOrder hcons (hlegible s) hno hsnap horder)
    -- A key of this package may come again later; its maximum is then taken twice.
    have hnow : ∀ k, (s.restoreInOrder snap order).1.joinKeyOf k = if k ∈ taken then
        max (s.joinKeyOf k) (responder.joinKeyOf k) else s.joinKeyOf k := by
      intro k
      rw [hrestored, hkey]
      split_ifs
      · rfl
      · exact Option.max_none_right
    refine ⟨hlast, fun k hk => ?_, fun k hk => ?_⟩
    · by_cases hlater : k ∈ plan'.rest
      · rw [hpulled k hlater, hnow]
        split_ifs
        · exact BucketSync.max_absorbs_left _ _
        · rfl
      · rw [hother k hlater, hnow, if_pos (((hrest k).mp hk).resolve_right hlater)]
    · rw [hrest, not_or] at hk
      rw [hother k hk.2, hnow, if_neg hk.1]

end SnapshotStreamPlan

end DynRunner
