import DynRunner.Pool.Outcomes
import DynRunner.Pool.ConsistentRuns

/-!
# No work is left in a closed phase

Nothing of a drained or done phase is dispatched, so an item queued there would never run. A phase
is closed only when its queue holds nothing that counts. Of the operations that queue an item, only
the reinjection of a task opens a closed phase again. The others must not be used to queue an item
there, and the results are about runs that keep to this.
-/

namespace DynRunner

open List

namespace PendingPool

variable {I : Type} {pool pool' : PendingPool I} {pushed : List (TaskInfo I)}

/-- An operation that queues an item does so in a phase that is not closed, and a phase is closed
from outside only when nothing is queued in it. -/
def OpensFirst (pool : PendingPool I) : PoolOperation I → Prop
  | .markPhaseDone phaseId => pool.phaseState.lookup phaseId = some .drained
  | .seedCompletedPhases phases => ∀ p ∈ phases, pool.queuedCount p = 0
  | .reinject item => ∀ other ∈ pool.queuedAgain item.taskId, pool.IsBlocked other →
      other.kind.countsForPhaseDrain = true → ¬ pool.Closed other.phaseId
  | .updateFirstMatchInPlace _ update => ∀ item, (update item).phaseId = item.phaseId ∧
      (update item).kind.countsForPhaseDrain = item.kind.countsForPhaseDrain
  | operation => ∀ item ∈ pool.queuedBy operation,
      item.kind.countsForPhaseDrain = true → ¬ pool.Closed item.phaseId

/-- Every queued item is in a bucket of its phase, and no item that counts is queued in a closed
phase. -/
structure Unstranded (pool : PendingPool I) : Prop where
  filed : ∀ p, ∀ item ∈ pool.queuedIn p, item.phaseId = p
  empty : ∀ p, pool.Closed p → pool.queuedCount p = 0

section Step

variable {item item' : TaskInfo I} {pred : TaskInfo I → Bool} {update : TaskInfo I → TaskInfo I}
  {operation : PoolOperation I}

variable (h : pool.Unstranded)
include h

/-- An item that counts and is queued keeps its phase open. -/
theorem Unstranded.not_closed (hitem : item ∈ pool.queued)
    (hcounts : item.kind.countsForPhaseDrain = true) : ¬ pool.Closed item.phaseId := by
  obtain ⟨p, hqueued⟩ := mem_queued_iff.mp hitem
  intro hclosed
  rw [h.filed _ item hqueued] at hclosed
  have hnone := queuedCount_eq_zero.mp (h.empty _ hclosed) item hqueued
  rw [hcounts] at hnone
  cases hnone

/-- Moving items. -/
theorem Unstranded.prepares (hprepares : pool.Prepares pushed pool')
    (hpushed : ∀ item ∈ pushed, item.kind.countsForPhaseDrain = true →
      ¬ pool.Closed item.phaseId) : pool'.Unstranded where
  filed := fun p item hitem => by
    rcases hprepares.queue p item hitem with hold | ⟨-, hp⟩
    · exact h.filed p item hold
    · exact hp
  empty := fun p hclosed => by
    have hbefore := hprepares.closed hclosed
    refine queuedCount_eq_zero.mpr fun item hitem => ?_
    rcases hprepares.queue p item hitem with hold | ⟨hnew, rfl⟩
    · exact queuedCount_eq_zero.mp (h.empty p hbefore) item hold
    · by_contra hcounts
      rw [Bool.not_eq_false] at hcounts
      exact hpushed item hnew hcounts hbefore

/-- Letting the counts decide. -/
theorem Unstranded.decided (hdecided : pool.Decided pool') : pool'.Unstranded where
  filed := fun p item hitem => h.filed p item (hdecided.queuedIn p ▸ hitem)
  empty := fun p hclosed => by
    have hsame : pool'.queuedCount p = pool.queuedCount p := by
      rw [queuedCount, hdecided.queuedIn p]
      rfl
    rw [hsame]
    rcases hclosed with hdrained | hdone
    · rcases hdecided.drained hdrained with hbefore | ⟨-, hdrainable⟩
      · exact h.empty p (.inl hbefore)
      · exact hdrainable.queue
    · exact h.empty p (.inr (hdecided.done_iff.mp hdone))

/-- Queueing an item and opening its phase. -/
theorem Unstranded.rearmed (hrearmed : pool.Rearmed item pool') : pool'.Unstranded where
  filed := fun p other hother => by
    rcases hrearmed.queue p other hother with hold | ⟨rfl, hp⟩
    · exact h.filed p other hold
    · exact hp
  empty := fun p hclosed => by
    have hp : p ≠ item.phaseId := fun hp => hrearmed.own (hp ▸ hclosed)
    rw [queuedCount, hrearmed.queuedIn p hp]
    refine h.empty p ?_
    rw [Closed, hrearmed.phases p hp] at hclosed
    exact hclosed

/-- Closing phases in which nothing that counts is queued, and activating others. -/
theorem Unstranded.activated {marked : PendingPool I}
    (hactivated : marked.Activated pool') (hqueue : ∀ p, marked.queuedIn p ⊆ pool.queuedIn p)
    (hclosed : ∀ p, marked.Closed p → pool.Closed p ∨ pool.queuedCount p = 0) :
    pool'.Unstranded := by
  have hsame : ∀ p, pool'.queuedIn p = marked.queuedIn p := fun p => by
    rw [hactivated.same]
    rfl
  refine ⟨fun p item hitem => ?_, fun p hp => ?_⟩
  · rw [hsame] at hitem
    exact h.filed p item (hqueue p hitem)
  · have hempty : pool.queuedCount p = 0 :=
      (hclosed p (hactivated.closed hp)).elim (h.empty p) fun hnone => hnone
    refine queuedCount_eq_zero.mpr fun item hitem => ?_
    rw [hsame] at hitem
    exact queuedCount_eq_zero.mp hempty item (hqueue p hitem)

omit h in
/-- Rewriting an item puts at its place one of the same phase that counts as it does. -/
theorem exists_of_mem_queuedIn_update {p : PhaseId}
    (h : item' ∈ (pool.updateFirstMatchInPlace pred update).queuedIn p) :
    ∃ item ∈ pool.queuedIn p, item' = item ∨ item' = update item := by
  obtain ⟨key, bucket, hbucket, hkey, hitem'⟩ := mem_queuedIn.mp h
  obtain ⟨old, hold, hitems⟩ := exists_of_get?_updateFirstMatch hbucket
  obtain ⟨item, hitem, heq⟩ := hitems item' hitem'
  exact ⟨item, mem_queuedIn.mpr ⟨key, old, hold, hkey, hitem⟩, heq⟩

/-- Rewriting an item within its phase. -/
theorem Unstranded.updateFirstMatch (pred : TaskInfo I → Bool)
    (hupdate : ∀ item, (update item).phaseId = item.phaseId ∧
      (update item).kind.countsForPhaseDrain = item.kind.countsForPhaseDrain) :
    (pool.updateFirstMatchInPlace pred update).Unstranded := by
  have hstate : (pool.updateFirstMatchInPlace pred update).phaseState = pool.phaseState := by
    rw [updateFirstMatchInPlace_eq]
  refine ⟨fun p item' hitem' => ?_, fun p hclosed => queuedCount_eq_zero.mpr fun item' hitem' => ?_⟩
  · obtain ⟨item, hitem, rfl | rfl⟩ := exists_of_mem_queuedIn_update hitem'
    · exact h.filed p item' hitem
    · exact (hupdate item).1.trans (h.filed p item hitem)
  · rw [Closed, hstate] at hclosed
    have hempty := queuedCount_eq_zero.mp (h.empty p hclosed)
    obtain ⟨item, hitem, rfl | rfl⟩ := exists_of_mem_queuedIn_update hitem'
    · exact hempty item' hitem
    · exact (hupdate item).2.trans (hempty item hitem)

omit h in
/-- An operation that moves no phases by itself queues only in phases that are not closed. -/
theorem OpensFirst.queuedBy (h : pool.OpensFirst operation)
    (hplain : movesPhases operation = false) : ∀ item ∈ pool.queuedBy operation,
      item.kind.countsForPhaseDrain = true → ¬ pool.Closed item.phaseId := by
  cases operation with
  | markPhaseDone | seedCompletedPhases | reinject | updateFirstMatchInPlace => cases hplain
  | _ => exact h

/-- **One operation.** -/
theorem Unstranded.step (hcond : pool.OpensFirst operation) : (pool.step operation).Unstranded := by
  by_cases hplain : movesPhases operation = false
  · have hpushed := hcond.queuedBy hplain
    rcases step_outcome pool hplain with hprepares | ⟨middle, hprepares, hdecided⟩
    · exact h.prepares hprepares hpushed
    · exact (h.prepares hprepares hpushed).decided hdecided
  · cases operation with
    | setNoBarrierPhases phases =>
      exact h.activated (activated_setNoBarrierPhases pool phases) (fun _ => Subset.refl _)
        fun _ hp => .inl hp
    | resurfaceDrainedPending => exact ⟨h.filed, h.empty⟩
    | markPhaseDone phaseId =>
      refine h.activated (activated_activatePhases _)
        (prepares_dropAffineItems _ phaseId).queuedIn_subset fun p hp => .inl ?_
      by_cases hown : p = phaseId
      · exact hown ▸ .inl hcond
      · have hold : (pool.phaseState.insert phaseId .done).lookup p = pool.phaseState.lookup p :=
          AList.lookup_insert_ne hown
        exact hp.imp hold.symm.trans hold.symm.trans
    | seedCompletedPhases phases =>
      refine h.activated (activated_settleActivation _ _) (fun _ => Subset.refl _) fun p hp => ?_
      rcases lookup_seeded phases pool.phaseState p with hold | ⟨hseeded, -⟩
      · exact .inl (hp.imp hold.symm.trans hold.symm.trans)
      · exact .inr (hcond p hseeded)
    | reinject item =>
      obtain ⟨middle, next, hprepares, hdecided, hrearmed⟩ := reinject_outcome pool item
      have hnext : next.Unstranded := by
        refine (h.prepares hprepares fun other hother hcounts => ?_).decided hdecided
        rcases mem_append.mp (mem_filter.mp hother).1 with hqueued | hblocked
        · exact h.not_closed hqueued hcounts
        · obtain ⟨⟨b, _⟩, hmem, rfl⟩ := mem_map.mp hblocked
          exact hcond _ hother ⟨b, HashMap.mem_entries_iff.mp hmem⟩ hcounts
      exact hnext.rearmed hrearmed
    | updateFirstMatchInPlace pred => exact h.updateFirstMatch pred hcond
    | _ => exact absurd rfl hplain

end Step

section Runs

theorem Unstranded.rehashed (h : pool.Unstranded) (hsame : pool.Rehashed pool') :
    pool'.Unstranded := by
  have hqueue : ∀ p, pool'.queuedIn p = pool.queuedIn p := fun p => by
    rw [queuedIn, hsame.buckets]
    rfl
  refine ⟨fun p item hitem => h.filed p item (hqueue p ▸ hitem), fun p hclosed => ?_⟩
  rw [queuedCount, hqueue p]
  refine h.empty p ?_
  rw [Closed, AList.perm_lookup hsame.phaseState] at hclosed
  exact hclosed

/-- Along every run. -/
theorem Reached.unstranded {extended : Bool}
    (h : Reached (fun _ pool operation => pool.OpensFirst operation) extended pool) :
    pool.Unstranded := by
  induction h with
  | new hnew =>
    rw [eq_fresh_of_new hnew]
    refine ⟨fun p item hitem => ?_, fun p hp => absurd hp (fresh_not_closed _ _ p)⟩
    cases hitem
  | step operation _ hcond ih => exact ih.step hcond
  | rehashed _ hsame ih => exact ih.rehashed hsame

/-- **No stranded work.** In every pool that a run reaches whose operations queue items in phases
that are not closed, no bucket of a drained or done phase holds an item that counts. -/
theorem closed_buckets_hold_no_work {extended : Bool}
    (h : Reached (fun _ pool operation => pool.OpensFirst operation) extended pool)
    {key : BucketKey} {bucket : Bucket I} (hbucket : pool.buckets.get? key = some bucket)
    (hclosed : pool.Closed key.phaseId) :
    ∀ item ∈ bucket.items, item.kind.countsForPhaseDrain = false := by
  intro item hitem
  have hempty := queuedCount_eq_zero.mp (h.unstranded.empty key.phaseId hclosed)
  exact hempty item (mem_queuedIn.mpr ⟨key, bucket, hbucket, rfl, hitem⟩)

end Runs

end PendingPool

namespace Sample

open PendingPool

/-- A phase that has run out of work is drained. A batch for it is accepted all the same, and its
task is never given to a worker. -/
theorem extend_strands_task : ∃ pool : PendingPool String,
    Reached (fun _ pool operation => ∀ p, operation = .markPhaseDone p →
      pool.phaseState.lookup p = some .drained) true pool ∧
    pool.Closed "p" ∧ pool.queued = [task "b" []] ∧ (pool.popForWorker 0).2 = none := by
  have hnew : Reached (fun _ pool operation => ∀ p, operation = .markPhaseDone p →
      pool.phaseState.lookup p = some .drained) false (ran []) := .new new_ran
  have hextended := hnew.step (.extend [task "a" []]) nofun
  have hpopped := hextended.step (.popForWorker 0) nofun
  have hfinished := hpopped.step (.onItemFinished "p" (some "a")) nofun
  have hlate := hfinished.step (.extend [task "b" []]) nofun
  exact ⟨_, hlate, by decide, by decide, by decide⟩

/-- A task of phase `"p"` that runs on every secondary and does not hold its phase open. -/
def token (taskId : String) : TaskInfo String := { task taskId [] with kind := .secondaryAffine }

/-- A token may stay behind when its phase is drained. -/
theorem drained_phase_keeps_token : (ran [.extend [task "a" [], token "z"], .popForWorker 0,
      .onItemFinished "p" (some "a")]).Closed "p" ∧
    ∀ item ∈ [token "z"], item.kind.countsForPhaseDrain = false := by
  have hnew : Reached (fun _ pool operation => pool.OpensFirst operation) false (ran []) :=
    .new new_ran
  have hextended := hnew.step (.extend [task "a" [], token "z"])
    (fun item _ _ => fresh_not_closed ["p"] ∅ item.phaseId)
  have hpopped := hextended.step (.popForWorker 0) (fun _ hitem => nomatch hitem)
  have hfinished := hpopped.step (.onItemFinished "p" (some "a")) (fun _ hitem => nomatch hitem)
  have hbucket : (ran [.extend [task "a" [], token "z"], .popForWorker 0,
      .onItemFinished "p" (some "a")]).buckets.get? ⟨"p", "t", ""⟩ =
        some ⟨[token "z"], []⟩ := by rfl
  exact ⟨by decide, closed_buckets_hold_no_work hfinished hbucket (by decide)⟩

end Sample

end DynRunner
