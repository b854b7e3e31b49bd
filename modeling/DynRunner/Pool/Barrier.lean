import DynRunner.Pool.Outcomes
import DynRunner.Pool.ConsistentRuns

/-!
# The phase barrier

A phase is drained when nothing of it is left. A phase that dispatches without waiting for its
predecessors may run out of work before them, and must then wait to be drained until they are
done. The counts see to this when nothing of the phase is blocked. When all that is left is blocked
and can never run, they drain the phase without a look at its predecessors. The results are about
runs in which no phase that runs ahead of its predecessors is left with such items only.
-/

namespace DynRunner

open HashMap

namespace PendingPool

variable {I : Type} {pool pool' middle : PendingPool I} {pushed : List (TaskInfo I)}

/-- A phase dispatches before its predecessors are done. -/
def RunsAhead (pool : PendingPool I) (phaseId : PhaseId) : Prop :=
  pool.phaseActiveOrDraining phaseId = true ∧ pool.predecessorsDone phaseId = false

instance (phaseId : PhaseId) : Decidable (pool.RunsAhead phaseId) :=
  inferInstanceAs (Decidable (_ ∧ _))

/-- All that is left of a phase is blocked and can never run. -/
structure OnlyDoomed (pool : PendingPool I) (phaseId : PhaseId) : Prop where
  queue : pool.queuedCount phaseId = 0
  inFlight : pool.inFlight phaseId = 0
  affine : pool.phaseHasLiveAffinePrereq phaseId = false
  blocked : pool.blockedIn phaseId ≠ 0
  live : pool.liveBlockedCount phaseId = 0

instance (phaseId : PhaseId) : Decidable (pool.OnlyDoomed phaseId) :=
  decidable_of_iff (pool.queuedCount phaseId = 0 ∧ pool.inFlight phaseId = 0 ∧
    pool.phaseHasLiveAffinePrereq phaseId = false ∧ pool.blockedIn phaseId ≠ 0 ∧
      pool.liveBlockedCount phaseId = 0)
    ⟨fun ⟨hqueue, hinFlight, haffine, hblocked, hlive⟩ =>
      ⟨hqueue, hinFlight, haffine, hblocked, hlive⟩,
      fun ⟨hqueue, hinFlight, haffine, hblocked, hlive⟩ =>
        ⟨hqueue, hinFlight, haffine, hblocked, hlive⟩⟩

/-- An operation does not leave a phase that runs ahead with items that can never run and nothing
else. An item that is rewritten stays in its phase. -/
structure AheadLive (pool : PendingPool I) (operation : PoolOperation I) : Prop where
  live : ∀ p, pool.RunsAhead p → ¬ (pool.step operation).OnlyDoomed p
  rewritten : ∀ pred update, operation = .updateFirstMatchInPlace pred update →
    ∀ item, (update item).phaseId = item.phaseId

/-- Nothing of a phase is left after an operation, and its predecessors were done before it. -/
structure Settled (pool pool' : PendingPool I) (phaseId : PhaseId) : Prop where
  queue : pool'.queuedCount phaseId = 0
  inFlight : pool'.inFlight phaseId = 0
  live : pool'.liveBlockedCount phaseId = 0
  affine : pool'.phaseHasLiveAffinePrereq phaseId = false
  predecessors : pool.predecessorsDone phaseId = true

/-- What an operation may do to the phases when it leaves no phase that runs ahead with doomed items
only. -/
structure KeepsBarrier (pool pool' : PendingPool I) : Prop where
  phaseDeps : pool'.phaseDeps = pool.phaseDeps
  counts : pool'.CountsBlocked
  drained : ∀ p, pool'.phaseState.lookup p = some .drained →
    pool.phaseState.lookup p = some .drained ∨ pool.Settled pool' p
  pending : ∀ p ∈ pool'.drainedPending, p ∈ pool.drainedPending ∨
    pool.phaseState.lookup p = some .drained ∨ pool.predecessorsDone p = true

section Step

variable {p : PhaseId} {marked next : PendingPool I}

/-- What is not blocked cannot be live. -/
theorem liveBlockedCount_eq_zero (hcounts : pool.CountsBlocked)
    (hnone : pool.blockedIn p = 0) : pool.liveBlockedCount p = 0 := by
  have hmono : pool.liveBlockedCount p ≤ pool.blocked.count fun _ item => item.phaseId = p := by
    refine List.countP_mono_left fun e _ he => ?_
    exact decide_eq_true (of_decide_eq_true he).1
  exact Nat.eq_zero_of_le_zero (hmono.trans ((hcounts p).trans hnone.le))

/-- A phase that the counts may drain has no blocked item that may still run. -/
theorem Drainable.live (hcounts : middle.CountsBlocked) (h : middle.Drainable p) :
    middle.liveBlockedCount p = 0 := by
  rcases h.blocked with ⟨hnone, -⟩ | ⟨-, hlive⟩
  · exact liveBlockedCount_eq_zero hcounts hnone
  · exact hlive

/-- A phase that the counts may drain has its predecessors done, or is left with doomed items. -/
theorem Drainable.predecessors_or_onlyDoomed (h : middle.Drainable p) :
    middle.predecessorsDone p = true ∨ middle.OnlyDoomed p :=
  h.blocked.imp And.right fun ⟨hblocked, hlive⟩ => ⟨h.queue, h.inFlight, h.affine, hblocked, hlive⟩

/-- A phase that a decision may drain is settled after it, unless it runs ahead and is left with
doomed items. -/
theorem Decided.settled (h : middle.Decided next) (hprepares : pool.Prepares pushed middle)
    (hcounts : pool.CountsBlocked) (hahead : pool.RunsAhead p → ¬ next.OnlyDoomed p)
    (hopen : middle.phaseActiveOrDraining p = true) (hdrainable : middle.Drainable p) :
    pool.Settled next p := by
  have hlive := hdrainable.live (hprepares.counts hcounts)
  refine ⟨?_, ?_, ?_, ?_, ?_⟩
  · rw [h.same]
    exact hdrainable.queue
  · rw [h.same]
    exact hdrainable.inFlight
  · rw [h.liveBlockedCount]
    exact hlive
  · rw [h.same]
    exact hdrainable.affine
  · rcases hdrainable.predecessors_or_onlyDoomed with hdone | hdoomed
    · exact hprepares.predecessorsDone hdone
    · by_contra hnot
      rw [Bool.not_eq_true] at hnot
      refine hahead ⟨hprepares.activeOrDraining hopen, hnot⟩ ⟨?_, ?_, ?_, ?_, ?_⟩
      · rw [h.same]
        exact hdoomed.queue
      · rw [h.same]
        exact hdoomed.inFlight
      · rw [h.same]
        exact hdoomed.affine
      · rw [h.same]
        exact hdoomed.blocked
      · rw [h.liveBlockedCount]
        exact hlive

/-- Letting the counts decide after moving items. -/
theorem Decided.keepsBarrier (h : middle.Decided pool') (hprepares : pool.Prepares pushed middle)
    (hcounts : pool.CountsBlocked) (hahead : ∀ p, pool.RunsAhead p → ¬ pool'.OnlyDoomed p) :
    pool.KeepsBarrier pool' where
  phaseDeps := by
    rw [h.same]
    exact hprepares.phaseDeps
  counts := h.countsBlocked (hprepares.counts hcounts)
  drained := fun p hdrained =>
    (h.drained hdrained).imp hprepares.drained fun ⟨hopen, hdrainable⟩ =>
      h.settled hprepares hcounts (hahead p) hopen hdrainable
  pending := fun p hp => by
    rcases h.pending p hp with hp | ⟨hopen, hdrainable, -⟩
    · exact .inl (hprepares.pending hp)
    · exact .inr (.inr (h.settled hprepares hcounts (hahead p) hopen hdrainable).predecessors)

/-- Making phases done and activating others drains none. -/
theorem Activated.keepsBarrier (h : marked.Activated pool')
    (hsame : marked = { pool with buckets := marked.buckets, phaseState := marked.phaseState })
    (hphases : ∀ p, marked.phaseState.lookup p = pool.phaseState.lookup p ∨
      marked.phaseState.lookup p = some .done) (hcounts : pool.CountsBlocked) :
    pool.KeepsBarrier pool' where
  phaseDeps := by rw [h.same, hsame]
  counts := by
    rw [h.same, hsame]
    exact hcounts
  drained := fun p hdrained => by
    have hmarked := h.drained hdrained
    rcases hphases p with hold | hdone
    · exact .inl (hold ▸ hmarked)
    · rw [hdone] at hmarked
      cases hmarked
  pending := fun p hp => by
    rw [h.same, hsame] at hp
    exact .inl hp

section Rearmed

variable {item : TaskInfo I} (hrearmed : next.Rearmed item pool') (hp : p ≠ item.phaseId)
include hrearmed hp

/-- Rearming leaves the counted queue. -/
theorem Rearmed.queuedCount : pool'.queuedCount p = next.queuedCount p := by
  rw [PendingPool.queuedCount, hrearmed.queuedIn p hp]
  rfl

/-- Rearming leaves the imports of other phases. -/
theorem Rearmed.affine :
    pool'.phaseHasLiveAffinePrereq p = next.phaseHasLiveAffinePrereq p := by
  have haffine : pool'.affinePrereqIds = next.affinePrereqIds := by rw [hrearmed.rest]
  have hcompleted : pool'.completedTasks = next.completedTasks := by rw [hrearmed.rest]
  have hfailed : pool'.failedTasks = next.failedTasks := by rw [hrearmed.rest]
  rw [phaseHasLiveAffinePrereq, hrearmed.queuedIn p hp, haffine, hcompleted, hfailed]
  rfl

omit hp in
/-- Rearming leaves the live blocked items. -/
theorem Rearmed.liveBlockedCount : pool'.liveBlockedCount p = next.liveBlockedCount p :=
  liveBlockedCount_congr (by rw [hrearmed.rest]) (by rw [hrearmed.rest])
    (by rw [hrearmed.rest]) (by rw [hrearmed.rest])

/-- Queueing an item anew leaves the other phases as settled as they were. -/
theorem Rearmed.settled (h : pool.Settled next p) : pool.Settled pool' p where
  queue := (hrearmed.queuedCount hp).trans h.queue
  inFlight := by
    rw [hrearmed.rest]
    exact h.inFlight
  live := hrearmed.liveBlockedCount.trans h.live
  affine := (hrearmed.affine hp).trans h.affine
  predecessors := h.predecessors

/-- Rearming leaves a phase with doomed items only. -/
theorem Rearmed.onlyDoomed (h : next.OnlyDoomed p) : pool'.OnlyDoomed p where
  queue := (hrearmed.queuedCount hp).trans h.queue
  inFlight := by
    rw [hrearmed.rest]
    exact h.inFlight
  affine := (hrearmed.affine hp).trans h.affine
  blocked := by
    rw [hrearmed.rest]
    exact h.blocked
  live := hrearmed.liveBlockedCount.trans h.live

end Rearmed

/-- Queueing an item anew after a decision touches only its own phase, which it opens. -/
theorem Decided.keepsBarrier_of_rearmed {item : TaskInfo I} (h : middle.Decided next)
    (hrearmed : next.Rearmed item pool') (hprepares : pool.Prepares pushed middle)
    (hcounts : pool.CountsBlocked) (hahead : ∀ p, pool.RunsAhead p → ¬ pool'.OnlyDoomed p) :
    pool.KeepsBarrier pool' where
  phaseDeps := by
    rw [hrearmed.phaseDeps, h.same]
    exact hprepares.phaseDeps
  counts := by
    rw [hrearmed.rest]
    exact h.countsBlocked (hprepares.counts hcounts)
  drained := fun p hdrained => by
    have hp : p ≠ item.phaseId := fun hp => hrearmed.own (.inl (hp ▸ hdrained))
    rw [hrearmed.phases p hp] at hdrained
    exact (h.drained hdrained).imp hprepares.drained fun ⟨hopen, hdrainable⟩ =>
      hrearmed.settled hp (h.settled hprepares hcounts
        (fun hruns hdoomed => hahead p hruns (hrearmed.onlyDoomed hp hdoomed)) hopen hdrainable)
  pending := fun p hp => by
    obtain ⟨hnext, hown⟩ := hrearmed.pending p hp
    rcases h.pending p hnext with hbefore | ⟨hopen, hdrainable, hdrained⟩
    · exact .inl (hprepares.pending hbefore)
    · -- The phase of the item itself would have been taken off the list.
      have hp : p ≠ item.phaseId := fun hp => hown hp hdrained
      exact .inr (.inr (h.settled hprepares hcounts
        (fun hruns hdoomed => hahead p hruns (hrearmed.onlyDoomed hp hdoomed)) hopen
          hdrainable).predecessors)

/-- Rewriting a blocked item within its phase leaves the counts right. -/
theorem CountsBlocked.updateFirstMatch (h : pool.CountsBlocked) (pred : TaskInfo I → Bool)
    {update : TaskInfo I → TaskInfo I} (hupdate : ∀ item, (update item).phaseId = item.phaseId) :
    (pool.updateFirstMatchInPlace pred update).CountsBlocked := by
  unfold updateFirstMatchInPlace
  split
  · exact h
  · split
    next id _ _ =>
      intro p
      refine le_trans (le_of_eq ?_) (h p)
      unfold HashMap.adjust
      cases hitem : pool.blocked.lookup id with
      | none => rfl
      | some => rw [count_insert, count_of_lookup _ hitem, hupdate]
    next => exact h

/-- **One operation.** -/
theorem step_keepsBarrier {operation : PoolOperation I} (hcounts : pool.CountsBlocked)
    (hcond : pool.AheadLive operation) : pool.KeepsBarrier (pool.step operation) := by
  by_cases hplain : movesPhases operation = false
  · rcases step_outcome pool hplain with hprepares | ⟨middle, hprepares, hdecided⟩
    · exact ⟨hprepares.phaseDeps, hprepares.counts hcounts,
        fun _ hdrained => .inl (hprepares.drained hdrained),
        fun _ hp => .inl (hprepares.pending hp)⟩
    · exact hdecided.keepsBarrier hprepares hcounts hcond.live
  · cases operation with
    | setNoBarrierPhases phases =>
      exact (activated_setNoBarrierPhases pool phases).keepsBarrier rfl (fun _ => .inl rfl) hcounts
    | resurfaceDrainedPending =>
      refine ⟨rfl, hcounts, fun _ hdrained => .inl hdrained, fun p hp => ?_⟩
      rcases List.mem_append.mp hp with hp | hp
      · exact .inl hp
      · -- The phase is listed because it is drained.
        obtain ⟨⟨q, state⟩, he, rfl⟩ := List.mem_map.mp (List.mem_filter.mp hp).1
        obtain ⟨hmem, hdrained⟩ := List.mem_filter.mp he
        rw [decide_eq_true_eq] at hdrained
        exact .inr (.inl (hdrained ▸ mem_entries_iff.mp hmem))
    | markPhaseDone phaseId =>
      refine (activated_activatePhases _).keepsBarrier rfl (fun p => ?_) hcounts
      by_cases hp : p = phaseId
      · subst hp
        exact .inr (AList.lookup_insert pool.phaseState)
      · exact .inl (AList.lookup_insert_ne hp)
    | seedCompletedPhases phases =>
      refine (activated_settleActivation _ _).keepsBarrier rfl (fun p => ?_) hcounts
      exact (lookup_seeded phases pool.phaseState p).imp_right And.right
    | reinject item =>
      obtain ⟨middle, next, hprepares, hdecided, hrearmed⟩ := reinject_outcome pool item
      exact hdecided.keepsBarrier_of_rearmed hrearmed hprepares hcounts hcond.live
    | updateFirstMatchInPlace pred update =>
      have hupdate := hcond.rewritten pred update rfl
      have heq := updateFirstMatchInPlace_eq pool pred update
      have hstate : (pool.updateFirstMatchInPlace pred update).phaseState = pool.phaseState := by
        rw [heq]
      have hpending : (pool.updateFirstMatchInPlace pred update).drainedPending =
          pool.drainedPending := by
        rw [heq]
      refine ⟨?_, hcounts.updateFirstMatch pred hupdate, fun p hp => ?_, fun p hp => ?_⟩
      · change (pool.updateFirstMatchInPlace pred update).phaseDeps = pool.phaseDeps
        rw [heq]
      · exact .inl (hstate ▸ hp)
      · exact .inl (hpending ▸ hp)
    | _ => exact absurd rfl hplain

end Step

section Runs

/-- A run of a pool, with the phases that were done before the last operation or earlier. -/
inductive Chronicle (cond : PendingPool I → PoolOperation I → Prop) :
    Set PhaseId → PendingPool I → Prop
  | new {phases : List PhaseId} {deps : HashMap PhaseId (List PhaseId)} {pool : PendingPool I}
      (hnew : new phases deps = .ok pool) : Chronicle cond ∅ pool
  | step {past : Set PhaseId} {pool : PendingPool I} (operation : PoolOperation I)
      (hpool : Chronicle cond past pool) (hcond : cond pool operation) :
      Chronicle cond (past ∪ {p | pool.phaseState.lookup p = some .done}) (pool.step operation)
  | rehashed {past : Set PhaseId} {pool pool' : PendingPool I} (hpool : Chronicle cond past pool)
      (hsame : pool.Rehashed pool') : Chronicle cond past pool'

variable {past : Set PhaseId}

/-- The phases that a phase depends on. -/
def predecessors (pool : PendingPool I) (phaseId : PhaseId) : List PhaseId :=
  (pool.phaseDeps.lookup phaseId).getD []

/-- Every predecessor of a phase that is drained, or about to be reported, has been done. -/
structure Preceded (past : Set PhaseId) (pool : PendingPool I) : Prop where
  counts : pool.CountsBlocked
  reported : ∀ p, pool.phaseState.lookup p = some .drained ∨ p ∈ pool.drainedPending →
    ∀ d ∈ pool.predecessors p, d ∈ past ∨ pool.phaseState.lookup d = some .done

/-- One operation. -/
theorem Preceded.step (h : Preceded past pool) {operation : PoolOperation I}
    (hcond : pool.AheadLive operation) :
    Preceded (past ∪ {p | pool.phaseState.lookup p = some .done}) (pool.step operation) := by
  have hbarrier := step_keepsBarrier h.counts hcond
  refine ⟨hbarrier.counts, fun p hp d hd => .inl ?_⟩
  rw [predecessors, hbarrier.phaseDeps] at hd
  -- Before the operation the phase was drained or pending already, or its predecessors were done.
  have hbefore : (pool.phaseState.lookup p = some .drained ∨ p ∈ pool.drainedPending) ∨
      pool.predecessorsDone p = true := by
    rcases hp with hdrained | hpending
    · rcases hbarrier.drained p hdrained with hdrained | hsettled
      · exact .inl (.inl hdrained)
      · exact .inr hsettled.predecessors
    · rcases hbarrier.pending p hpending with hpending | hdrained | hdone
      · exact .inl (.inr hpending)
      · exact .inl (.inl hdrained)
      · exact .inr hdone
  rcases hbefore with hbefore | hdone
  · exact h.reported p hbefore d hd
  · exact .inr (of_decide_eq_true (List.all_eq_true.mp hdone d hd))

/-- The order of the blocked items does not matter. -/
theorem Preceded.rehashed (h : Preceded past pool) (hsame : pool.Rehashed pool') :
    Preceded past pool' := by
  have hstate : ∀ p, pool'.phaseState.lookup p = pool.phaseState.lookup p := fun p =>
    AList.perm_lookup hsame.phaseState
  refine ⟨fun p => ?_, fun p hp d hd => ?_⟩
  · rw [count_perm _ hsame.blocked, blockedIn, AList.perm_lookup hsame.blockedPerPhase]
    exact h.counts p
  · rw [hstate, hsame.drainedPending] at hp
    rw [predecessors, AList.perm_lookup hsame.phaseDeps] at hd
    rw [hstate]
    exact h.reported p hp d hd

/-- Along every run. -/
theorem Chronicle.preceded (h : Chronicle AheadLive past pool) : Preceded past pool := by
  induction h with
  | new hnew =>
    rw [eq_fresh_of_new hnew]
    refine ⟨fun _ => Nat.zero_le _, fun p hp => ?_⟩
    rcases hp with hdrained | hpending
    · exact absurd (.inl hdrained) (fresh_not_closed _ _ p)
    · cases hpending
  | step operation _ hcond ih => exact ih.step hcond
  | rehashed _ hsame ih => exact ih.rehashed hsame

/-- **The phase barrier.** In a run in which no phase that runs ahead of its predecessors is left
with doomed items only, a phase enters the drained state only by an operation after which nothing of
it is queued, in flight, blocked and live, or an affine import that has yet to run, and before which
its predecessors were done. A phase is reported only after each of its predecessors has been
done. -/
theorem drained_only_when_settled (h : Chronicle AheadLive past pool) :
    (∀ operation, pool.AheadLive operation → ∀ p, pool.phaseState.lookup p ≠ some .drained →
      (pool.step operation).phaseState.lookup p = some .drained →
      pool.Settled (pool.step operation) p) ∧
    ∀ p ∈ pool.pollDrainTransitions.2, ∀ d ∈ pool.predecessors p,
      d ∈ past ∨ pool.phaseState.lookup d = some .done := by
  have hpreceded := h.preceded
  refine ⟨fun operation hcond p hbefore hafter => ?_, fun p hp => ?_⟩
  · have hbarrier := step_keepsBarrier hpreceded.counts hcond
    exact (hbarrier.drained p hafter).resolve_left hbefore
  · exact hpreceded.reported p (.inr hp)

end Runs

end PendingPool

namespace Sample

open PendingPool

/-- A task of phase `"q"`, which waits for tasks of its own phase. -/
def secondPhase (taskId : String) (deps : List String) : TaskInfo String :=
  { task taskId [] with
    phaseId := "q"
    taskDependsOn := deps.map fun dep => ⟨dep, "q", false, none⟩ }

/-- What operations leave of an empty pool with the phases `"p"` and `"q"`, of which the second
depends on the first. -/
def ranChain (operations : List (PoolOperation String)) : PendingPool String :=
  operations.foldl PendingPool.step
    (fresh ["p", "q"] ((∅ : HashMap PhaseId (List PhaseId)).insert "q" ["p"]))

/-- The sample pool is a new one. -/
theorem new_ranChain : PendingPool.new ["p", "q"]
    ((∅ : HashMap PhaseId (List PhaseId)).insert "q" ["p"]) = .ok (ranChain []) := by rfl

/-- The second phase runs ahead and has two tasks, one of which waits for the other. The other
fails and its retry is undecided, so that nothing of the phase can run. The phase is reported while
its predecessor is still active. -/
theorem reported_before_predecessor : ∃ (past : Set PhaseId) (pool : PendingPool String),
    Chronicle (fun _ _ => True) past pool ∧ "q" ∈ pool.pollDrainTransitions.2 ∧
      "p" ∈ pool.predecessors "q" ∧ "p" ∉ past ∧ pool.phaseState.lookup "p" = some .active := by
  have hnew : Chronicle (fun _ _ => True) ∅ (ranChain []) := .new new_ranChain
  have hahead := hnew.step (.setNoBarrierPhases ["q"]) trivial
  have hextended := hahead.step (.extend [secondPhase "x" [], secondPhase "y" ["x"]]) trivial
  have hpopped := hextended.step (.popForWorker 0) trivial
  have hfailed := hpopped.step (.onItemFailedPendingRetry "q" "x") trivial
  refine ⟨_, _, hfailed, by decide, by decide, ?_, by decide⟩
  rintro ((((h | h) | h) | h) | h)
  · exact h
  all_goals
    revert h
    decide

/-- It is enough to look at the phases of the pool. -/
theorem aheadLive_of_phases {pool : PendingPool String} {operation : PoolOperation String}
    (hlive : ∀ e ∈ pool.phaseState.entries, pool.RunsAhead e.1 →
      ¬ (pool.step operation).OnlyDoomed e.1)
    (hupdate : ∀ pred update, operation ≠ .updateFirstMatchInPlace pred update) :
    pool.AheadLive operation where
  live := fun p hruns => by
    obtain ⟨state, hstate⟩ : ∃ state, pool.phaseState.lookup p = some state := by
      rcases phaseActiveOrDraining_iff.mp hruns.1 with h | h <;> exact ⟨_, h⟩
    exact hlive ⟨p, state⟩ (mem_entries_iff.mpr hstate) hruns
  rewritten := fun pred update h => absurd h (hupdate pred update)

/-- The first task of the second phase is dispatched while the first phase is active, and the task
that waits for it as well. Then the first phase ends. -/
def aheadOperations : List (PoolOperation String) :=
  [.setNoBarrierPhases ["q"], .extend [task "a" [], secondPhase "x" [], secondPhase "y" ["x"]],
    .popForWorker 0, .popForWorker 1, .onItemFinished "q" (some "x"), .popForWorker 1,
    .onItemFinished "q" (some "y"), .onItemFinished "p" (some "a"), .markPhaseDone "p"]

/-- The second phase runs ahead with a blocked task, and is drained once the first is done. -/
theorem drained_after_predecessor :
    ((ranChain (aheadOperations.take 2)).RunsAhead "q" ∧
      (ranChain (aheadOperations.take 2)).blockedIn "q" = 1) ∧
    (ranChain aheadOperations).Settled
      ((ranChain aheadOperations).step .drainEmptyActivePhases) "q" := by
  have hnew : Chronicle AheadLive ∅ (ranChain []) := .new new_ranChain
  have hahead := hnew.step (.setNoBarrierPhases ["q"]) (aheadLive_of_phases (by decide) nofun)
  have hextended := hahead.step
    (.extend [task "a" [], secondPhase "x" [], secondPhase "y" ["x"]])
    (aheadLive_of_phases (by decide) nofun)
  have hpopped := (hextended.step (.popForWorker 0) (aheadLive_of_phases (by decide) nofun)).step
    (.popForWorker 1) (aheadLive_of_phases (by decide) nofun)
  have hfirst := hpopped.step (.onItemFinished "q" (some "x"))
    (aheadLive_of_phases (by decide) nofun)
  have hsecond := (hfirst.step (.popForWorker 1) (aheadLive_of_phases (by decide) nofun)).step
    (.onItemFinished "q" (some "y")) (aheadLive_of_phases (by decide) nofun)
  have hmarked := (hsecond.step (.onItemFinished "p" (some "a"))
    (aheadLive_of_phases (by decide) nofun)).step (.markPhaseDone "p")
    (aheadLive_of_phases (by decide) nofun)
  exact ⟨by decide, (drained_only_when_settled hmarked).1 .drainEmptyActivePhases
    (aheadLive_of_phases (by decide) nofun) "q" (by decide) (by decide)⟩

end Sample

end DynRunner
