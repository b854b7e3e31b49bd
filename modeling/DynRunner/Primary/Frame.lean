import DynRunner.Pool.ConsistentRuns
import DynRunner.Pool.Stock
import DynRunner.Primary.Runs

/-!
# What the operations of the coordinator leave alone

The operations of the coordinator are built from few parts: the one way to change the ledger, the
recovery of a task that a report names, the bookkeeping of a terminal and the cascade to the tasks
that fail with another one. This file says for each part which fields it touches, and what it does
to the stock of the pool.
-/

namespace DynRunner.Coordinator

open PendingPool ClusterState HydrationSeed List

variable {I : Type}

section Pool

/-- Queueing resumed descriptors again. -/
theorem draws_reinjectResumed (pool : PendingPool I) (resumed : List (TaskInfo I)) :
    pool.Draws ↑(resumed.filter fun task => !task.kind.isSecondaryAffine)
      (reinjectResumed pool resumed) :=
  .foldl draws_reinject _ pool

end Pool

section Recovery

variable {c c' : Coordinator I} {hash : TaskHash} {entry : InFlightEntry I}

/-- What a terminal frees: the entry of the task, and at most the slot it names. -/
theorem freeSlotOnTerminal_eq_some (h : c.freeSlotOnTerminal hash = some (entry, c')) :
    c.inFlight.lookup hash = some entry ∧ ((entry.localWorkerId = none ∧ c' = c.dropInFlight hash) ∨
        ∃ localWorkerId workerIdx, entry.localWorkerId = some localWorkerId ∧
          c.workerIdxFor entry.secondaryId localWorkerId = some workerIdx ∧
          c.heldBy workerIdx = some hash ∧ c' = (c.vacate workerIdx).dropInFlight hash) := by
  unfold freeSlotOnTerminal at h
  cases hentry : c.inFlight.lookup hash with
  | none =>
    rw [hentry] at h
    cases h
  | some entry' =>
    rw [hentry] at h
    dsimp only at h
    split at h
    · rename_i hlocal
      cases h
      exact ⟨rfl, .inl ⟨hlocal, rfl⟩⟩
    · rename_i localWorkerId hlocal
      split at h
      · cases h
      · rename_i workerIdx hidx
        split_ifs at h with hheld
        cases h
        exact ⟨rfl, .inr ⟨localWorkerId, workerIdx, hlocal, hidx, hheld, rfl⟩⟩

/-- The freed state differs in the slots and the entry. -/
theorem freeSlotOnTerminal_frame (h : c.freeSlotOnTerminal hash = some (entry, c')) :
    ∃ workers, c' = { c with workers, inFlight := c.inFlight.erase hash } := by
  obtain ⟨-, ⟨-, rfl⟩ | ⟨-, workerIdx, -, -, -, rfl⟩⟩ := freeSlotOnTerminal_eq_some h
  · exact ⟨c.workers, rfl⟩
  · exact ⟨_, rfl⟩

/-- Accounting for a terminal touches the two sets of the accounting. -/
theorem recordTerminal_frame (c : Coordinator I) {counterCompleted : Bool}
    {failedKind : Option ErrorType} : ∃ completedTasks failedTasks,
      c.recordTerminal hash counterCompleted failedKind =
        { c with completedTasks, failedTasks } := by
  unfold recordTerminal
  split
  · exact ⟨_, _, rfl⟩
  · split
    · split
      · exact ⟨c.completedTasks, c.failedTasks, rfl⟩
      · exact ⟨_, _, rfl⟩
    · exact ⟨c.completedTasks, c.failedTasks, rfl⟩

variable [DefaultHasher] [Identifier I]

/-- What is left of a task leaves: its entry, or the task out of the queue, as if it had been
dispatched. -/
inductive Frees (c : Coordinator I) (hash : TaskHash) : TaskInfo I → PhaseId → Coordinator I → Prop
  | entry {entry : InFlightEntry I} (workers : List (RemoteWorkerState I))
      (hentry : c.inFlight.lookup hash = some entry) :
      Frees c hash entry.task entry.phase { c with workers, inFlight := c.inFlight.erase hash }
  | queued {task : TaskInfo I} {pool : PendingPool I} (hhash : computeTaskHash task = hash)
      (hshed : c.pool.Sheds task pool) :
      Frees c hash task task.phaseId { c with pool := pool.markInFlight task.phaseId }

/-- A freed slot frees its task. -/
theorem frees_of_slot (h : c.freeSlotOnTerminal hash = some (entry, c')) :
    c.Frees hash entry.task entry.phase c' := by
  obtain ⟨workers, rfl⟩ := freeSlotOnTerminal_frame h
  exact .entry workers (freeSlotOnTerminal_eq_some h).1

variable {task : TaskInfo I}

/-- A task that is reclaimed from the queue is freed. -/
theorem frees_of_queue (h : c.reclaimRequeuedOnTerminal hash = some (task, c')) :
    c.Frees hash task task.phaseId c' := by
  obtain ⟨⟨task', pool⟩, htake, heq⟩ := Option.map_eq_some_iff.mp h
  cases heq
  exact .queued (of_decide_eq_true (takes_takeFirstMatch htake).2) (sheds_takeFirstMatch htake)

/-- A recovered task is freed. -/
theorem frees_of_recovered (h : c.recoverOnTerminal hash = some (task, c')) :
    ∃ p, c.Frees hash task p c' := by
  unfold recoverOnTerminal at h
  split at h
  · rename_i hfree
    cases h
    exact ⟨_, frees_of_slot hfree⟩
  · exact ⟨_, frees_of_queue h⟩

/-- What is left of a task is freed. -/
theorem frees_of_residue {found : PhaseId × String}
    (h : c.recoverResidue hash = some (found, c')) : ∃ task, c.Frees hash task found.1 c' := by
  unfold recoverResidue at h
  split at h
  · rename_i hfree
    cases h
    exact ⟨_, frees_of_slot hfree⟩
  · obtain ⟨_, hreclaim, heq⟩ := Option.map_eq_some_iff.mp h
    cases heq
    exact ⟨_, frees_of_queue hreclaim⟩

/-- The cascade to the dependents changes the failures only. -/
theorem buildCascadeTerminalMutations_frame (c : Coordinator I) {rootId : String}
    {cascaded : List (TaskInfo I)} :
    ∃ failedTasks, (c.buildCascadeTerminalMutations rootId cascaded).1 =
      { c with failedTasks } := by
  refine foldlRecOn (motive := fun acc : Coordinator I × List (ClusterMutation I) =>
    ∃ failedTasks, acc.1 = { c with failedTasks }) _ _ ⟨c.failedTasks, rfl⟩ ?_
  rintro ⟨c', mutations⟩ ⟨failedTasks, rfl⟩ dep -
  dsimp only
  split_ifs
  · exact ⟨failedTasks, rfl⟩
  · exact ⟨_, rfl⟩

end Recovery

section Slots

variable {c : Coordinator I} {hash : TaskHash} {task : TaskInfo I} {worker workerIdx : ℕ}

/-- Seating a task changes slots only. -/
theorem seatInherited_frame {secondary : String} :
    ∃ workers, c.seatInherited hash secondary worker task = { c with workers } := by
  unfold seatInherited
  cases c.workerIdxFor secondary worker with
  | none => exact ⟨c.workers, rfl⟩
  | some => exact ⟨_, rfl⟩

/-- Rebuilding the slots changes nothing else. -/
theorem reconstructWorkers_frame (fleet : Fleet I) (c : Coordinator I) :
    ∃ workers, reconstructWorkers fleet c = { c with workers } := by
  refine foldlRecOn (motive := fun c' : Coordinator I => ∃ workers, c' = { c with workers })
    _ _ ⟨fleet.idleSlots, rfl⟩ ?_
  rintro c' ⟨workers, rfl⟩ ⟨hash, secondary, worker, task⟩ -
  obtain ⟨workers', heq⟩ := seatInherited_frame
  exact ⟨workers', heq⟩

/-- What an assignment changes: an idle slot, and the entry of the task. -/
theorem commitAssignment_eq_some {c' : Coordinator I}
    (h : c.commitAssignment workerIdx task hash = some c') :
    ∃ w, c.workers[workerIdx]? = some w ∧ w.state = .idle ∧ c' = { c with
      workers := c.workers.set workerIdx { w with state := .assigned hash task .dispatched }
      inFlight := c.inFlight.insert hash ⟨task.phaseId, w.secondaryId,
        some (c.localWorkerIdInSecondary workerIdx w.secondaryId), task⟩ } := by
  unfold commitAssignment at h
  cases hw : c.workers[workerIdx]? with
  | none =>
    rw [hw] at h
    cases h
  | some w =>
    rw [hw] at h
    cases hstate : w.state with
    | idle =>
      simp only [RemoteWorkerState.assign, hstate, Option.some.injEq] at h
      exact ⟨w, rfl, hstate, h.symm⟩
    | assigned => simp [RemoteWorkerState.assign, hstate] at h

end Slots

section Holders

variable {c : Coordinator I} {hash : TaskHash}

/-- Vacating a slot changes slots only. -/
theorem vacateHolding_frame (c : Coordinator I) (workerIdx : Option ℕ) (hash : TaskHash) :
    ∃ workers, c.vacateHolding workerIdx hash = { c with workers } := by
  unfold vacateHolding
  split
  · split_ifs
    · exact ⟨_, rfl⟩
    · exact ⟨c.workers, rfl⟩
  · exact ⟨c.workers, rfl⟩

/-- What a report about an import frees: its slot, and at most its entry. -/
theorem freeAffineSlotOnTerminal_frame (c : Coordinator I) (secondary : String) (workerId : ℕ)
    (hash : TaskHash) : ∃ workers inFlight,
      (inFlight = c.inFlight ∨ inFlight = c.inFlight.erase hash) ∧
        c.freeAffineSlotOnTerminal secondary workerId hash = { c with workers, inFlight } := by
  obtain ⟨workers, heq⟩ := vacateHolding_frame c (c.workerIdxFor secondary workerId) hash
  unfold freeAffineSlotOnTerminal
  dsimp only
  rw [heq]
  split
  · split_ifs
    · exact ⟨workers, _, .inr rfl, rfl⟩
    · exact ⟨workers, c.inFlight, .inl rfl, rfl⟩
  · exact ⟨workers, c.inFlight, .inl rfl, rfl⟩

/-- Slots change, and at most the entry of one task moves to another member. -/
inductive Reseats (c : Coordinator I) : Coordinator I → Prop
  | slots (workers : List (RemoteWorkerState I)) : Reseats c { c with workers }
  | moved (workers : List (RemoteWorkerState I)) {hash : TaskHash} {entry : InFlightEntry I}
      (hentry : c.inFlight.lookup hash = some entry) (secondaryId : String)
      (localWorkerId : Option ℕ) : Reseats c { c with
        workers
        inFlight := c.inFlight.insert hash { entry with secondaryId, localWorkerId } }

/-- Seating the incumbent changes slots only. -/
theorem seatIncumbent_reseats (c : Coordinator I) (secondary : String) (workerId : ℕ)
    (hash : TaskHash) : c.Reseats (c.seatIncumbent secondary workerId hash) := by
  unfold seatIncumbent
  split
  · split_ifs
    · obtain ⟨workers, heq⟩ := seatInherited_frame
      rw [heq]
      exact .slots workers
    · exact .slots c.workers
  · exact .slots c.workers

/-- Reconciling the holder of a task moves its entry. -/
theorem reconcileAuthoritativeHolder_reseats [DecidableEq I] (c : Coordinator I)
    (authoritative : String) (workerId : ℕ) (hash : TaskHash) :
    c.Reseats (c.reconcileAuthoritativeHolder authoritative workerId hash) := by
  unfold reconcileAuthoritativeHolder
  cases hentry : c.inFlight.lookup hash with
  | none => exact .slots c.workers
  | some entry =>
    dsimp only
    split_ifs
    · exact .slots c.workers
    · have hwithdrawn : ∃ workers, c.withdrawFrom entry = { c with workers } := by
        unfold withdrawFrom
        split
        · exact ⟨_, rfl⟩
        · exact ⟨c.workers, rfl⟩
      obtain ⟨workers, heq⟩ := hwithdrawn
      rw [heq]
      obtain ⟨workers', hseated⟩ := seatInherited_frame
      rw [hseated]
      exact .moved workers' hentry authoritative (some workerId)

end Holders

section Hydration

variable {pool : PendingPool I} {fleet : Fleet I} {s : ClusterState I}

/-- The pool of a hydration that succeeds: seeded, extended, and told of the ended phases. -/
theorem hydratePool_eq_ok (h : hydratePool fleet s = .ok pool) : ∃ phaseSet extended,
      (seedPool s (fresh phaseSet s.phaseDepsMap)).extend (hydrationItems fleet s) = .ok extended ∧
      pool = if (endedPhases s).isEmpty then extended
        else extended.seedCompletedPhases (endedPhases s) := by
  unfold hydratePool at h
  dsimp only at h
  split at h
  · cases h
  · rename_i base hbase
    split at h
    · cases h
    · rename_i extended hextend
      cases h
      rw [eq_fresh_of_new hbase] at hextend
      exact ⟨_, extended, hextend, rfl⟩

/-- A coordinator that has hydrated. -/
theorem hydrateFromClusterState_eq_ok {c₀ c : Coordinator I}
    (h : hydrateFromClusterState fleet c₀ = .ok c) :
    ∃ pool workers, hydratePool fleet c₀.cluster = .ok pool ∧ c = { c₀ with
      pool
      completedTasks := (c₀.cluster.hydrationSeeds.flatMap completed).toFinset
      failedTasks := (c₀.cluster.hydrationSeeds.flatMap failed).foldl
        (fun m e => m.insert e.1 e.2) ∅
      allBinaries := c₀.cluster.hydrationSeeds.flatMap HydrationSeed.allBinaries
      workers
      inFlight := c₀.cluster.inherited.foldl (fun m e => m.insert e.1 e.2) c₀.inFlight
      totalTasks := c₀.cluster.taskCount } := by
  unfold hydrateFromClusterState at h
  dsimp only at h
  split at h
  · cases h
  · rename_i pool hpool
    cases h
    exact (reconstructWorkers_frame fleet _).elim fun workers heq =>
      ⟨pool, workers, hpool, by rw [heq]⟩

/-- What only the fat entries contribute. -/
theorem flatMap_hydrationSeeds {α : Type} {f : HydrationSeed I → List α}
    (hsettled : ∀ hash entry, f (settledSeed hash entry) = []) (s : ClusterState I) :
    s.hydrationSeeds.flatMap f = s.tasks.entries.flatMap fun e => f (s.taskSeed e.1 e.2) := by
  rw [hydrationSeeds, flatMap_append, flatMap_map, flatMap_map]
  simp [hsettled]

/-- What is inherited, entry by entry. -/
theorem inherited_eq :
    s.inherited = s.tasks.entries.flatMap fun e => (s.taskSeed e.1 e.2).inFlight := by
  refine flatMap_hydrationSeeds (fun hash entry => ?_) s
  unfold settledSeed
  split <;> rfl

/-- What the ledger has as running becomes an entry, and nothing else does. -/
theorem taskSeed_inFlight {hash : TaskHash} {st : TaskState I} :
    (s.taskSeed hash st).inFlight = [] ∨ ∃ secondary worker version,
      st.status = .inFlight secondary worker version ∧ (s.taskSeed hash st).inFlight =
        [(hash, ⟨st.definition.phaseId, secondary, some worker, s.taskToInfo st⟩)] := by
  by_cases hkind : st.definition.kind = .secondaryEagerPrep
  · exact .inl (by simp [taskSeed, hkind])
  · cases hstatus : st.status with
    | inFlight secondary worker version =>
      refine .inr ⟨secondary, worker, version, rfl, ?_⟩
      simp [taskSeed, hkind, hstatus]
    | _ => exact .inl (by simp [taskSeed, hkind, hstatus])

/-- No task is inherited twice. -/
theorem nodup_inherited : (s.inherited.map Prod.fst).Nodup := by
  rw [inherited_eq, map_flatMap]
  refine HashMap.nodup_flatMap_entries (f := fun hash st =>
    (s.taskSeed hash st).inFlight.map Prod.fst) fun hash st _ => ?_
  rcases taskSeed_inFlight with hnone | ⟨secondary, worker, version, -, hone⟩
  · rw [hnone]
    exact nil_sublist _
  · rw [hone]
    exact Sublist.refl _

/-- An inherited entry is the one of a running task. -/
theorem exists_of_mem_inherited {e : TaskHash × InFlightEntry I}
    (he : e ∈ s.inherited) : ∃ st secondary worker version, s.tasks.lookup e.1 = some st ∧
      st.status = .inFlight secondary worker version ∧
      e.2 = ⟨st.definition.phaseId, secondary, some worker, s.taskToInfo st⟩ := by
  rw [inherited_eq] at he
  obtain ⟨⟨hash, st⟩, hmem, hseed⟩ := mem_flatMap.mp he
  rcases taskSeed_inFlight with hnone | ⟨secondary, worker, version, hstatus, hone⟩
  · rw [hnone] at hseed
    cases hseed
  · rw [hone, mem_singleton] at hseed
    subst hseed
    exact ⟨st, secondary, worker, version, HashMap.mem_entries_iff.mp hmem, hstatus, rfl⟩

/-- The seeds touch neither the queue nor the blocked items. -/
theorem seedPool_same (s : ClusterState I) (pool : PendingPool I) :
    (seedPool s pool).buckets = pool.buckets ∧ (seedPool s pool).blocked = pool.blocked := by
  have hmark : ∀ (items : List (String × PhaseId)) (pool : PendingPool I),
      (pool.markTasksInFlight items).buckets = pool.buckets ∧
        (pool.markTasksInFlight items).blocked = pool.blocked := by
    intro items
    induction items with
    | nil => exact fun pool => ⟨rfl, rfl⟩
    | cons item items ih =>
      intro pool
      rw [markTasksInFlight, foldl_cons, ← markTasksInFlight]
      obtain ⟨hbuckets, hblocked⟩ := ih (if item.1 ∈ pool.inFlightTasks then pool
        else ({ pool with inFlightTasks := insert item.1 pool.inFlightTasks }).markInFlight item.2)
      rw [hbuckets, hblocked]
      split_ifs
      all_goals exact ⟨rfl, rfl⟩
  exact hmark _ _

end Hydration

variable [DefaultHasher] [Identifier I] [RecordCodec I] [DonePayloadCodec]

section Broadcast

variable {c : Coordinator I} {ms : List (ClusterMutation I)}

/-- Originating mutations changes the replica and queues what was resumed, for an empty batch as
well. -/
theorem applyAndBroadcast_eq : c.applyAndBroadcast ms = { c with
      toOriginator := (c.toOriginator.applyLocallyForBroadcast ms).originator
      pool := reinjectResumed c.pool
        (c.toOriginator.applyLocallyForBroadcast ms).resumedForDispatch } := by
  cases ms with
  | nil => rfl
  | cons => rfl

variable (c) (ms)

@[simp] theorem applyAndBroadcast_inFlight : (c.applyAndBroadcast ms).inFlight = c.inFlight := by
  rw [applyAndBroadcast_eq]

@[simp] theorem applyAndBroadcast_failedTasks :
    (c.applyAndBroadcast ms).failedTasks = c.failedTasks := by
  rw [applyAndBroadcast_eq]

@[simp] theorem applyAndBroadcast_completedTasks :
    (c.applyAndBroadcast ms).completedTasks = c.completedTasks := by
  rw [applyAndBroadcast_eq]

@[simp] theorem applyAndBroadcast_workers : (c.applyAndBroadcast ms).workers = c.workers := by
  rw [applyAndBroadcast_eq]

variable {ms} {c}

/-- Originating mutations queues at most what the ledger resumes. -/
theorem draws_applyAndBroadcast :
    c.pool.Draws ↑((c.toOriginator.applyLocallyForBroadcast ms).resumedForDispatch.filter
      fun task => !task.kind.isSecondaryAffine) (c.applyAndBroadcast ms).pool := by
  rw [applyAndBroadcast_eq]
  exact draws_reinjectResumed _ _

end Broadcast

section Dispatch

/-- What a dispatch can do: nothing leaves the pool; or the task that leaves it comes back, and no
other entry is dropped; or the task is in flight and its assignment is originated. -/
inductive Dispatches (c : Coordinator I) (key : BucketKey) (index : ℕ) : Coordinator I → Prop
  | nothing {pool : PendingPool I} (hdraws : c.pool.Draws 0 pool) :
      Dispatches c key index { c with pool }
  | returned {task : TaskInfo I} {evicted pool : PendingPool I}
      {workers : List (RemoteWorkerState I)} {inFlight : HashMap TaskHash (InFlightEntry I)}
      (hremove : c.pool.removeAt key index = some (task, evicted))
      (hout : (evicted.markInFlight key.phaseId).SameStock pool)
      (hinFlight : inFlight = c.inFlight ∨ inFlight = c.inFlight.erase (computeTaskHash task)) :
      Dispatches c key index { c with pool := pool.requeue task, workers, inFlight }
  | assigned {evicted pool : PendingPool I} {workers : List (RemoteWorkerState I)}
      (entry : InFlightEntry I)
      (hremove : c.pool.removeAt key index = some (entry.task, evicted))
      (hout : (evicted.markInFlight key.phaseId).SameStock pool)
      (hphase : entry.phase = entry.task.phaseId) :
      Dispatches c key index (({ c with
          pool
          workers
          inFlight := c.inFlight.insert (computeTaskHash entry.task) entry } :
            Coordinator I).applyAndBroadcast
        [.taskAssigned (computeTaskHash entry.task) entry.secondaryId
          (entry.localWorkerId.getD 0) .default 0])

/-- What an assignment can do: the task is in flight and its assignment is originated, or at most
its entry is dropped. -/
theorem dispatchOneAssignment_cases (c : Coordinator I) (workerIdx : ℕ) (task : TaskInfo I)
    (delivered : Bool) :
    (∃ workers entry, entry.task = task ∧ entry.phase = task.phaseId ∧
      c.dispatchOneAssignment workerIdx task delivered = (({ c with
        workers
        inFlight := c.inFlight.insert (computeTaskHash task) entry } :
          Coordinator I).applyAndBroadcast [.taskAssigned (computeTaskHash task) entry.secondaryId
            (entry.localWorkerId.getD 0) .default 0], true)) ∨
    ∃ workers inFlight, (inFlight = c.inFlight ∨
        inFlight = c.inFlight.erase (computeTaskHash task)) ∧
      c.dispatchOneAssignment workerIdx task delivered = ({ c with workers, inFlight }, false) := by
  unfold dispatchOneAssignment
  dsimp only
  cases hcommit : c.commitAssignment workerIdx task (computeTaskHash task) with
  | none => exact .inr ⟨c.workers, c.inFlight, .inl rfl, rfl⟩
  | some =>
    obtain ⟨w, -, -, rfl⟩ := commitAssignment_eq_some hcommit
    dsimp only
    split_ifs
    · rw [AList.lookup_insert]
      exact .inl ⟨_, ⟨task.phaseId, w.secondaryId, _, task⟩, rfl, rfl, rfl⟩
    · exact .inr ⟨_, _, .inr HashMap.erase_insert_self, rfl⟩

/-- A dispatch takes at most the selected item. -/
theorem dispatchSelected_dispatches (c : Coordinator I) (workerIdx : ℕ) (worker : WorkerId)
    (key : BucketKey) (index : ℕ) (delivered : Bool) :
    c.Dispatches key index (c.dispatchSelected workerIdx worker key index delivered) := by
  unfold dispatchSelected takeSelected
  rcases stock_takeAtIfReady with
    ⟨task, evicted, hsome, hremove, -, hout⟩ | ⟨hnone, hdraws⟩
  · cases htake : c.pool.takeAtIfReady key index worker with
    | mk pool =>
      rw [htake] at hsome hout
      cases hsome
      dsimp only
      unfold dispatchOrRequeue
      rcases dispatchOneAssignment_cases { c with pool } workerIdx task delivered with
        ⟨workers, entry, rfl, hphase, heq⟩ | ⟨workers, inFlight, hinFlight, heq⟩
      · rw [heq]
        exact .assigned entry hremove hout hphase
      · rw [heq]
        exact .returned hremove hout hinFlight
  · cases htake : c.pool.takeAtIfReady key index worker with
    | mk =>
      rw [htake] at hnone hdraws
      cases hnone
      exact .nothing hdraws

end Dispatch

/-- What the queue of batches does not matter for and a chunk keeps is kept by a pump. -/
theorem pumpSpawnContinuation_frame {P : Coordinator I → Prop} {c : Coordinator I} (hc : P c)
    (hqueue : ∀ {c : Coordinator I} spawnContinuationQueue, P c →
      P { c with spawnContinuationQueue })
    (hchunk : ∀ {c : Coordinator I} tasks baseIndex, P c →
      P (c.applySpawnTasksChunk tasks baseIndex).1) : P c.pumpSpawnContinuation.1 := by
  unfold pumpSpawnContinuation
  split
  · exact hc
  · exact hqueue _ (hchunk _ _ (hqueue _ hc))

omit [DefaultHasher] [Identifier I] [RecordCodec I] [DonePayloadCodec] in
/-- What a secondary ran is recovered entry by entry, each still in flight when its turn comes. -/
theorem recoverInFlightForDeadSecondary_frame {P : Coordinator I → Prop}
    {Q : ClusterMutation I → Prop} {c : Coordinator I} {secondary : String} (hc : P c)
    (hstep : ∀ c' hash entry, P c' → c.inFlight.lookup hash = some entry →
      entry.secondaryId = secondary → c'.inFlight.lookup hash = some entry →
      P (c'.recoverInFlight hash entry).1 ∧ ∀ m ∈ (c'.recoverInFlight hash entry).2, Q m) :
    P (c.recoverInFlightForDeadSecondary secondary).1 ∧
      ∀ m ∈ (c.recoverInFlightForDeadSecondary secondary).2, Q m := by
  have hall : ∀ (entries : List (Sigma fun _ : TaskHash => InFlightEntry I))
      (acc : Coordinator I × List (ClusterMutation I)), (entries.map Sigma.fst).Nodup →
      P acc.1 → (∀ m ∈ acc.2, Q m) →
      (∀ e ∈ entries, (c.inFlight.lookup e.1 = some e.2 ∧ e.2.secondaryId = secondary) ∧
        acc.1.inFlight.lookup e.1 = some e.2) →
      let r := entries.foldl (fun acc e => ((acc.1.recoverInFlight e.1 e.2).1,
        acc.2 ++ (acc.1.recoverInFlight e.1 e.2).2)) acc
      P r.1 ∧ ∀ m ∈ r.2, Q m := by
    intro entries
    induction entries with
    | nil => exact fun acc _ hP hQ _ => ⟨hP, hQ⟩
    | cons e entries ih =>
      rintro ⟨c', mutations⟩ hkeys hP hQ hentries
      rw [map_cons, nodup_cons] at hkeys
      have hnot : e.1 ∉ entries.map Sigma.fst := hkeys.1
      obtain ⟨⟨hentry, hsecondary⟩, hstill⟩ := hentries e mem_cons_self
      obtain ⟨hP', hQ'⟩ := hstep c' e.1 e.2 hP hentry hsecondary hstill
      refine ih _ hkeys.2 hP' (fun m hm => ?_) fun e' he' => ?_
      · exact (mem_append.mp hm).elim (hQ m) (hQ' m)
      · have hinFlight : (c'.recoverInFlight e.1 e.2).1.inFlight = c'.inFlight.erase e.1 := by
          unfold recoverInFlight
          dsimp only
          split_ifs <;> rfl
        have hne : e'.1 ≠ e.1 := fun heq => hnot (heq ▸ mem_map_of_mem he')
        obtain ⟨hfirst, hstill'⟩ := hentries e' (mem_cons_of_mem _ he')
        refine ⟨hfirst, ?_⟩
        rw [hinFlight, HashMap.lookup_erase_eq, if_neg hne]
        exact hstill'
  exact hall _ (c, []) (NodupKeys.sublist filter_sublist c.inFlight.nodupKeys) hc
    (fun _ hm => by cases hm) fun e he => by
      obtain ⟨hmem, hsecondary⟩ := mem_filter.mp he
      have hentry := HashMap.mem_entries_iff.mp hmem
      exact ⟨⟨hentry, of_decide_eq_true hsecondary⟩, hentry⟩

/-- Mutations of other writers change the replica only. -/
theorem applyInbound_frame (ms : List (ClusterMutation I)) (c : Coordinator I) :
    ∃ cluster, (c.applyInbound ms).1 = { c with cluster } := by
  induction ms generalizing c with
  | nil => exact ⟨c.cluster, rfl⟩
  | cons m ms ih =>
    obtain ⟨cluster, heq⟩ := ih { c with cluster := (c.cluster.apply m).state }
    exact ⟨cluster, heq⟩

omit [DefaultHasher] [Identifier I] [RecordCodec I] [DonePayloadCodec] in
/-- The members that left take their slots along. -/
theorem evictAll_frame (departed : List String) (c : Coordinator I) :
    ∃ workers pool, departed.foldl evictSecondary c = { c with workers, pool } ∧
      c.pool.SameStock pool := by
  refine foldlRecOn (motive := fun c' : Coordinator I => ∃ workers pool,
    c' = { c with workers, pool } ∧ c.pool.SameStock pool) _ _ ⟨c.workers, c.pool, rfl, .refl _⟩ ?_
  rintro c' ⟨workers, pool, rfl, hpool⟩ secondary -
  exact ⟨_, _, rfl, hpool.trans (sameStock_releaseAll _ _)⟩

omit [DefaultHasher] [Identifier I] [RecordCodec I] [DonePayloadCodec] in
/-- Draining phases in turn brings nothing. -/
theorem draws_cascadeDrainDone (rounds : ℕ) (pool : PendingPool I) :
    pool.Draws 0 (pool.cascadeDrainDone rounds) := by
  induction rounds generalizing pool with
  | zero => exact (SameStock.refl pool).draws 0
  | succ rounds ih =>
    have hdrained : pool.SameStock pool.drainEmptyActivePhases :=
      (phasesMoved_foldl _ pool).sameStock
    have hreported : pool.drainEmptyActivePhases.SameStock
        pool.drainEmptyActivePhases.pollDrainTransitions.1 := sameStock_of_eq rfl rfl rfl
    have hpolled := (hdrained.trans hreported).draws 0
    have hmarked : ∀ (phases : List PhaseId) (pool' : PendingPool I), pool.Draws 0 pool' →
        pool.Draws 0 (phases.foldl markPhaseDone pool') := fun phases pool' h =>
      foldlRecOn (motive := fun pool' => pool.Draws 0 pool') _ _ h
        fun _ h _ _ => h.trans draws_markPhaseDone
    unfold cascadeDrainDone
    dsimp only
    split_ifs
    · exact hpolled
    · exact (hmarked _ _ hpolled).trans (ih _)

end DynRunner.Coordinator
