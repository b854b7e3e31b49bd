import DynRunner.Primary.Settling

/-!
# The in-flight counts over whole runs

The count of a phase is the number of its tasks that have been dispatched and not settled, in every
run in which no step reaches one of the ways to count a task twice or not at all: a permanent
failure that is commanded counts down twice, whether its task was in flight or not; a failed setup
task takes the same way after its entry is gone; the death of the executor of a setup task drops the
entry without counting; hydration counts an id once, and imports as well; a terminal whose slot is
gone leaves the entry; and a task that is offered again stays among the completed ones.
-/

namespace DynRunner

open HashMap PendingPool InFlightEntry List

variable {I : Type}

/-- The running tasks of a ledger have different ids and count for their phases, and none of them
is settled as well. -/
structure ClusterState.RunningCounted (s : ClusterState I) : Prop where
  ids : (s.inherited.map fun e => e.2.task.taskId).Nodup
  counts : ∀ e ∈ s.inherited, e.2.Counts
  fat : ∀ e ∈ s.inherited, e.1 ∉ s.settled.index

namespace Coordinator

section Hydration

variable {s : ClusterState I}

/-- The entries that hydration makes and the ids that it counts, side by side. -/
theorem tallies_markTasksInFlight (entries : List (TaskHash × InFlightEntry I))
    (hcounted : ∀ e ∈ entries, e.2.Counts) (hhashes : (entries.map Prod.fst).Nodup)
    (hids : (entries.map fun e => e.2.task.taskId).Nodup) (pool : PendingPool I)
    (m : HashMap TaskHash (InFlightEntry I))
    (hcounts : TalliesSome pool.inFlightPerPhase counted m)
    (hnew : ∀ e ∈ entries, m.lookup e.1 = none ∧ e.2.task.taskId ∉ pool.inFlightTasks) :
    TalliesSome (pool.markTasksInFlight
        (entries.map fun e => (e.2.task.taskId, e.2.phase))).inFlightPerPhase
      counted (entries.foldl (fun m e => m.insert e.1 e.2) m) := by
  induction entries generalizing pool m with
  | nil => exact hcounts
  | cons e entries ih =>
    obtain ⟨hash, entry⟩ := e
    rw [map_cons, nodup_cons] at hhashes hids
    obtain ⟨hlookup, hid⟩ := hnew _ mem_cons_self
    have hmark : pool.markTasksInFlight
        (((hash, entry) :: entries).map fun e : TaskHash × InFlightEntry I =>
          (e.2.task.taskId, e.2.phase)) =
        (({ pool with inFlightTasks := insert entry.task.taskId pool.inFlightTasks }).markInFlight
          entry.phase).markTasksInFlight
            (entries.map fun e : TaskHash × InFlightEntry I => (e.2.task.taskId, e.2.phase)) := by
      rw [markTasksInFlight, map_cons, foldl_cons]
      dsimp only
      rw [if_neg hid]
      rfl
    rw [hmark, foldl_cons]
    refine ih (fun e he => hcounted e (mem_cons_of_mem _ he)) hhashes.2 hids.2
      (({ pool with inFlightTasks := insert entry.task.taskId pool.inFlightTasks }).markInFlight
        entry.phase) (m.insert hash entry)
      (hcounts.insert hlookup (counted_of_counts (hcounted _ mem_cons_self))) fun e he => ?_
    obtain ⟨hlookup', hid'⟩ := hnew e (mem_cons_of_mem _ he)
    have hnot : hash ∉ entries.map Prod.fst := hhashes.1
    have hhash : e.1 ≠ hash := by
      rintro rfl
      exact hnot (mem_map_of_mem he)
    have hne : e.2.task.taskId ≠ entry.task.taskId := by
      intro heq
      have hmem : e.2.task.taskId ∈ entries.map fun e => e.2.task.taskId := mem_map_of_mem he
      exact hids.1 (heq ▸ hmem)
    refine ⟨?_, ?_⟩
    · rw [lookup_insert_eq, if_neg hhash]
      exact hlookup'
    · change e.2.task.taskId ∉ insert entry.task.taskId pool.inFlightTasks
      simp [hne, hid']

/-- A fresh pool counts nothing. -/
theorem tallies_fresh (phaseSet : List PhaseId) (deps : HashMap PhaseId (List PhaseId)) :
    TalliesSome (fresh phaseSet deps : PendingPool I).inFlightPerPhase
      counted (∅ : HashMap TaskHash (InFlightEntry I)) := by
  intro p
  change ((phaseSet.foldr (fun p m => m.insert p 0) (∅ : HashMap PhaseId ℕ)).lookup p).getD 0 = 0
  induction phaseSet with
  | nil => rfl
  | cons q phaseSet ih =>
    rw [foldr_cons, lookup_insert_eq]
    split_ifs
    · rfl
    · exact ih

/-- Written over, a map agrees with the one that was empty before. -/
theorem lookup_foldl_insert_congr (entries : List (TaskHash × InFlightEntry I))
    (m m' : HashMap TaskHash (InFlightEntry I))
    (hsame : ∀ hash, hash ∉ entries.map Prod.fst → m.lookup hash = m'.lookup hash)
    (hash : TaskHash) : (entries.foldl (fun m e => m.insert e.1 e.2) m).lookup hash =
      (entries.foldl (fun m e => m.insert e.1 e.2) m').lookup hash := by
  induction entries generalizing m m' with
  | nil => exact hsame hash not_mem_nil
  | cons e entries ih =>
    refine ih _ _ fun x hx => ?_
    rw [lookup_insert_eq, lookup_insert_eq]
    split_ifs with hxe
    · rfl
    · exact hsame x (by simp [hxe, hx])

/-- What is in flight before a hydration is written over by it. -/
theorem lookup_hydrated {c₀ : Coordinator I}
    (hold : ∀ hash, hash ∈ c₀.inFlight → hash ∈ c₀.cluster.inherited.map Prod.fst)
    (hash : TaskHash) :
    (c₀.cluster.inherited.foldl (fun m e => m.insert e.1 e.2) c₀.inFlight).lookup hash =
      (c₀.cluster.inherited.foldl (fun m e => m.insert e.1 e.2)
        (∅ : HashMap TaskHash (InFlightEntry I))).lookup hash := by
  refine lookup_foldl_insert_congr _ _ _ (fun x hx => ?_) hash
  exact AList.lookup_eq_none.mpr fun hmem => hx (hold x hmem)

/-- After a hydration everything in flight is inherited. -/
theorem mem_inherited_of_hydrated {c₀ : Coordinator I} {entry : InFlightEntry I}
    (hold : ∀ hash, hash ∈ c₀.inFlight → hash ∈ c₀.cluster.inherited.map Prod.fst)
    {hash : TaskHash} (hentry : (c₀.cluster.inherited.foldl (fun m e => m.insert e.1 e.2)
      c₀.inFlight).lookup hash = some entry) : (hash, entry) ∈ c₀.cluster.inherited := by
  rw [lookup_hydrated hold] at hentry
  rcases mem_of_lookup_foldl_insert hentry with hmem | hnone
  · exact hmem
  · cases hnone

/-- After hydration the counters are right if the running tasks have different ids and all count:
the pool counts each id once, and every kind. -/
theorem accounted_hydrated {fleet : Fleet I} {c₀ c : Coordinator I}
    (hold : ∀ hash, hash ∈ c₀.inFlight → hash ∈ c₀.cluster.inherited.map Prod.fst)
    (hrunning : c₀.cluster.RunningCounted) (hhydrate : hydrateFromClusterState fleet c₀ = .ok c) :
    c.Accounted := by
  obtain ⟨pool, workers, hpool, rfl⟩ := hydrateFromClusterState_eq_ok hhydrate
  obtain ⟨phaseSet, extended, hextend, hfinal⟩ := hydratePool_eq_ok hpool
  have hdraws := draws_extend hextend
  have hended : extended.SameStock pool := by
    rw [hfinal]
    split_ifs
    · exact .refl extended
    · exact phasesMoved_seedCompletedPhases.sameStock
  have hseeded : (seedPool c₀.cluster (fresh phaseSet c₀.cluster.phaseDepsMap)).Filed :=
    filed_fresh.congr (seedPool_same _ _).1
  refine ⟨?_, ?_, hended.filed (hdraws.filed hseeded)⟩
  · rw [hended.inFlight, hdraws.inFlight]
    have hcounted : TalliesSome
        (seedPool c₀.cluster (fresh phaseSet c₀.cluster.phaseDepsMap)).inFlightPerPhase counted
        (c₀.cluster.inherited.foldl (fun m e => m.insert e.1 e.2) ∅) :=
      tallies_markTasksInFlight c₀.cluster.inherited hrunning.counts nodup_inherited hrunning.ids
        _ ∅ (tallies_fresh phaseSet c₀.cluster.phaseDepsMap) fun e _ =>
          ⟨rfl, Finset.notMem_empty _⟩
    intro p
    refine (hcounted p).trans (count_perm _ ?_)
    refine lookup_ext (AList.nodupKeys _) (AList.nodupKeys _) fun hash entry => ?_
    exact iff_of_eq (congrArg (entry ∈ ·) (lookup_hydrated hold hash).symm)
  · intro hash entry hentry
    obtain ⟨st, secondary, worker, version, -, -, heq⟩ :=
      exists_of_mem_inherited (mem_inherited_of_hydrated hold hentry)
    dsimp only at heq
    rw [heq]
    rfl

/-- What the seeds contribute comes from a fat or from a settled entry. -/
theorem exists_of_mem_hydrationSeeds {α : Type} {f : HydrationSeed I → List α} {x : α}
    (h : x ∈ s.hydrationSeeds.flatMap f) :
    (∃ hash st, s.tasks.lookup hash = some st ∧ x ∈ f (s.taskSeed hash st)) ∨
      ∃ hash entry, hash ∈ s.settled.index ∧ x ∈ f (ClusterState.settledSeed hash entry) := by
  rw [ClusterState.hydrationSeeds, flatMap_append, flatMap_map, flatMap_map, mem_append,
    mem_flatMap, mem_flatMap] at h
  rcases h with ⟨e, he, hx⟩ | ⟨e, he, hx⟩
  · exact .inl ⟨e.1, e.2, mem_entries_iff.mp he, hx⟩
  · exact .inr ⟨e.1, e.2, mem_iff_lookup.mpr ⟨e.2, mem_entries_iff.mp he⟩, hx⟩

/-- The seed of a running task settles nothing, and any other one at most its own task. -/
theorem taskSeed_settles {hash x : TaskHash} {st : TaskState I}
    (hx : x ∈ (s.taskSeed hash st).completed ∨ x ∈ (s.taskSeed hash st).failed.map Prod.fst) :
    x = hash ∧ ∀ secondary worker version, st.status ≠ .inFlight secondary worker version := by
  unfold ClusterState.taskSeed at hx
  dsimp only at hx
  split_ifs at hx <;> try simp at hx
  all_goals
    split at hx <;> simp_all

/-- A settled entry settles its own task. -/
theorem settledSeed_settles {hash x : TaskHash} {entry : SettledEntry I}
    (hx : x ∈ (ClusterState.settledSeed hash entry).completed ∨
      x ∈ (ClusterState.settledSeed hash entry).failed.map Prod.fst) : x = hash := by
  unfold ClusterState.settledSeed at hx
  split at hx
  case h_4 =>
    split_ifs at hx
    · simp at hx
    · simpa using hx
  all_goals simpa using hx

/-- After hydration no running task is settled. -/
theorem unsettled_hydrated {fleet : Fleet I} {c₀ c : Coordinator I}
    (hold : ∀ hash, hash ∈ c₀.inFlight → hash ∈ c₀.cluster.inherited.map Prod.fst)
    (hrunning : c₀.cluster.RunningCounted) (hhydrate : hydrateFromClusterState fleet c₀ = .ok c) :
    c.Unsettled := by
  obtain ⟨pool, workers, -, rfl⟩ := hydrateFromClusterState_eq_ok hhydrate
  rintro hash ⟨entry, hentry, -⟩ hset
  have hmem := mem_inherited_of_hydrated hold hentry
  obtain ⟨st, secondary, worker, version, hst, hstatus, -⟩ := exists_of_mem_inherited hmem
  -- A terminal in the ledger is one of the same entry, or of a settled one.
  have hterminal : ∀ (f : HydrationSeed I → List TaskHash),
      (∀ seed : HydrationSeed I, ∀ x ∈ f seed, x ∈ seed.completed ∨ x ∈ seed.failed.map Prod.fst) →
      hash ∉ c₀.cluster.hydrationSeeds.flatMap f := by
    intro f hf hseed
    rcases exists_of_mem_hydrationSeeds hseed with ⟨x, st', hst', hx⟩ | ⟨x, entry', hx', hx⟩
    · obtain ⟨rfl, hnot⟩ := taskSeed_settles (hf _ _ hx)
      cases hst.symm.trans hst'
      exact hnot _ _ _ hstatus
    · obtain rfl := settledSeed_settles (hf _ _ hx)
      exact hrunning.fat _ hmem hx'
  rcases hset with hcompleted | hfailed
  · exact hterminal HydrationSeed.completed (fun _ _ => .inl) (mem_toFinset.mp hcompleted)
  · obtain ⟨kind, hkind⟩ := mem_iff_lookup.mp hfailed
    rcases mem_of_lookup_foldl_insert hkind with hmem' | hnone
    · refine hterminal (fun seed => seed.failed.map Prod.fst) (fun _ _ => .inr) ?_
      rw [← map_flatMap]
      exact mem_map_of_mem hmem'
    · cases hnone

end Hydration

section Runs

variable [DecidableEq I] [DefaultHasher] [Identifier I] [RecordCodec I] [DonePayloadCodec]
  (c : Coordinator I)

/-- A task that counts is neither in flight nor settled. -/
def Fresh (task : TaskInfo I) : Prop :=
  task.kind.countsForPhaseDrain = true ∧ computeTaskHash task ∉ c.inFlight ∧
    ¬ c.Settled (computeTaskHash task)

/-- Nothing of the phase of a task is in flight, and the task is not. -/
def Idle (hash : TaskHash) : Prop := ∀ p taskId,
  c.cluster.taskMetaForHash hash = some (p, taskId) → c.pool.inFlight p = 0 ∧ ¬ c.Running hash

/-- A report about a cell is not about a task that counts, and any other one settles its task. -/
def CompletesOnce (hash : TaskHash) : Prop :=
  if (c.cluster.affineIdForHash hash).isSome then ¬ c.Running hash
  else hash ∉ c.completedTasks → c.Ends hash

/-- A failure report that is not about a cell returns a task that counts and has not ended, or
settles its task while none of those that fail with it is in flight. -/
def FailsOnce (report : FailureReport) : Prop :=
  if (c.cluster.affineIdForHash report.taskHash).isSome then ¬ c.Running report.taskHash
  else if isBackpressureShaped report.errorMessage then
    ∀ entry, c.inFlight.lookup report.taskHash = some entry →
      entry.Counts ∧ c.cluster.viewIsTerminal report.taskHash = false
  else ¬ c.Settled report.taskHash → c.Ends report.taskHash ∧
    (c.recordFailure report.taskHash report.errorType report.errorMessage).2.Apart

/-- The slot of an earlier primary's task has its entry. -/
def AsksOnce (workerIdx : ℕ) : Prop := ∀ hash task,
  (c.workers[workerIdx]?).map RemoteWorkerState.state = some (.assigned hash task .inherited) →
    if c.cluster.viewIsTerminal hash then c.Ends hash
    else ∃ entry, c.inFlight.lookup hash = some entry ∧ entry.Counts ∧ task.phaseId = entry.phase

/-- Several terminals are settled one after the other. -/
def SettlesOnce (c : Coordinator I) : List TaskHash → Prop
  | [] => True
  | hash :: hashes => c.Apart ∧ c.Ends hash ∧ (c.settleLocalState hash).SettlesOnce hashes

/-- What is in flight when the pool is rebuilt is running in the ledger. -/
def RebuildsOnce : Prop := c.cluster.RunningCounted ∧
  ∀ hash, hash ∈ c.inFlight → hash ∈ c.cluster.inherited.map Prod.fst

/-- The terminals of a message are settled, and a rebuild meets the condition of a start. -/
def ReceivesOnce (departed : List String) (ms : List (ClusterMutation I)) : Prop :=
  let (received, _, terminals) := c.applyInbound ms
  received.SettlesOnce terminals ∧ (carriesTaskAdded ms = true →
    (received.settleInbound terminals departed).pool.hasQueuedDispatchable = false →
      (received.settleInbound terminals departed).RebuildsOnce)

/-- The steps that count every task once. -/
def CountsOnce (c : Coordinator I) (event : PrimaryEvent I) : Prop := c.Apart ∧ match event with
  | .dispatch _ _ key index _ => ∀ task evicted,
      c.pool.removeAt key index = some (task, evicted) → c.Fresh task
  | .assignSetup hash _ _ => ∀ task pool, c.takeSetupTask hash = some (task, pool) → c.Fresh task
  | .executeSetup hash outcome => ∀ task pool, outcome ≠ .success →
      c.takeSetupTask hash = some (task, pool) →
      (∃ taskId, c.cluster.taskMetaForHash hash = some (task.phaseId, taskId)) ∧
        c.pool.inFlight task.phaseId = 0
  | .setupTerminal hash outcome => ∀ entry, c.inFlight.lookup hash = some entry →
      entry.Counts ∧ (outcome ≠ .success →
        (∃ taskId, c.cluster.taskMetaForHash hash = some (entry.phase, taskId)) ∧
          c.pool.inFlight entry.phase = 1)
  | .dispatchAffineWork _ hash _ => ∀ st taken, c.cluster.tasks.lookup hash = some st →
      c.pool.takeFirstMatch (fun task => computeTaskHash task = hash) = some taken →
      c.Fresh (c.cluster.taskToInfo st)
  | .dispatchCell _ hash _ => ∀ st, c.cluster.tasks.lookup hash = some st →
      (c.cluster.taskToInfo st).kind.countsForPhaseDrain = false ∧
        ¬ c.Running (computeTaskHash (c.cluster.taskToInfo st))
  | .taskComplete _ _ hash _ => c.CompletesOnce hash
  | .taskFailed report => report.errorMessage ≠ taskAlreadyHeldWireMessage →
      report.errorMessage ≠ taskSupplantedByLiveHolderWireMessage → c.FailsOnce report
  | .illegallyAssigned _ _ assigned _ => ∀ entry, c.inFlight.lookup assigned = some entry →
      (entry.Counts ↔ (c.cluster.affineIdForHash assigned).isSome = false)
  | .taskRequest workerIdx => c.AsksOnce workerIdx
  | .secondaryDied secondary | .silentHeldWork secondary => ∀ hash entry,
      c.inFlight.lookup hash = some entry → entry.secondaryId = secondary → entry.Counts →
      entry.task.kind.isReassignable = true
  | .clusterMutation _ departed _ ms => c.ReceivesOnce departed ms
  | .pumpSpawnContinuation => ∀ hash, c.Running hash → c.cluster.containsTask hash = true
  | .failPermanent hash _ _ => c.Idle hash
  | .failPermanentBatch items => ∀ item ∈ items, c.Idle item.1
  | .unsatisfiable hash phaseId sent => sent = true → c.claimAffineWorkForFail hash phaseId = none
  | .doomed tasks => ∀ task ∈ tasks, c.claimAffineWorkForFail task.1 task.2 = none
  | _ => True

/-- The counters are right, and no running task is settled. -/
structure Balanced (c : Coordinator I) : Prop where
  accounted : c.Accounted
  unsettled : c.Unsettled

variable {c}

omit [DecidableEq I] [DefaultHasher] [Identifier I] [RecordCodec I] [DonePayloadCodec] in
/-- A balanced state counts what is outstanding. -/
theorem Balanced.counted (h : c.Balanced) (p : PhaseId) : c.pool.inFlight p = c.outstanding p := by
  refine (h.accounted.counts p).trans ?_
  rw [outstanding, HashMap.count, HashMap.count]
  refine countP_congr fun e he => ?_
  simp only [decide_eq_true_eq]
  refine ⟨fun hcounted => ⟨hcounted, ?_⟩, fun hcounted => hcounted.1⟩
  have hcounts : e.2.Counts := by
    by_contra hnot
    rw [counted_of_not_counts hnot] at hcounted
    cases hcounted
  exact not_or.mp (h.unsettled e.1 ⟨e.2, mem_entries_iff.mp he, hcounts⟩)

omit [DecidableEq I] [DefaultHasher] [Identifier I] [RecordCodec I] [DonePayloadCodec] in
/-- The same account with nothing running settled is balanced. -/
theorem Balanced.same {c' : Coordinator I} (h : c.Balanced) (hsame : c.SameAccount c')
    (hclears : c.Clears c') : c'.Balanced :=
  ⟨h.accounted.same hsame, h.unsettled.clears hclears⟩

omit [DecidableEq I] [DefaultHasher] [Identifier I] [RecordCodec I] [DonePayloadCodec] in
/-- Seating the workers again keeps the balance. -/
theorem Balanced.reconstructWorkers (h : c.Balanced) (fleet : Fleet I) :
    (reconstructWorkers fleet c).Balanced := by
  obtain ⟨workers, heq⟩ := reconstructWorkers_frame fleet c
  rw [heq]
  exact h.same (sameAccount_of_eq rfl rfl) (clears_of_eq rfl rfl rfl)

omit [DecidableEq I] in
/-- The terminals of a message are settled. -/
theorem Balanced.settleAll (hashes : List TaskHash) (h : c.Balanced)
    (hsettles : c.SettlesOnce hashes) : (hashes.foldl settleLocalState c).Balanced := by
  induction hashes generalizing c with
  | nil => exact h
  | cons hash hashes ih =>
    obtain ⟨hapart, hends, hrest⟩ := hsettles
    refine ih ⟨?_, h.unsettled.clears (clears_settleLocalState hapart hends)⟩ hrest
    exact accounted_settleLocalState h.accounted fun entry hentry => (hends entry hentry).1

omit [DecidableEq I] in
/-- A message of another writer keeps the balance. -/
theorem Balanced.handleClusterMutation (h : c.Balanced) (fleet : Fleet I) {departed : List String}
    (capacityGrew : Bool) {ms : List (ClusterMutation I)} (hreceives : c.ReceivesOnce departed ms) :
    (c.handleClusterMutation fleet departed capacityGrew ms).Balanced := by
  obtain ⟨cluster, hinbound⟩ := applyInbound_frame ms c
  unfold ReceivesOnce at hreceives
  unfold Coordinator.handleClusterMutation
  generalize c.applyInbound ms = received at hinbound hreceives ⊢
  obtain ⟨received, newlyPending, terminals⟩ := received
  dsimp only at hinbound hreceives ⊢
  subst hinbound
  obtain ⟨hsettles, hrebuilds⟩ := hreceives
  have hreceived : ({ c with cluster } : Coordinator I).Balanced :=
    h.same (sameAccount_of_eq rfl rfl) (clears_of_eq rfl rfl rfl)
  have hsettled :
      (({ c with cluster } : Coordinator I).settleInbound terminals departed).Balanced := by
    obtain ⟨workers, pool, heq, hpool⟩ := evictAll_frame departed
      (terminals.foldl settleLocalState { c with cluster })
    unfold settleInbound
    rw [heq]
    exact (hreceived.settleAll terminals hsettles).same ⟨rfl, hpool.inFlight, hpool.filed⟩
      (clears_of_eq rfl rfl rfl)
  generalize ({ c with cluster } : Coordinator I).settleInbound terminals departed = settled
    at hsettled hrebuilds ⊢
  have hadmitted : ∀ c', settled.admitInbound fleet (carriesTaskAdded ms) newlyPending = .ok c' →
      c'.Balanced := by
    intro c' hadmit
    unfold admitInbound at hadmit
    split_ifs at hadmit with hdiscovered
    · simp only [Bool.and_eq_true, Bool.not_eq_true'] at hdiscovered
      obtain ⟨hrunning, hold⟩ := hrebuilds hdiscovered.1 hdiscovered.2
      cases hhydrate : hydrateFromClusterState fleet settled with
      | error =>
        rw [hhydrate] at hadmit
        cases hadmit
      | ok rebuilt =>
        rw [hhydrate] at hadmit
        cases hadmit
        have hbase : rebuilt.Balanced :=
          ⟨accounted_hydrated hold hrunning hhydrate, unsettled_hydrated hold hrunning hhydrate⟩
        exact hbase.same (sameAccount_of_draws (draws_cascadeDrainDone _ _))
          (clears_of_eq rfl rfl rfl)
    · cases hadmit
      exact hsettled.same (sameAccount_of_draws (Draws.foldl draws_reinject newlyPending _))
        (clears_of_eq rfl rfl rfl)
  split
  · exact hsettled
  · rename_i c' hadmit
    have hbase := hadmitted c' hadmit
    have hcounted : ({ c' with totalTasks := c'.cluster.taskCount } : Coordinator I).Balanced :=
      hbase.same (sameAccount_of_eq rfl rfl) (clears_of_eq rfl rfl rfl)
    split_ifs
    · exact hcounted.reconstructWorkers fleet
    · exact hbase.reconstructWorkers fleet
    · exact hcounted
    · exact hbase

omit [DecidableEq I] [RecordCodec I] [DonePayloadCodec] in
/-- Nothing is claimed, so nothing fails. -/
theorem claimDoomed_of_none (tasks : List (TaskHash × PhaseId))
    (hnone : ∀ task ∈ tasks, c.claimAffineWorkForFail task.1 task.2 = none) :
    c.claimDoomed tasks = ([], c) := by
  induction tasks with
  | nil => rfl
  | cons task tasks ih =>
    obtain ⟨hfirst, hrest⟩ := forall_mem_cons.mp hnone
    unfold claimDoomed
    rw [hfirst]
    exact ih hrest

omit [DecidableEq I] in
/-- A completion keeps the balance. -/
theorem Balanced.handleTaskComplete (h : c.Balanced) {hash : TaskHash} {secondary : String}
    {workerId : ℕ} {resultData : Option (List ℕ)} (honce : c.CompletesOnce hash) :
    (c.handleTaskComplete secondary workerId hash resultData).Balanced := by
  unfold CompletesOnce at honce
  refine ⟨accounted_handleTaskComplete h.accounted (fun haffine entry hentry hcounts => ?_)
    (fun haffine hdone entry hentry => ?_),
    h.unsettled.clears (clears_handleTaskComplete fun haffine hdone => ?_)⟩
  · rw [if_pos haffine] at honce
    exact honce ⟨entry, hentry, hcounts⟩
  · rw [haffine, if_neg Bool.false_ne_true] at honce
    exact (honce hdone entry hentry).1
  · rw [haffine, if_neg Bool.false_ne_true] at honce
    exact honce hdone

/-- A failure report keeps the balance. -/
theorem Balanced.handleTaskFailed (h : c.Balanced) {report : FailureReport} (hapart : c.Apart)
    (honce : report.errorMessage ≠ taskAlreadyHeldWireMessage →
      report.errorMessage ≠ taskSupplantedByLiveHolderWireMessage → c.FailsOnce report) :
    (c.handleTaskFailed report).Balanced := by
  have hmoved : ∀ secondary workerId,
      (c.noteTaskAlreadyHeld secondary workerId report.taskHash).Balanced := by
    intro secondary workerId
    have hreseats := reconcileAuthoritativeHolder_reseats c secondary workerId report.taskHash
    exact ⟨h.accounted.reseated hreseats, h.unsettled.clears (clears_reseats hreseats)⟩
  by_cases hheld : report.errorMessage = taskAlreadyHeldWireMessage
  · rw [Coordinator.handleTaskFailed, if_pos hheld]
    exact hmoved _ _
  · by_cases hsupplanted : report.errorMessage = taskSupplantedByLiveHolderWireMessage
    · rw [Coordinator.handleTaskFailed, if_neg hheld, if_pos hsupplanted]
      split
      · exact hmoved _ _
      · exact h
    · have hfails := honce hheld hsupplanted
      unfold FailsOnce at hfails
      rw [Coordinator.handleTaskFailed, if_neg hheld, if_neg hsupplanted]
      split_ifs at hfails ⊢ with haffine hshape
      · exact ⟨accounted_handleAffineTaskFailed h.accounted fun entry hentry hcounts =>
          hfails ⟨entry, hentry, hcounts⟩,
          h.unsettled.clears (clears_handleAffineTaskFailed _ _ _ _ _ _)⟩
      · have hlive : report.taskHash ∈ c.inFlight →
            c.cluster.viewIsTerminal report.taskHash = false := fun hmem => by
          obtain ⟨entry, hentry⟩ := mem_iff_lookup.mp hmem
          exact (hfails entry hentry).2
        refine ⟨accounted_failDispatched h.accounted (fun entry hentry _ =>
          (hfails entry hentry).1) fun _ => hlive, h.unsettled.clears
            (clears_failDispatched hapart (fun _ => hlive) fun hnot => ?_)⟩
        rw [hshape] at hnot
        cases hnot
      · refine ⟨accounted_failDispatched h.accounted (fun entry hentry hcase => ?_)
          fun hshape' => absurd hshape' hshape, h.unsettled.clears (clears_failDispatched hapart
            (fun hshape' => absurd hshape' hshape) fun _ hset => hfails hset)⟩
        have hset := hcase.resolve_left hshape
        exact ((hfails (not_or.mpr hset)).1 entry hentry).1

/-- A step that counts every task once keeps the counts right. -/
theorem Balanced.step (h : c.Balanced) (event : PrimaryEvent I) (honce : c.CountsOnce event) :
    (c.step event).Balanced := by
  obtain ⟨hapart, honce⟩ := honce
  cases event with
  | dispatch workerIdx worker key index delivered =>
    have hcases := c.dispatchSelected_dispatches workerIdx worker key index delivered
    exact ⟨accounted_dispatches h.accounted (fun task evicted hremove =>
      ⟨(honce task evicted hremove).1, (honce task evicted hremove).2.1⟩) hcases,
      h.unsettled.dispatches (fun task evicted hremove => (honce task evicted hremove).2.2) hcases⟩
  | executeSetup hash outcome =>
    exact ⟨accounted_executeSetupLocally h.accounted honce,
      h.unsettled.clears (clears_executeSetupLocally hapart outcome)⟩
  | assignSetup hash member delivered =>
    refine ⟨accounted_assignSetupOffPrimary h.accounted fun task pool htake => ?_,
      h.unsettled.assignSetupOffPrimary member delivered fun task pool htake => ?_⟩
    · have hfresh := honce task pool htake
      rw [Fresh, hash_of_takeSetupTask htake] at hfresh
      exact ⟨hfresh.1, hfresh.2.1⟩
    · have hfresh := honce task pool htake
      rw [Fresh, hash_of_takeSetupTask htake] at hfresh
      exact hfresh.2.2
  | setupTerminal hash outcome =>
    exact ⟨accounted_handleSetupTerminal h.accounted honce,
      h.unsettled.clears (clears_handleSetupTerminal hapart outcome)⟩
  | dispatchAffineWork workerIdx hash delivered =>
    refine ⟨accounted_dispatchAffineWork h.accounted workerIdx delivered fun st taken hst htake =>
      ⟨(honce st taken hst htake).1, (honce st taken hst htake).2.1⟩, ?_⟩
    change (c.dispatchAffineWork workerIdx hash delivered).Unsettled
    unfold Coordinator.dispatchAffineWork
    split
    · exact h.unsettled
    · rename_i st hst
      dsimp only
      split
      · exact h.unsettled
      · rename_i task pool htake
        have htaken : ({ c with pool := pool.markInFlight (c.cluster.taskToInfo st).phaseId } :
            Coordinator I).Unsettled := h.unsettled.clears (clears_of_eq rfl rfl rfl)
        exact htaken.dispatchOrRequeue workerIdx delivered (honce st _ hst htake).2.2
  | dispatchCell workerIdx hash delivered =>
    refine ⟨accounted_dispatchCell h.accounted workerIdx delivered fun st hst =>
      ⟨(honce st hst).1, fun entry hentry hcounts => (honce st hst).2 ⟨entry, hentry, hcounts⟩⟩, ?_⟩
    change (c.dispatchCell workerIdx hash delivered).Unsettled
    unfold Coordinator.dispatchCell
    split
    · exact h.unsettled
    · rename_i st hst
      split_ifs
      · exact h.unsettled
      · refine h.unsettled.assigned workerIdx delivered fun hcounts => ?_
        rw [(honce st hst).1] at hcounts
        cases hcounts
  | taskComplete => exact h.handleTaskComplete honce
  | taskFailed => exact h.handleTaskFailed hapart honce
  | illegallyAssigned =>
    exact ⟨accounted_handleIllegallyAssigned h.accounted honce,
      h.unsettled.clears clears_handleIllegallyAssigned⟩
  | inflightRoster secondary current entries =>
    refine ⟨accounted_handleInflightRoster h.accounted secondary current entries,
      h.unsettled.clears ?_⟩
    change c.Clears (c.handleInflightRoster secondary current entries)
    unfold handleInflightRoster
    split_ifs
    · exact foldlRecOn (motive := fun c' : Coordinator I => c.Clears c') _ _ (.refl c)
        fun _ h _ _ => h.trans (clears_reseats (reconcileAuthoritativeHolder_reseats _ _ _ _))
    · exact .refl c
  | taskRequest workerIdx =>
    refine ⟨accounted_reconcileInheritedSlot h.accounted fun hash task hheld => ?_,
      h.unsettled.clears (clears_reconcileInheritedSlot hapart fun hash task hheld hterminal => ?_)⟩
    · have hasks := honce hash task hheld
      split_ifs at hasks ⊢
      · exact fun entry hentry => (hasks entry hentry).1
      · exact hasks
    · have hasks := honce hash task hheld
      rw [if_pos hterminal] at hasks
      exact hasks
  | secondaryDied secondary =>
    exact ⟨accounted_requeueDeadSecondary h.accounted honce,
      h.unsettled.clears (clears_requeueDeadSecondary c secondary)⟩
  | silentHeldWork secondary =>
    exact ⟨accounted_requeueSilentHeldWork h.accounted honce,
      h.unsettled.clears (clears_requeueSilentHeldWork c secondary)⟩
  | clusterMutation fleet departed capacityGrew ms =>
    exact h.handleClusterMutation fleet capacityGrew honce
  | capacityGrowth fleet => exact h.reconstructWorkers fleet
  | spawnTasks tasks => exact h.same sameAccount_applySpawnTasks (clears_applySpawnTasks tasks)
  | pumpSpawnContinuation =>
    exact h.same sameAccount_pumpSpawnContinuation (clears_pumpSpawnContinuation honce)
  | failPermanent hash error reason =>
    refine ⟨accounted_applyFailPermanent h.accounted fun p taskId hmeta => (honce p taskId hmeta).1,
      h.unsettled.clears ?_⟩
    cases hmeta : c.cluster.taskMetaForHash hash with
    | none =>
      change c.Clears (c.applyFailPermanent hash error reason).1
      rw [applyFailPermanent, failPermanentCascadeMutations, hmeta]
      exact .refl c
    | some => exact clears_applyFailPermanent hapart (honce _ _ hmeta).2
  | failPermanentBatch items =>
    exact ⟨accounted_applyFailPermanentBatch h.accounted fun item hitem p taskId hmeta =>
      (honce item hitem p taskId hmeta).1, h.unsettled.clears (clears_applyFailPermanentBatch hapart
        fun item hitem found hfound => (honce item hitem _ _ hfound).2)⟩
  | unsatisfiable hash phaseId sent =>
    change (c.failUnsatisfiableAffineWork hash phaseId sent).Balanced
    unfold failUnsatisfiableAffineWork
    split
    · exact h
    · rename_i c' hclaim
      obtain ⟨⟨task, pool⟩, htake, rfl⟩ := Option.map_eq_some_iff.mp hclaim
      split_ifs with hsent
      · cases (honce hsent).symm.trans hclaim
      · have hbase := h.accounted.same (sameAccount_of_sheds (sheds_takeFirstMatch htake))
        exact ⟨(hbase.countUp_countDown phaseId).same (sameAccount_onItemFinished _ phaseId none),
          h.unsettled.clears (clears_of_eq rfl rfl rfl)⟩
  | doomed tasks =>
    change (c.terminalizeDoomedAffineWork tasks).Balanced
    rw [terminalizeDoomedAffineWork, claimDoomed_of_none tasks honce]
    exact h
  | reinjectTask hash budgetLeft =>
    exact h.same sameAccount_applyReinjectTask (clears_applyReinjectTask budgetLeft)
  | updatePreferredSecondaries hash secondaries =>
    refine h.same sameAccount_applyUpdatePreferredSecondaries ?_
    change c.Clears (c.applyUpdatePreferredSecondaries hash secondaries).1
    unfold applyUpdatePreferredSecondaries
    split
    · exact (clears_of_eq rfl rfl rfl).trans (clears_applyAndBroadcast _ _)
    · exact .refl c
  | pollDrainTransitions | resurfaceDrainedPending =>
    exact h.same ⟨rfl, rfl, fun hfiled => hfiled.congr rfl⟩ (clears_of_eq rfl rfl rfl)
  | retryPhase plan phase kind budgetLeft =>
    exact h.same sameAccount_tryRunPhaseRetryBucket
      (clears_tryRunPhaseRetryBucket plan phase kind budgetLeft)
  | finalizePhase phase =>
    exact h.same sameAccount_finalizePhaseSoftFailures
      (clears_finalizePhaseSoftFailures hapart phase)
  | recordPhaseEnd =>
    exact h.same sameAccount_recordPhaseEnd
      ((clears_applyAndBroadcast c _).trans (clears_of_eq rfl rfl rfl))
  | drainEmptyActivePhases =>
    exact h.same (sameAccount_of_draws ((phasesMoved_foldl _ c.pool).sameStock.draws 0))
      (clears_of_eq rfl rfl rfl)
  | requeueOrphans depAlive =>
    exact h.same (sameAccount_requeueOrphans depAlive) (clears_of_eq rfl rfl rfl)
  | fleetDead =>
    exact h.same (sameAccount_of_draws (draws_drainQueued _)) (clears_of_eq rfl rfl rfl)

/-- The starts whose running tasks have different ids and count. -/
def StartsCounted (_ : Fleet I) (s : ClusterState I) : Prop := s.RunningCounted

/-- The counts are right throughout a run. -/
theorem Run.balanced (hrun : Run StartsCounted CountsOnce c) : c.Balanced := by
  refine hrun.induct (P := Balanced) ?_ fun c event h honce => h.step event honce
  intro fleet c₀ c hnew hstart hhydrate
  have hold : ∀ hash, hash ∈ c₀.inFlight → hash ∈ c₀.cluster.inherited.map Prod.fst := by
    rw [hnew]
    exact fun hash hmem => absurd hmem (AList.notMem_empty hash)
  exact ⟨accounted_hydrated hold hstart hhydrate, unsettled_hydrated hold hstart hhydrate⟩

/-- In every run that starts from running tasks with different ids that count and whose steps count
every task once, the in-flight count of every phase is the number of its tasks that were dispatched
and are not yet settled. -/
theorem inFlight_eq_outstanding (hrun : Run StartsCounted CountsOnce c) (p : PhaseId) :
    c.pool.inFlight p = c.outstanding p :=
  hrun.balanced.counted p

/-- **The drained pool ends no run with a counted task in flight**, in every run that starts from
running tasks with different ids that count and whose steps count every task once. -/
theorem not_running_of_poolDrainExit (hrun : Run StartsCounted CountsOnce c)
    (hexit : c.poolDrainExit = true) (hash : TaskHash) : ¬ c.Running hash := by
  rintro ⟨entry, hentry, hcounts⟩
  simp only [poolDrainExit, isRunComplete, PendingPool.isEmpty, Bool.and_eq_true, all_eq_true,
    decide_eq_true_eq] at hexit
  obtain ⟨⟨-, ⟨⟨-, hzero⟩, -⟩, -⟩, -⟩ := hexit
  have hcount := hrun.balanced.accounted.counts entry.phase
  have hnone : (c.pool.inFlightPerPhase.lookup entry.phase).getD 0 = 0 := by
    cases hlookup : c.pool.inFlightPerPhase.lookup entry.phase with
    | none => rfl
    | some n => exact hzero _ (mem_entries_iff.mpr hlookup)
  have habsent := countP_eq_zero.mp (hcount.symm.trans hnone) _ (mem_entries_iff.mpr hentry)
  exact habsent (decide_eq_true (counted_of_counts hcounts))

end Runs

end Coordinator

namespace Sample

open Coordinator

/-- A setup task of phase `"p"`. -/
def setupTask (taskId : String) : TaskInfo String := { task taskId [] with kind := .setup }

/-- A ledger with the given tasks pending. -/
def seeded (tasks : List (TaskInfo String)) : ClusterState String :=
  tasks.foldl (fun s t => (s.apply (.taskAdded (computeTaskHash t) t none)).state) .empty

/-- One secondary with two workers. -/
def twoWorkers : Fleet String := ⟨["w"], fun _ => some 2, fun _ => 0⟩

/-- A primary that has hydrated a ledger. -/
def hydrated (s : ClusterState String) : Coordinator String :=
  match hydrateFromClusterState twoWorkers (.start s (.fresh [] ∅)) with
  | .ok c => c
  | .error _ => .start s (.fresh [] ∅)

/-- Dispatch the first queued task of phase `"p"` to the first worker. -/
def dispatchFirst : PrimaryEvent String := .dispatch 0 0 ⟨"p", "t", noAffinity⟩ 0 true

/-- A task is dispatched, and the failure of another one that is queued is commanded. -/
def commandedFailure : Coordinator String :=
  (hydrated (seeded [task "b" [], task "a" []])).runAll
    [dispatchFirst, .failPermanent (computeTaskHash (task "b" [])) .nonRecoverable ""]

/-- A task is dispatched, and a setup task fails beside it. -/
def failedSetup : Coordinator String :=
  (hydrated (seeded [setupTask "s", task "a" []])).runAll
    [dispatchFirst, .executeSetup (computeTaskHash (setupTask "s")) (.failure "")]

/-- A setup task is given to a secondary, which dies. -/
def deadExecutor : Coordinator String :=
  (hydrated (seeded [setupTask "s"])).runAll
    [.assignSetup (computeTaskHash (setupTask "s")) "w" true, .secondaryDied "w"]

/-- Two tasks of different phases with one id are running. -/
def runningTwice : ClusterState String :=
  let there := { task "a" [] with phaseId := "q" }
  [(task "a" [], 0), (there, 1)].foldl
    (fun s t => (s.apply (.taskAssigned (computeTaskHash t.1) "w" t.2 ⟨0, 1⟩ 0)).state)
    (seeded [task "a" [], there])

/-- An import is running on a secondary. -/
def runningImport : ClusterState String :=
  let fetch : TaskInfo String := { task "i" [] with kind := .secondaryAffine }
  ((seeded [fetch]).apply (.taskAssigned (computeTaskHash fetch) "w" 0 ⟨0, 1⟩ 0)).state

/-- A task completes that was running on a secondary which has no slots. -/
def slotless : Coordinator String :=
  let hash := computeTaskHash (task "a" [])
  (hydrated ((seeded [task "a" []]).apply (.taskAssigned hash "x" 0 ⟨0, 1⟩ 0)).state).runAll
    [.taskComplete "x" 0 hash none]

/-- A task that could not be fulfilled before the promotion is offered again, dispatched and
completed. -/
def offeredAgain : Coordinator String :=
  let hash := computeTaskHash (task "a" [])
  (hydrated ((seeded [task "a" []]).apply
    (.taskFailed hash (.unfulfillable "") "" ⟨0, 1⟩ 0)).state).runAll
      [.reinjectTask hash true, dispatchFirst, .taskComplete "w" 0 hash none]

/-- A hydration that succeeds starts a run. -/
theorem run_hydrated {start : Fleet String → ClusterState String → Prop}
    {allowed : Coordinator String → PrimaryEvent String → Prop} {s : ClusterState String}
    (hstart : start twoWorkers s)
    (hok : (hydrateFromClusterState twoWorkers (.start s (.fresh [] ∅))).isOk = true) :
    Run start allowed (hydrated s) := by
  unfold hydrated
  cases hhydrate : hydrateFromClusterState twoWorkers (.start s (.fresh [] ∅)) with
  | error =>
    rw [hhydrate] at hok
    cases hok
  | ok => exact .hydrated rfl hstart hhydrate

/-- A run in which every start and every step is allowed. -/
abbrev AnyRun : Coordinator String → Prop := Run (fun _ _ => True) (fun _ _ => True)

/-- Any events continue a run. -/
theorem anyRun_runAll {c : Coordinator String} (hrun : AnyRun c)
    (events : List (PrimaryEvent String)) : AnyRun (c.runAll events) := by
  induction events generalizing c with
  | nil => exact hrun
  | cons event events ih => exact ih (.step event hrun trivial)

/-- **The in-flight counts of a phase are off**: after a commanded failure in a phase with a task
in flight, after a setup task failed beside one, after the death of the executor of a setup task,
after a promotion with two running tasks of one id or with a running import, after the completion of
a task whose slot is gone, and after a task was offered again that counts as completed. -/
theorem inFlight_miscounted : (AnyRun commandedFailure ∧ AnyRun failedSetup ∧ AnyRun deadExecutor ∧
        AnyRun (hydrated runningTwice) ∧ AnyRun (hydrated runningImport) ∧ AnyRun slotless ∧
        AnyRun offeredAgain) ∧
      (commandedFailure.pool.inFlight "p" = 0 ∧ commandedFailure.outstanding "p" = 1) ∧
      (failedSetup.pool.inFlight "p" = 0 ∧ failedSetup.outstanding "p" = 1) ∧
      (deadExecutor.pool.inFlight "p" = 1 ∧ deadExecutor.outstanding "p" = 0) ∧
      ((hydrated runningTwice).pool.inFlight "p" = 0 ∧
        (hydrated runningTwice).outstanding "p" = 1) ∧
      ((hydrated runningImport).pool.inFlight "p" = 1 ∧
        (hydrated runningImport).outstanding "p" = 0) ∧
      (slotless.pool.inFlight "p" = 1 ∧ slotless.outstanding "p" = 0) ∧
      (offeredAgain.pool.inFlight "p" = 1 ∧ offeredAgain.outstanding "p" = 0) := by
  refine ⟨⟨?_, ?_, ?_, ?_, ?_, ?_, ?_⟩, by decide +kernel⟩
  · exact anyRun_runAll (run_hydrated trivial (by decide +kernel)) _
  · exact anyRun_runAll (run_hydrated trivial (by decide +kernel)) _
  · exact anyRun_runAll (run_hydrated trivial (by decide +kernel)) _
  · exact run_hydrated trivial (by decide +kernel)
  · exact run_hydrated trivial (by decide +kernel)
  · exact anyRun_runAll (run_hydrated trivial (by decide +kernel)) _
  · exact anyRun_runAll (run_hydrated trivial (by decide +kernel)) _

/-- The pending setup task that the next two runs start from. -/
theorem run_setupTask {allowed : Coordinator String → PrimaryEvent String → Prop} :
    Run StartsCounted allowed (hydrated (seeded [setupTask "s"])) := by
  have hnone : (seeded [setupTask "s"]).inherited = [] := by decide +kernel
  refine run_hydrated ⟨?_, ?_, ?_⟩ (by decide +kernel)
  · rw [hnone]
    exact nodup_nil
  · rw [hnone]
    exact fun e he => by cases he
  · rw [hnone]
    exact fun e he => by cases he

/-- In the sample nothing is running. -/
theorem apart_setupTask : (hydrated (seeded [setupTask "s"])).Apart := by
  have hnone : (hydrated (seeded [setupTask "s"])).inFlight.entries = [] := by decide +kernel
  rintro task - ⟨entry, hentry, -⟩
  have hmem := mem_entries_iff.mpr hentry
  rw [hnone] at hmem
  cases hmem

/-- A setup task in flight is counted once. -/
theorem assignedSetup_counted : ((hydrated (seeded [setupTask "s"])).step
        (.assignSetup (computeTaskHash (setupTask "s")) "w" true)).pool.inFlight "p" =
      ((hydrated (seeded [setupTask "s"])).step
        (.assignSetup (computeTaskHash (setupTask "s")) "w" true)).outstanding "p" := by
  refine inFlight_eq_outstanding (.step _ run_setupTask ⟨apart_setupTask, ?_⟩) "p"
  intro task pool htake
  have hfresh : ∀ taken, (hydrated (seeded [setupTask "s"])).takeSetupTask
      (computeTaskHash (setupTask "s")) = some taken →
      taken.1.kind.countsForPhaseDrain = true := by
    have hall : ((hydrated (seeded [setupTask "s"])).takeSetupTask
      (computeTaskHash (setupTask "s"))).all (fun taken => taken.1.kind.countsForPhaseDrain) =
        true := by decide +kernel
    exact fun taken htaken => by rwa [htaken] at hall
  refine ⟨hfresh _ htake, ?_⟩
  rw [hash_of_takeSetupTask htake, Coordinator.Settled]
  decide +kernel

/-- A setup task that the primary has run leaves the pool drained, and nothing in flight. -/
theorem executedSetup_drained : ¬ ((hydrated (seeded [setupTask "s"])).step
      (.executeSetup (computeTaskHash (setupTask "s")) .success)).Running
        (computeTaskHash (setupTask "s")) := by
  refine not_running_of_poolDrainExit (.step _ run_setupTask ⟨apart_setupTask, ?_⟩)
    (by decide +kernel) _
  exact fun _ _ hfailed => absurd rfl hfailed

end Sample

end DynRunner
