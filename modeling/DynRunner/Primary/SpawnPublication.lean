import DynRunner.Primary.SpawnPlacement

/-!
# Spawned tasks are published

A batch of spawned tasks goes through two queues. The publication queue parks the tasks with a
dependency that neither the ledger nor the batch defines, and looks at them again when the next
batch comes. What it releases lines up and is published in chunks, each by a command of its own
behind the commands that are already waiting. A batch that comes in between does not see what is
lined up: its tasks that depend on such a task are parked, and when no further batch comes they stay
parked although their dependencies have been published. This does not happen when no task comes in
whose dependency is lined up, and the validation of the chunks refuses nothing.
-/

namespace DynRunner

open Originator PendingSpawnQueue List TaskInfo

variable {I : Type}

section Validated

variable [DefaultHasher] [Identifier I] {checks : SpawnChecks}

variable {l : List (TaskInfo I × ℕ)} {task : TaskInfo I}

/-- The tasks that pass come from the batch. -/
theorem SpawnChecks.of_mem_partition {seen : List TaskHash}
    (h : task ∈ (checks.partition seen l).1) : ∃ i, (task, i) ∈ l := by
  induction l generalizing seen with
  | nil => cases h
  | cons e l ih =>
    obtain ⟨first, idx⟩ := e
    rw [partition] at h
    cases herror : checks.error seen first with
    | some =>
      rw [herror] at h
      exact (ih h).imp fun i hi => mem_cons_of_mem _ hi
    | none =>
      rw [herror] at h
      rcases mem_cons.mp h with rfl | h
      · exact ⟨idx, mem_cons_self⟩
      · exact (ih h).imp fun i hi => mem_cons_of_mem _ hi

/-- A task whose dependencies are known and whose phase is open passes, unless its hash is there
already. -/
theorem SpawnChecks.mem_partition (checks : SpawnChecks) (seen : List TaskHash)
    (hknown : ∀ e ∈ l, checks.badDep e.1 = none)
    (hopen : ∀ e ∈ l, checks.phaseAcceptsRuntimeSpawn e.1.phaseId = true)
    {idx : ℕ} (h : (task, idx) ∈ l) :
    checks.isTaskPresentByHash (computeTaskHash task) = true ∨ computeTaskHash task ∈ seen ∨
      ∃ other ∈ (checks.partition seen l).1, computeTaskHash other = computeTaskHash task := by
  induction l generalizing seen with
  | nil => cases h
  | cons e l ih =>
    obtain ⟨first, i⟩ := e
    obtain ⟨hknown₀, hknown⟩ := forall_mem_cons.mp hknown
    obtain ⟨hopen₀, hopen⟩ := forall_mem_cons.mp hopen
    have hfirst : checks.isTaskPresentByHash (computeTaskHash first) = true ∨
        computeTaskHash first ∈ seen ∨
        ∃ other ∈ (checks.partition seen ((first, i) :: l)).1,
          computeTaskHash other = computeTaskHash first := by
      by_cases hpresent : checks.isTaskPresentByHash (computeTaskHash first) = true
      · exact .inl hpresent
      · by_cases hseen : computeTaskHash first ∈ seen
        · exact .inr (.inl hseen)
        · refine .inr (.inr ⟨first, ?_, rfl⟩)
          have hpass : checks.error seen first = none := by
            simp only [error, if_neg hpresent, if_neg hseen, hknown₀, hopen₀, if_true]
          rw [partition, hpass]
          exact mem_cons_self
    rcases mem_cons.mp h with heq | h
    · cases heq
      exact hfirst
    · rcases ih (if checks.isTaskPresentByHash (computeTaskHash first) then seen
        else computeTaskHash first :: seen) hknown hopen h with hpresent | hseen |
          ⟨other, hother, heq⟩
      · exact .inl hpresent
      · split at hseen
        · exact .inr (.inl hseen)
        · rcases mem_cons.mp hseen with heq | hseen
          · rw [heq]
            exact hfirst
          · exact .inr (.inl hseen)
      · refine .inr (.inr ⟨other, ?_, heq⟩)
        rw [partition]
        cases checks.error seen first with
        | some => exact hother
        | none => exact mem_cons_of_mem _ hother

end Validated

namespace Coordinator

/-- The tasks that are released and not yet published. -/
def linedUp (c : Coordinator I) : List (TaskInfo I) :=
  c.spawnContinuationQueue.flatMap SpawnContinuation.remaining

variable {c : Coordinator I} {phaseId : PhaseId} {taskId : String} {task : TaskInfo I}
  {tasks spawned : List (TaskInfo I)}

/-- A dependency is defined if the ledger has an entry for it. -/
theorem isDefined_iff :
    c.isDefined phaseId taskId = true ↔ ∃ h, c.cluster.HasEntry h phaseId taskId :=
  ClusterState.taskHashForDep_isSome_iff

/-- Routing the published tasks leaves both queues alone. -/
theorem queues_foldl_routeSpawned (hashes : List TaskHash) (c : Coordinator I) :
    (hashes.foldl routeSpawned c).spawnQueue = c.spawnQueue ∧
      (hashes.foldl routeSpawned c).spawnContinuationQueue = c.spawnContinuationQueue := by
  induction hashes generalizing c with
  | nil => exact ⟨rfl, rfl⟩
  | cons hash hashes ih =>
    have hone : (routeSpawned c hash).spawnQueue = c.spawnQueue ∧
        (routeSpawned c hash).spawnContinuationQueue = c.spawnContinuationQueue := by
      unfold routeSpawned
      cases c.cluster.tasks.lookup hash with
      | none => exact ⟨rfl, rfl⟩
      | some =>
        dsimp only
        split <;> exact ⟨rfl, rfl⟩
    rw [foldl_cons, (ih _).1, (ih _).2]
    exact hone

variable [DefaultHasher] [Identifier I]

/-- **A spawned task is published**: the ledger has it, and defines its identity. -/
def Published (c : Coordinator I) (task : TaskInfo I) : Prop :=
  c.cluster.containsTask (computeTaskHash task) = true ∧
    c.isDefined task.phaseId task.taskId = true

instance (c : Coordinator I) (task : TaskInfo I) : Decidable (c.Published task) :=
  inferInstanceAs (Decidable (_ ∧ _))

/-- **What the next chunk has to meet.** The phase of every task is open, every dependency is
defined or in the chunk, and tasks that share a hash share their identity. -/
def ChunkPasses (c : Coordinator I) : Prop :=
  ∀ task ∈ c.frontChunk, c.phaseAcceptsRuntimeSpawn task.phaseId = true ∧
    (∀ dep ∈ task.taskDependsOn, c.isDefined dep.phaseId dep.taskId = true ∨
      dep.identity ∈ c.frontChunk.map identity) ∧
    (c.cluster.containsTask (computeTaskHash task) = true →
      c.isDefined task.phaseId task.taskId = true) ∧
    ∀ other ∈ c.frontChunk, computeTaskHash other = computeTaskHash task →
      other.identity = task.identity

instance (c : Coordinator I) : Decidable c.ChunkPasses := by
  unfold ChunkPasses
  infer_instance

/-- The published tasks are tasks of the chunk. -/
theorem mem_frontChunk_of_mem_published (h : task ∈ c.published) : task ∈ c.frontChunk := by
  obtain ⟨i, hi⟩ := SpawnChecks.of_mem_partition h
  exact fst_mem_of_mem_zipIdx hi

/-- Of a chunk that passes, every task is in the ledger or published under its hash. -/
theorem ChunkPasses.mem_published (h : c.ChunkPasses) (htask : task ∈ c.frontChunk) :
    c.cluster.containsTask (computeTaskHash task) = true ∨
      ∃ other ∈ c.published, computeTaskHash other = computeTaskHash task := by
  have hmem : ∀ e ∈ c.frontChunk.zipIdx, e.1 ∈ c.frontChunk := fun e he => fst_mem_of_mem_zipIdx he
  obtain ⟨i, hi⟩ : ∃ i, (task, i) ∈ c.frontChunk.zipIdx := by
    obtain ⟨i, hi⟩ := mem_iff_getElem?.mp htask
    exact ⟨i, mem_zipIdx_iff_getElem?.mpr hi⟩
  have hpass := SpawnChecks.mem_partition
    ⟨c.cluster.containsTask, c.isDefined, c.phaseAcceptsRuntimeSpawn, c.frontChunk.map identity⟩ []
    (fun e he => find?_eq_none.mpr fun dep hdep => by
      rcases (h e.1 (hmem e he)).2.1 dep hdep with hdefined | hin
      · simp [hdefined]
      · simp [hin])
    (fun e he => (h e.1 (hmem e he)).1) hi
  exact hpass.imp_right (Or.resolve_left · not_mem_nil)

variable [RecordCodec I] [DonePayloadCodec]

/-- Publishing a chunk leaves both queues. -/
theorem queues_applySpawnTasksChunk (c : Coordinator I) (tasks : List (TaskInfo I))
    (baseIndex : ℕ) : (c.applySpawnTasksChunk tasks baseIndex).1.spawnQueue = c.spawnQueue ∧
      (c.applySpawnTasksChunk tasks baseIndex).1.spawnContinuationQueue =
        c.spawnContinuationQueue := by
  unfold applySpawnTasksChunk
  cases c.validateChunk tasks with
  | mk valid =>
    cases valid with
    | nil => exact ⟨rfl, rfl⟩
    | cons => exact queues_foldl_routeSpawned _ _

/-- A pump takes the chunk off what is lined up, and parks nothing. -/
theorem queues_pumpSpawnContinuation (c : Coordinator I) :
    c.pumpSpawnContinuation.1.spawnQueue = c.spawnQueue ∧
      c.linedUp = c.frontChunk ++ c.pumpSpawnContinuation.1.linedUp := by
  unfold pumpSpawnContinuation linedUp frontChunk
  cases hqueue : c.spawnContinuationQueue with
  | nil => exact ⟨rfl, by rw [hqueue]; rfl⟩
  | cons cont rest =>
    obtain ⟨hparked, hrest⟩ := queues_applySpawnTasksChunk { c with spawnContinuationQueue := rest }
      (cont.remaining.take applySpawnChunkSize) cont.nextBaseIndex
    refine ⟨hparked, ?_⟩
    have hsplit := (take_append_drop applySpawnChunkSize cont.remaining).symm
    dsimp only at hrest ⊢
    rw [hrest, flatMap_cons, head?_cons, Option.map_some, Option.getD_some]
    by_cases hempty : (cont.remaining.drop applySpawnChunkSize).isEmpty = true
    · rw [if_pos hempty]
      rw [List.isEmpty_iff] at hempty
      rw [hempty, List.append_nil] at hsplit
      rw [← hsplit]
    · rw [if_neg hempty, flatMap_cons, ← append_assoc, ← hsplit]

/-- **What a pump does to a ready ledger.** It stays ready, it has every published task under its
identity, and it has no identity beyond these and the ones it had. -/
theorem cluster_pump_of_ready (h : c.cluster.SpawnReady) :
    c.pumpSpawnContinuation.1.cluster.SpawnReady ∧
      (∀ task ∈ c.published, c.pumpSpawnContinuation.1.cluster.HasEntry (computeTaskHash task)
        task.phaseId task.taskId) ∧
      ∀ hash phaseId taskId, c.pumpSpawnContinuation.1.cluster.HasEntry hash phaseId taskId →
        c.cluster.HasEntry hash phaseId taskId ∨
          ∃ task ∈ c.published, task.phaseId = phaseId ∧ task.taskId = taskId := by
  obtain ⟨hnew, hdistinct⟩ := c.published_new
  have hawaiting := awaiting_spawnBatch (o := c.toOriginator) h hnew hdistinct
  have hmap := spawnBatch_map_identity c.toOriginator c.published
  have hsame := (reserveDefIds_spec c.toOriginator ∅ (c.published.map (·, none))).2
  obtain ⟨hready, hentered, horigin⟩ := hawaiting.foldl_spawnTask
    ⟨(c.toOriginator.spawnBatch c.published).2.cluster, .noOp, [], []⟩
  rw [← cluster_pumpSpawnContinuation] at hready hentered horigin
  refine ⟨hready, fun task htask => ?_, fun hash phaseId taskId hentry => ?_⟩
  · have hin := mem_map_of_mem (f := fun task => (computeTaskHash task, task.phaseId, task.taskId))
      htask
    rw [← hmap] at hin
    obtain ⟨e, he, heq⟩ := mem_map.mp hin
    simp only [Prod.mk.injEq] at heq
    rw [← heq.1, ← heq.2.1, ← heq.2.2]
    exact hentered e he
  · rcases horigin hash phaseId taskId hentry with hold | ⟨e, he, rfl, rfl⟩
    · have hcongr := congrArg (fun t : ClusterState I => t.HasEntry hash phaseId taskId) hsame
      exact .inl (hcongr.mp hold)
    · have hin := mem_map_of_mem (f := fun e : TaskInfo I × Option TaskDefId =>
        (computeTaskHash e.1, e.1.phaseId, e.1.taskId)) he
      rw [hmap] at hin
      obtain ⟨task, htask, heq⟩ := mem_map.mp hin
      simp only [Prod.mk.injEq] at heq
      exact .inr ⟨task, htask, heq.2⟩

/-- What is published stays so when the next chunk is applied. -/
theorem Published.pump (h : c.Published task) : c.pumpSpawnContinuation.1.Published task := by
  have hsame := (reserveDefIds_spec c.toOriginator ∅ (c.published.map (·, none))).2
  have hext := ClusterState.extends_foldl_spawnTask (c.toOriginator.spawnBatch c.published).1
    ⟨(c.toOriginator.spawnBatch c.published).2.cluster, .noOp, [], []⟩
  rw [← cluster_pumpSpawnContinuation] at hext
  obtain ⟨hash, hentry⟩ := isDefined_iff.mp h.2
  have hcontains := congrArg
    (fun t : ClusterState I => t.containsTask (computeTaskHash task) = true) hsame
  have hcongr := congrArg (fun t : ClusterState I => t.HasEntry hash task.phaseId task.taskId) hsame
  exact ⟨hext.containsTask (hcontains.mpr h.1),
    isDefined_iff.mpr ⟨hash, (hcongr.mpr hentry : _).extends hext⟩⟩

/-- Every task of a chunk that passes is published by it. -/
theorem ChunkPasses.published (h : c.ChunkPasses) (hready : c.cluster.SpawnReady)
    (htask : task ∈ c.frontChunk) : c.pumpSpawnContinuation.1.Published task := by
  obtain ⟨-, -, hknown, hshared⟩ := h task htask
  rcases h.mem_published htask with hin | ⟨other, hother, heq⟩
  · exact Published.pump ⟨hin, hknown hin⟩
  · obtain ⟨-, hentered, -⟩ := cluster_pump_of_ready hready
    have hentry := hentered other hother
    have hidentity := hshared other (mem_frontChunk_of_mem_published hother) heq
    simp only [identity, EmbeddingLike.apply_eq_iff_eq, Prod.mk.injEq] at hidentity
    rw [heq, hidentity.1, hidentity.2] at hentry
    exact ⟨hentry.containsTask, isDefined_iff.mpr ⟨_, hentry⟩⟩

/-- An identity that a pump defines is one of a task of the chunk. -/
theorem isDefined_of_pump (hready : c.cluster.SpawnReady)
    (h : c.pumpSpawnContinuation.1.isDefined phaseId taskId = true) :
    c.isDefined phaseId taskId = true ∨
      ∃ task ∈ c.frontChunk, task.identity = toLex (phaseId, taskId) := by
  obtain ⟨-, -, horigin⟩ := cluster_pump_of_ready hready
  obtain ⟨hash, hentry⟩ := isDefined_iff.mp h
  rcases horigin hash phaseId taskId hentry with hold | ⟨task, htask, rfl, rfl⟩
  · exact .inl (isDefined_iff.mpr ⟨hash, hold⟩)
  · exact .inr ⟨task, mem_frontChunk_of_mem_published htask, rfl⟩

/-- What a batch without a repeated identity does: the ledger stays, and the admitted tasks line
up. -/
theorem applySpawnTasks_admitted
    (hne : tasks ≠ []) (hdupes : detectInBatchDupes ∅ tasks.zipIdx = []) :
    (c.applySpawnTasks tasks).cluster = c.cluster ∧
      (c.applySpawnTasks tasks).spawnQueue = (c.spawnQueue.admitBatch tasks c.isDefined).1 ∧
      (c.applySpawnTasks tasks).linedUp =
        c.linedUp ++ (c.spawnQueue.admitBatch tasks c.isDefined).2 := by
  rw [applySpawnTasks, if_neg (by simpa using hne), hdupes]
  refine ⟨rfl, rfl, ?_⟩
  unfold linedUp
  dsimp only
  by_cases hempty : (c.spawnQueue.admitBatch tasks c.isDefined).2.isEmpty = true
  · rw [if_pos hempty, isEmpty_iff.mp hempty, append_nil]
  · rw [if_neg hempty, flatMap_append, flatMap_singleton]

/-- Where the spawned tasks are. -/
structure Routed (c : Coordinator I) (spawned : List (TaskInfo I)) : Prop where
  ready : c.cluster.SpawnReady
  /-- No task is lost. -/
  somewhere : ∀ task ∈ spawned, c.Published task ∨ task ∈ c.linedUp ∨
    ∃ p ∈ c.spawnQueue.parked, p.task = task
  /-- A parked task waits for something. -/
  waits : ∀ p ∈ c.spawnQueue.parked, p.unmet ≠ ∅
  /-- What a parked task waits for is a dependency of it, not defined and not about to be. -/
  missing : ∀ p ∈ c.spawnQueue.parked, ∀ identity ∈ p.unmet,
    (∃ dep ∈ p.task.taskDependsOn, dep.identity = identity) ∧
      c.isDefined (ofLex identity).1 (ofLex identity).2 = false ∧
      identity ∉ c.linedUp.map TaskInfo.identity

/-- A batch none of whose tasks depends on a task that is lined up. -/
theorem Routed.applySpawnTasks
    (h : c.Routed spawned) (hdupes : detectInBatchDupes ∅ tasks.zipIdx = [])
    (hdeps : ∀ task ∈ tasks, ∀ dep ∈ task.taskDependsOn, c.isDefined dep.phaseId dep.taskId = true ∨
        dep.identity ∉ c.linedUp.map identity) :
    (c.applySpawnTasks tasks).Routed (spawned ++ tasks) := by
  by_cases hne : tasks = []
  · subst hne
    rw [append_nil]
    exact h
  obtain ⟨hcluster, hqueue, hlined⟩ := applySpawnTasks_admitted hne hdupes
  have hdefined : (c.applySpawnTasks tasks).isDefined = c.isDefined := by
    funext phaseId taskId
    rw [isDefined, isDefined, hcluster]
  refine ⟨hcluster ▸ h.ready, fun task htask => ?_, fun p hp => ?_, fun p hp identity hmem => ?_⟩
  · rw [Published, hdefined, hcluster, hlined, hqueue, mem_append, or_assoc]
    have hadmitted : (task ∈ tasks ∨ ∃ p ∈ c.spawnQueue.parked, p.task = task) → _ :=
      mem_admitBatch c.spawnQueue tasks c.isDefined
    rcases mem_append.mp htask with hold | hin
    · rcases h.somewhere task hold with hpublished | hlined | hparked
      · exact .inl hpublished
      · exact .inr (.inl hlined)
      · exact .inr (.inr (hadmitted (.inr hparked)))
    · exact .inr (.inr (hadmitted (.inl hin)))
  · rw [hqueue] at hp
    exact (mem_parked_admitBatch _ _ _ hp).1
  · rw [hqueue] at hp
    obtain ⟨-, hunmet, horigin⟩ := mem_parked_admitBatch _ _ _ hp
    obtain ⟨hundefined, hreleased⟩ := hunmet identity hmem
    rw [hdefined, hlined, map_append, mem_append, not_or]
    have hnew :
        identity ∉ ((c.spawnQueue.admitBatch tasks c.isDefined).2).map TaskInfo.identity := by
      intro hin
      obtain ⟨task, htask, heq⟩ := mem_map.mp hin
      exact hreleased task htask heq
    rcases horigin with ⟨hin, hdep⟩ | ⟨p₀, hp₀, htask, hsub⟩
    · obtain ⟨dep, hmem', rfl⟩ := hdep identity hmem
      refine ⟨⟨dep, hmem', rfl⟩, hundefined, ?_, hnew⟩
      refine (hdeps p.task hin dep hmem').resolve_left fun hdefined' => ?_
      rw [show c.isDefined dep.phaseId dep.taskId = false from hundefined] at hdefined'
      cases hdefined'
    · obtain ⟨hdep, -, hold⟩ := h.missing p₀ hp₀ identity (hsub hmem)
      rw [htask]
      exact ⟨hdep, hundefined, hold, hnew⟩

/-- A chunk that passes. -/
theorem Routed.pump (h : c.Routed spawned)
    (hpass : c.ChunkPasses) : c.pumpSpawnContinuation.1.Routed spawned := by
  obtain ⟨hqueue, hlined⟩ := queues_pumpSpawnContinuation c
  refine ⟨(cluster_pump_of_ready h.ready).1, fun task htask => ?_, ?_, fun p hp identity hmem => ?_⟩
  · rw [hqueue]
    rcases h.somewhere task htask with hpublished | hin | hparked
    · exact .inl hpublished.pump
    · rw [hlined] at hin
      rcases mem_append.mp hin with hin | hin
      · exact .inl (hpass.published h.ready hin)
      · exact .inr (.inl hin)
    · exact .inr (.inr hparked)
  · rw [hqueue]
    exact h.waits
  · rw [hqueue] at hp
    obtain ⟨hdep, hundefined, hnot⟩ := h.missing p hp identity hmem
    rw [hlined, map_append, mem_append, not_or] at hnot
    refine ⟨hdep, ?_, hnot.2⟩
    by_contra hdefined
    rcases isDefined_of_pump h.ready (Bool.not_eq_false _ ▸ hdefined) with hold | ⟨task, htask, heq⟩
    · rw [hundefined] at hold
      cases hold
    · exact hnot.1 (mem_map.mpr ⟨task, htask, heq⟩)

end Coordinator

/-! ## The command channel -/

/-- The commands that concern spawned tasks. -/
inductive SpawnCommand (I : Type)
  | spawnTasks (tasks : List (TaskInfo I))
  | pumpSpawnContinuation

/-- The primary with the commands that wait in its channel, the kicks that found the channel full
and wait for a place in it, and all the tasks of the batches handled so far. -/
structure SpawnChannel (I : Type) where
  /-- The primary. -/
  coordinator : Coordinator I
  /-- The commands in its channel. -/
  commands : List (SpawnCommand I)
  /-- The kicks that found the channel full. -/
  parkedKicks : ℕ
  /-- All tasks that were ever spawned. -/
  spawned : List (TaskInfo I)

/-- A producer sends a batch, the primary handles the command in front (`full` says whether a kick
finds the channel full), or a waiting kick gets its place. -/
inductive SpawnEvent (I : Type)
  | submit (tasks : List (TaskInfo I))
  | handle (full : Bool)
  | unpark

namespace SpawnChannel

/-- `kick_spawn_continuation`. -/
def kickSpawnContinuation (w : SpawnChannel I) (full : Bool) : SpawnChannel I :=
  if full then { w with parkedKicks := w.parkedKicks + 1 }
  else { w with commands := w.commands ++ [.pumpSpawnContinuation] }

variable {w : SpawnChannel I} {full : Bool}

@[simp] theorem coordinator_kickSpawnContinuation :
    (w.kickSpawnContinuation full).coordinator = w.coordinator := by
  cases full <;> rfl

@[simp] theorem spawned_kickSpawnContinuation :
    (w.kickSpawnContinuation full).spawned = w.spawned := by
  cases full <;> rfl

/-- The pump is on its way. -/
def Kicked (w : SpawnChannel I) : Prop :=
  SpawnCommand.pumpSpawnContinuation ∈ w.commands ∨ 0 < w.parkedKicks

/-- A kick is in the channel or its retry is. -/
theorem kicked_kickSpawnContinuation : (w.kickSpawnContinuation full).Kicked := by
  cases full with
  | false => exact .inl (mem_append_right _ (mem_singleton_self _))
  | true => exact .inr (Nat.succ_pos _)

variable [DefaultHasher] [Identifier I] [RecordCodec I] [DonePayloadCodec]

/-- The handler of the command in front. A batch kicks the pump if nothing was lined up before, a
pump if something is left. -/
def handle (w : SpawnChannel I) (full : Bool) : SpawnChannel I :=
  match w.commands with
  | [] => w
  | .spawnTasks tasks :: rest =>
    let coordinator := w.coordinator.applySpawnTasks tasks
    let next := { w with coordinator, commands := rest, spawned := w.spawned ++ tasks }
    if w.coordinator.spawnContinuationQueue.isEmpty && !coordinator.spawnContinuationQueue.isEmpty
    then next.kickSpawnContinuation full else next
  | .pumpSpawnContinuation :: rest =>
    let coordinator := w.coordinator.pumpSpawnContinuation.1
    let next := { w with coordinator, commands := rest }
    if coordinator.spawnContinuationQueue.isEmpty then next else next.kickSpawnContinuation full

/-- One event. -/
def step (w : SpawnChannel I) : SpawnEvent I → SpawnChannel I
  | .submit tasks => { w with commands := w.commands ++ [.spawnTasks tasks] }
  | .handle full => w.handle full
  | .unpark =>
    if w.parkedKicks = 0 then w
    else { w with
      parkedKicks := w.parkedKicks - 1
      commands := w.commands ++ [.pumpSpawnContinuation] }

/-- **What the command in front has to meet.** A batch repeats no identity, and none of its tasks
depends on a task that is lined up; the next chunk passes the validation. -/
def Orderly (w : SpawnChannel I) : SpawnEvent I → Prop
  | .handle _ => match w.commands with
    | [] => True
    | .spawnTasks tasks :: _ => detectInBatchDupes ∅ tasks.zipIdx = [] ∧
      ∀ task ∈ tasks, ∀ dep ∈ task.taskDependsOn,
        w.coordinator.isDefined dep.phaseId dep.taskId = true ∨
          dep.identity ∉ w.coordinator.linedUp.map identity
    | .pumpSpawnContinuation :: _ => w.coordinator.ChunkPasses
  | _ => True

instance (w : SpawnChannel I) (event : SpawnEvent I) : Decidable (w.Orderly event) := by
  unfold Orderly
  split
  · split <;> infer_instance
  · infer_instance

/-- A primary before its first batch. -/
structure Idle (w : SpawnChannel I) : Prop where
  ready : w.coordinator.cluster.SpawnReady
  parked : w.coordinator.spawnQueue.parked = []
  queue : w.coordinator.spawnContinuationQueue = []
  spawned : w.spawned = []

/-- The states of the runs whose commands are all in order. -/
def Reached : SpawnChannel I → Prop := RunsTo step Idle Orderly

/-- The spawned tasks are routed, and the pump comes as long as something is lined up. -/
structure InHand (w : SpawnChannel I) : Prop where
  routed : w.coordinator.Routed w.spawned
  kicked : w.coordinator.spawnContinuationQueue ≠ [] → w.Kicked

omit [RecordCodec I] [DonePayloadCodec] in
/-- Between kicks everything is in hand. -/
theorem Idle.inHand (h : w.Idle) : w.InHand where
  routed := by
    refine ⟨h.ready, ?_, ?_, ?_⟩
    · rw [h.spawned]
      simp
    all_goals
      rw [h.parked]
      simp
  kicked hqueue := absurd h.queue hqueue

omit [RecordCodec I] [DonePayloadCodec] in
/-- A kick keeps everything in hand. -/
theorem inHand_kick (h : w.coordinator.Routed w.spawned) : (w.kickSpawnContinuation full).InHand :=
  ⟨by simpa using h, fun _ => kicked_kickSpawnContinuation⟩

/-- Handling a command that is in order. -/
theorem InHand.handle (h : w.InHand)
    (horderly : w.Orderly (.handle full)) : (w.handle full).InHand := by
  unfold SpawnChannel.handle
  unfold Orderly at horderly
  cases hcommands : w.commands with
  | nil => exact h
  | cons command =>
    rw [hcommands] at horderly
    cases command with
    | spawnTasks =>
      have hrouted := h.routed.applySpawnTasks horderly.1 horderly.2
      dsimp only
      split_ifs with hkick
      · exact inHand_kick hrouted
      · refine ⟨hrouted, fun hqueue => ?_⟩
        -- Something was lined up before, so the pump is on its way behind this command.
        have hbefore : w.coordinator.spawnContinuationQueue ≠ [] := by
          intro hempty
          refine hkick ?_
          rw [hempty, Bool.and_eq_true, Bool.not_eq_true', isEmpty_eq_false_iff]
          exact ⟨rfl, hqueue⟩
        refine (h.kicked hbefore).imp_left fun hmem => ?_
        rw [hcommands] at hmem
        exact (mem_cons.mp hmem).resolve_left (by simp)
    | pumpSpawnContinuation =>
      have hrouted := h.routed.pump horderly
      dsimp only
      split_ifs with hempty
      · exact ⟨hrouted, fun hqueue => absurd (isEmpty_iff.mp hempty) hqueue⟩
      · exact inHand_kick hrouted

/-- One event that is in order. -/
theorem InHand.step (h : w.InHand) {event : SpawnEvent I}
    (horderly : w.Orderly event) : (w.step event).InHand := by
  cases event with
  | submit => exact ⟨h.routed, fun hqueue => (h.kicked hqueue).imp_left (mem_append_left _)⟩
  | handle => exact h.handle horderly
  | unpark =>
    rw [SpawnChannel.step]
    split_ifs with hnone
    · exact h
    · exact ⟨h.routed, fun _ => .inl (mem_append_right _ (mem_singleton_self _))⟩

/-- In every run everything is in hand. -/
theorem Reached.inHand (h : w.Reached) : w.InHand :=
  h.invariant (fun _ hidle => hidle.inHand) fun _ _ hin horderly => hin.step horderly

/-- Every command has been processed. -/
def Done (w : SpawnChannel I) : Prop := w.commands = [] ∧ w.parkedKicks = 0

/-- **An identity that can be had**: the ledger defines it, or it is the one of a spawned task all
of whose dependencies can be had. -/
inductive Available (w : SpawnChannel I) : TaskIdentity → Prop
  | defined {phaseId : PhaseId} {taskId : String}
      (hdefined : w.coordinator.isDefined phaseId taskId = true) :
      Available w (toLex (phaseId, taskId))
  | spawned {task : TaskInfo I} (htask : task ∈ w.spawned)
      (hdeps : ∀ dep ∈ task.taskDependsOn, Available w dep.identity) : Available w task.identity

omit [RecordCodec I] [DonePayloadCodec] in
/-- When all is done, a task is published or parked. -/
theorem InHand.published_or_parked (h : w.InHand) (hdone : w.Done)
    {task : TaskInfo I} (htask : task ∈ w.spawned) :
    w.coordinator.Published task ∨ ∃ p ∈ w.coordinator.spawnQueue.parked, p.task = task := by
  have hqueue : w.coordinator.spawnContinuationQueue = [] := by
    by_contra hne
    rcases h.kicked hne with hmem | hparked
    · rw [hdone.1] at hmem
      cases hmem
    · rw [hdone.2] at hparked
      exact absurd hparked (lt_irrefl 0)
  refine (h.routed.somewhere task htask).imp_right fun hrest => hrest.resolve_left fun hin => ?_
  rw [Coordinator.linedUp, hqueue] at hin
  cases hin

omit [RecordCodec I] [DonePayloadCodec] in
/-- When all is done, the ledger defines what can be had. -/
theorem InHand.isDefined_of_available (h : w.InHand) (hdone : w.Done)
    {identity : TaskIdentity} (hidentity : w.Available identity) :
    w.coordinator.isDefined (ofLex identity).1 (ofLex identity).2 = true := by
  induction hidentity with
  | defined hdefined => exact hdefined
  | @spawned task htask _ ih =>
    rcases h.published_or_parked hdone htask with hpublished | ⟨p, hp, rfl⟩
    · exact hpublished.2
    · obtain ⟨identity, hmem⟩ := Finset.nonempty_iff_ne_empty.mpr (h.routed.waits p hp)
      obtain ⟨⟨dep, hdep, rfl⟩, hundefined, -⟩ := h.routed.missing p hp identity hmem
      rw [ih dep hdep] at hundefined
      cases hundefined

/-- **No publishable task stays parked.** In every run whose commands are all in order, once every
command has been processed: a spawned task all of whose dependencies can be had is published, and
every task that is still parked has a dependency that cannot be had. -/
theorem no_publishable_task_parked {w : SpawnChannel I} (hreached : w.Reached) (hdone : w.Done) :
    (∀ task ∈ w.spawned, (∀ dep ∈ task.taskDependsOn, w.Available dep.identity) →
        w.coordinator.Published task) ∧
      ∀ p ∈ w.coordinator.spawnQueue.parked,
        ∃ dep ∈ p.task.taskDependsOn, ¬ w.Available dep.identity := by
  have h := hreached.inHand
  have hmissing : ∀ p ∈ w.coordinator.spawnQueue.parked,
      ∃ dep ∈ p.task.taskDependsOn, ¬ w.Available dep.identity := by
    intro p hp
    obtain ⟨identity, hmem⟩ := Finset.nonempty_iff_ne_empty.mpr (h.routed.waits p hp)
    obtain ⟨⟨dep, hdep, rfl⟩, hundefined, -⟩ := h.routed.missing p hp identity hmem
    refine ⟨dep, hdep, fun havailable => ?_⟩
    rw [h.isDefined_of_available hdone havailable] at hundefined
    cases hundefined
  refine ⟨fun task htask hdeps => ?_, hmissing⟩
  rcases h.published_or_parked hdone htask with hpublished | ⟨p, hp, rfl⟩
  · exact hpublished
  · obtain ⟨dep, hdep, hnot⟩ := hmissing p hp
    exact absurd (hdeps dep hdep) hnot

end SpawnChannel

namespace Sample

/-- A primary before its first batch. -/
def idleChannel : SpawnChannel String := ⟨twoPhases, [], 0, []⟩

/-- The sample starts idle. -/
theorem idleChannel_idle : idleChannel.Idle where
  ready := ⟨⟨[], TaskDefStore.sound_empty []⟩, fun _ hid => absurd rfl hid,
    fun _ hid => by cases hid⟩
  parked := rfl
  queue := rfl
  spawned := rfl

/-- A task and, in a batch right behind it, its dependent. -/
def batchBehind : SpawnChannel String :=
  [.submit [task "a" []], .submit [task "b" ["a"]], .handle false, .handle false,
    .handle false].foldl SpawnChannel.step idleChannel

/-- **A task stays parked although its only dependency is published.** The dependent is admitted
before the pump has published the task it depends on, and nothing looks at it again. -/
theorem parked_behind_published : batchBehind.Done ∧ task "b" ["a"] ∈ batchBehind.spawned ∧
      (∀ dep ∈ (task "b" ["a"]).taskDependsOn, batchBehind.Available dep.identity) ∧
      ¬ batchBehind.coordinator.Published (task "b" ["a"]) ∧
      batchBehind.coordinator.spawnQueue.parked.map Parked.task = [task "b" ["a"]] := by
  refine ⟨by unfold SpawnChannel.Done; decide +kernel, by decide +kernel, ?_, by decide +kernel,
    by decide +kernel⟩
  intro dep hdep
  obtain rfl := mem_singleton.mp hdep
  exact .defined (by decide +kernel)

/-- The same batches, the second sent when the first has been published. -/
def batchAfter : SpawnChannel String :=
  [.submit [task "a" []], .handle false, .handle false, .submit [task "b" ["a"]], .handle true,
    .unpark, .handle false].foldl SpawnChannel.step idleChannel

/-- In the sample the batch is published. -/
theorem batchAfter_published : batchAfter.Reached ∧ batchAfter.Done ∧
      batchAfter.coordinator.Published (task "b" ["a"]) := by
  have hreached : batchAfter.Reached := RunsTo.foldl (.start idleChannel_idle) _ (by decide +kernel)
  have hdone : batchAfter.Done := by
    unfold SpawnChannel.Done
    decide +kernel
  refine ⟨hreached, hdone, ?_⟩
  refine (SpawnChannel.no_publishable_task_parked hreached hdone).1 _ (by decide +kernel) ?_
  intro dep hdep
  obtain rfl := mem_singleton.mp hdep
  exact .defined (by decide +kernel)

end Sample

end DynRunner
