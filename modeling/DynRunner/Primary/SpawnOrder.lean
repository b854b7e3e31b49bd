import DynRunner.ClusterState.LedgerStep
import DynRunner.Primary.Spawn

/-!
# Spawned tasks and their dependencies

A spawned task enters the ledger pending unless one of its dependencies holds it back. The
classification looks each dependency up in the ledger as the tasks before it in the batch have
left it, and one that it does not find counts as resolved. The validator lets such a dependency
pass if the batch declares it anywhere, be it later or in a task that is itself rejected. So a
pending task has all its dependencies behind it exactly if no task comes up whose known
dependencies have succeeded while another is missing.
-/

namespace DynRunner

open ClusterState HashMap ClusterMutation List

variable {I : Type}

namespace ClusterState

variable (s : ClusterState I)

/-- An entry, fat or settled, has the given identity. -/
def HasEntry (h : TaskHash) (phaseId : PhaseId) (taskId : String) : Prop :=
  (∃ st, s.tasks.lookup h = some st ∧ st.hasIdentity phaseId taskId = true) ∨
    ∃ entry, s.settledEntry h = some entry ∧ entry.hasIdentity phaseId taskId = true

/-- A task has ended in success. -/
def SuccessTerminal (h : TaskHash) : Prop :=
  (∃ entry, s.settledEntry h = some entry ∧ entry.settledClass.depVerdict = .resolved) ∨
    s.settledEntry h = none ∧ ∃ st, s.tasks.lookup h = some st ∧ st.status.isSuccess = true

/-- **A declared dependency is success-terminal in the ledger.** -/
def Succeeded (dep : TaskDep) : Prop :=
  ∃ h, s.HasEntry h dep.phaseId dep.taskId ∧ s.SuccessTerminal h

/-- The ledger has a task as pending. -/
def IsPending (h : TaskHash) : Prop :=
  ∃ st version, s.tasks.lookup h = some st ∧ st.status = .pending version

variable {s : ClusterState I} {phaseId : PhaseId} {taskId : String} {h : TaskHash}

/-- A lookup by identity finds an entry that has it. -/
theorem hasEntry_of_taskHashForDep (hfound : s.taskHashForDep phaseId taskId = some h) :
    s.HasEntry h phaseId taskId := by
  unfold taskHashForDep at hfound
  cases hfat : s.tasks.entries.find? fun e => e.2.hasIdentity phaseId taskId with
  | some e =>
    rw [hfat] at hfound
    cases hfound
    have hid : e.2.hasIdentity phaseId taskId = true := by simpa using find?_some hfat
    exact .inl ⟨e.2, mem_entries_iff.mp (mem_of_find?_eq_some hfat), hid⟩
  | none =>
    rw [hfat] at hfound
    obtain ⟨e, he, rfl⟩ := Option.map_eq_some_iff.mp hfound
    have hid : e.2.hasIdentity phaseId taskId = true := by simpa using find?_some he
    exact .inr ⟨e.2, mem_entries_iff.mp (mem_of_find?_eq_some he), hid⟩

/-- A lookup by identity fails only if no entry has it. -/
theorem not_hasEntry_of_taskHashForDep
    (hnone : s.taskHashForDep phaseId taskId = none) (h : TaskHash) :
    ¬ s.HasEntry h phaseId taskId := by
  obtain ⟨hfat, hsettled⟩ := Option.or_eq_none_iff.mp hnone
  rw [Option.map_eq_none_iff, find?_eq_none] at hfat hsettled
  rintro (⟨st, hst, hid⟩ | ⟨entry, hentry, hid⟩)
  · exact hfat ⟨h, st⟩ (mem_entries_iff.mpr hst) hid
  · exact hsettled ⟨h, entry⟩ (mem_entries_iff.mpr hentry) hid

/-- The verdict on an entry of the ledger is favourable exactly if the task has succeeded. -/
theorem depVerdict_resolved_iff (hentry : s.HasEntry h phaseId taskId) :
    s.depVerdict h = .resolved ↔ s.SuccessTerminal h := by
  unfold depVerdict SuccessTerminal
  cases hsettled : s.settledEntry h with
  | some => simp
  | none =>
    cases hfat : s.tasks.lookup h with
    | none => simp [HasEntry, hsettled, hfat] at hentry
    | some st =>
      have hstatus : st.status.depVerdict = .resolved ↔ st.status.isSuccess = true := by
        cases st.status with
        | failed kind => cases kind <;> simp [TaskStatus.depVerdict, TaskStatus.isSuccess]
        | _ => simp [TaskStatus.depVerdict, TaskStatus.isSuccess]
      simp [hstatus]

/-- Every dependency that the ledger knows has succeeded. -/
def KnownDepsSucceeded (s : ClusterState I) (deps : List TaskDep) : Prop :=
  ∀ dep ∈ deps, ∀ h, s.taskHashForDep dep.phaseId dep.taskId = some h → s.depVerdict h = .resolved

/-- The dependency loop leaves a task pending exactly if nothing that it finds holds it back. -/
theorem classifyDeps_eq_pending_iff {deps : List TaskDep}
    {onUnfulfillable onPending : Option TaskHash} :
    s.classifyDeps deps onUnfulfillable onPending = .pending ↔
      onUnfulfillable = none ∧ onPending = none ∧ s.KnownDepsSucceeded deps := by
  induction deps generalizing onUnfulfillable onPending with
  | nil => cases onUnfulfillable <;> cases onPending <;> simp [classifyDeps, KnownDepsSucceeded]
  | cons dep deps ih =>
    have hcons : s.KnownDepsSucceeded (dep :: deps) ↔
        (∀ h, s.taskHashForDep dep.phaseId dep.taskId = some h → s.depVerdict h = .resolved) ∧
          s.KnownDepsSucceeded deps := by
      simp [KnownDepsSucceeded]
    rw [hcons, classifyDeps]
    cases hdep : s.taskHashForDep dep.phaseId dep.taskId with
    | none => simp [ih]
    | some depHash => cases hverdict : s.depVerdict depHash <;> simp [ih, hverdict]

/-- A spawned task is pending if its known dependencies have succeeded. -/
theorem spawnClass_eq_pending_iff {task : TaskInfo I} :
    s.spawnClass task = .pending ↔ s.KnownDepsSucceeded task.taskDependsOn := by
  rw [spawnClass, classifyDeps_eq_pending_iff]
  simp

/-- **The turn of a task that goes wrong.** All its dependencies that the ledger knows have
succeeded, and the ledger does not know all of them. -/
def MissesDependency (s : ClusterState I) (task : TaskInfo I) : Prop :=
  s.KnownDepsSucceeded task.taskDependsOn ∧
    ∃ dep ∈ task.taskDependsOn, s.taskHashForDep dep.phaseId dep.taskId = none

section Batch

/-- No spawned task has succeeded. -/
theorem SpawnClass.isSuccess_status {spawnClass : SpawnClass} :
    spawnClass.status.isSuccess = false := by
  cases spawnClass <;> rfl

variable [DefaultHasher] [Identifier I]

/-- The ledger takes a spawned task: it is new, and its definition is accepted. -/
def Places (s : ClusterState I) (spawned : TaskInfo I × Option TaskDefId) : Prop :=
  s.containsTask (computeTaskHash spawned.1) = false ∧
    (s.internTaskDefAt spawned.2 (computeTaskHash spawned.1) spawned.1).2.isSome = true

/-- What a spawn does to the entries. -/
theorem spawnTask_entries (acc : ApplyResult I) (spawned : TaskInfo I × Option TaskDefId) :
    (spawnTask acc spawned).state.settled = acc.state.settled ∧
      (¬ acc.state.Places spawned ∧ (spawnTask acc spawned).state.tasks = acc.state.tasks ∨
        acc.state.Places spawned ∧ ∃ definition routing, (spawnTask acc spawned).state.tasks =
          acc.state.tasks.insert (computeTaskHash spawned.1)
            ⟨definition, routing, 0, (acc.state.spawnClass spawned.1).status⟩) := by
  unfold Places
  rcases adds_spawnTask acc spawned with
    ⟨hin, heq⟩ | ⟨hnew, ⟨hnone, hstate, -⟩ | ⟨definition, routing, hsome, hstate, -⟩⟩
  · rw [heq]
    exact ⟨rfl, .inl ⟨by simp [hin], rfl⟩⟩
  · rw [hstate]
    exact ⟨rfl, .inl ⟨by simp [hnone], rfl⟩⟩
  · rw [hstate]
    exact ⟨rfl, .inr ⟨⟨hnew, by simp [hsome]⟩, definition, routing, rfl⟩⟩

/-- What a batch of spawns keeps: the entries that are there stay, and those it adds have not
succeeded. -/
structure Extends (s t : ClusterState I) : Prop where
  settled : t.settled = s.settled
  kept : ∀ h st, s.tasks.lookup h = some st → t.tasks.lookup h = some st
  added : ∀ h st, t.tasks.lookup h = some st → s.tasks.lookup h = none →
    st.status.isSuccess = false ∧ s.settledEntry h = none

variable {t : ClusterState I} {dep : TaskDep} {l : List (TaskInfo I × Option TaskDefId)}
  {acc : ApplyResult I} {spawned : TaskInfo I × Option TaskDefId}

omit [DefaultHasher] [Identifier I] in
theorem Extends.trans {u : ClusterState I} (hst : s.Extends t) (htu : t.Extends u) :
    s.Extends u where
  settled := htu.settled.trans hst.settled
  kept h st hin := htu.kept h st (hst.kept h st hin)
  added h st hin hnone := by
    cases hmid : t.tasks.lookup h with
    | none =>
      obtain ⟨hstatus, hsettled⟩ := htu.added h st hin hmid
      rw [settledEntry, hst.settled] at hsettled
      exact ⟨hstatus, hsettled⟩
    | some st' =>
      rw [htu.kept h st' hmid] at hin
      cases hin
      exact hst.added h st hmid hnone

/-- Spawning a task changes no other one. -/
theorem extends_spawnTask (acc : ApplyResult I) (spawned : TaskInfo I × Option TaskDefId) :
    acc.state.Extends (spawnTask acc spawned).state := by
  obtain ⟨hsettled, ⟨_, htasks⟩ | ⟨hplaces, definition, routing, htasks⟩⟩ :=
    spawnTask_entries acc spawned
  · exact ⟨hsettled, by rw [htasks]; exact fun _ _ => id, by
      rw [htasks]
      intro h st hst hnone
      rw [hst] at hnone
      cases hnone⟩
  · have hnew := hplaces.1
    simp only [containsTask, settledContains, Bool.or_eq_false_iff, decide_eq_false_iff_not] at hnew
    refine ⟨hsettled, fun h st hst => ?_, fun h st hst hnone => ?_⟩
    · rw [htasks, lookup_insert_eq, if_neg, hst]
      rintro rfl
      exact hnew.1 (AList.lookup_isSome.mp (by rw [hst]; rfl))
    · rw [htasks, lookup_insert_eq] at hst
      split_ifs at hst with heq
      · cases hst
        rw [heq]
        exact ⟨SpawnClass.isSuccess_status, AList.lookup_eq_none.mpr hnew.2⟩
      · rw [hst] at hnone
        cases hnone

/-- Spawning a batch changes no other task. -/
theorem extends_foldl_spawnTask (l : List (TaskInfo I × Option TaskDefId)) (acc : ApplyResult I) :
    acc.state.Extends (l.foldl spawnTask acc).state := by
  induction l generalizing acc with
  | nil => exact ⟨rfl, fun _ _ hst => hst, fun _ _ hst hnone => by cases hst.symm.trans hnone⟩
  | cons spawned l ih => exact (extends_spawnTask acc spawned).trans (ih _)

omit [DefaultHasher] [Identifier I] in
/-- Spawning settles nothing. -/
theorem Extends.settledEntry (h : s.Extends t) (hash : TaskHash) :
    t.settledEntry hash = s.settledEntry hash := by
  rw [ClusterState.settledEntry, ClusterState.settledEntry, h.settled]

omit [DefaultHasher] [Identifier I] in
/-- What has succeeded stays so. -/
theorem Succeeded.extends (hdep : s.Succeeded dep) (h : s.Extends t) : t.Succeeded dep := by
  obtain ⟨hash, hentry, hsuccess⟩ := hdep
  refine ⟨hash, hentry.imp ?_ ?_, hsuccess.imp ?_ ?_⟩
  · exact fun ⟨st, hst, hid⟩ => ⟨st, h.kept hash st hst, hid⟩
  · exact fun ⟨entry, hin, hid⟩ => ⟨entry, (h.settledEntry hash).trans hin, hid⟩
  · exact fun ⟨entry, hin, hclass⟩ => ⟨entry, (h.settledEntry hash).trans hin, hclass⟩
  · exact fun ⟨hnone, st, hst, hstatus⟩ =>
      ⟨(h.settledEntry hash).trans hnone, st, h.kept hash st hst, hstatus⟩

omit [DefaultHasher] [Identifier I] in
/-- A dependency that the ledger did not know has not succeeded after the spawns. -/
theorem Extends.not_succeeded (h : s.Extends t)
    (hunknown : s.taskHashForDep dep.phaseId dep.taskId = none) : ¬ t.Succeeded dep := by
  have habsent := not_hasEntry_of_taskHashForDep hunknown
  rintro ⟨hash, ⟨st, hst, hid⟩ | ⟨entry, hin, hid⟩, hsuccess⟩
  · cases hold : s.tasks.lookup hash with
    | some st' =>
      rw [h.kept hash st' hold] at hst
      cases hst
      exact habsent hash (.inl ⟨st, hold, hid⟩)
    | none =>
      obtain ⟨hstatus, hnone⟩ := h.added hash st hst hold
      rcases hsuccess with ⟨entry, hin, _⟩ | ⟨_, st', hst', hstatus'⟩
      · rw [h.settledEntry, hnone] at hin
        cases hin
      · rw [hst] at hst'
        cases hst'
        rw [hstatus] at hstatus'
        cases hstatus'
  · exact habsent hash (.inr ⟨entry, (h.settledEntry hash).symm.trans hin, hid⟩)

/-- Spawns under other hashes leave a lookup alone. -/
theorem lookup_foldl_spawnTask
    (hne : ∀ spawned ∈ l, h ≠ computeTaskHash spawned.1) (acc : ApplyResult I) :
    (l.foldl spawnTask acc).state.tasks.lookup h = acc.state.tasks.lookup h := by
  induction l generalizing acc with
  | nil => rfl
  | cons spawned l ih =>
    rw [foldl_cons, ih (fun e he => hne e (mem_cons_of_mem _ he))]
    rcases (spawnTask_entries acc spawned).2 with ⟨_, htasks⟩ | ⟨_, _, _, htasks⟩
    · rw [htasks]
    · rw [htasks, lookup_insert_eq, if_neg (hne spawned mem_cons_self)]

/-- Spawning a task brings no other one. -/
theorem containsTask_spawnTask (hne : h ≠ computeTaskHash spawned.1) :
    (spawnTask acc spawned).state.containsTask h = acc.state.containsTask h := by
  have hlookup := lookup_foldl_spawnTask (l := [spawned]) (h := h) (by simpa using hne) acc
  have htasks : h ∈ (spawnTask acc spawned).state.tasks ↔ h ∈ acc.state.tasks := by
    rw [← AList.lookup_isSome, ← AList.lookup_isSome]
    exact Iff.of_eq (congrArg (·.isSome = true) hlookup)
  rw [containsTask, containsTask, settledContains, settledContains,
    (spawnTask_entries acc spawned).1, decide_eq_decide.mpr htasks]

/-- **What a batch has to meet.** When the turn of a task comes and the ledger takes it, either it
knows all the dependencies of the task or one that it knows has not succeeded. -/
def DefinedInTurn : ApplyResult I → List (TaskInfo I × Option TaskDefId) → Prop
  | _, [] => True
  | acc, spawned :: rest =>
    (acc.state.Places spawned → ¬ acc.state.MissesDependency spawned.1) ∧
      DefinedInTurn (spawnTask acc spawned) rest

/-- The given tasks are pending only with all their dependencies behind them. -/
def PendingAfterDeps (s : ClusterState I) (tasks : List (TaskInfo I)) : Prop :=
  ∀ task ∈ tasks, s.IsPending (computeTaskHash task) → ∀ dep ∈ task.taskDependsOn, s.Succeeded dep

/-- One task that the ledger takes, seen after the rest of its batch. -/
theorem pending_after_deps_iff (hplaces : acc.state.Places spawned) :
    let t := ((spawned :: l).foldl spawnTask acc).state
    (t.IsPending (computeTaskHash spawned.1) → ∀ dep ∈ spawned.1.taskDependsOn, t.Succeeded dep) ↔
      ¬ acc.state.MissesDependency spawned.1 := by
  intro t
  have hext : acc.state.Extends t := extends_foldl_spawnTask (spawned :: l) acc
  have hpending : t.IsPending (computeTaskHash spawned.1) ↔
      acc.state.KnownDepsSucceeded spawned.1.taskDependsOn := by
    obtain ⟨_, ⟨hnot, _⟩ | ⟨_, definition, routing, htasks⟩⟩ := spawnTask_entries acc spawned
    · exact absurd hplaces hnot
    · have hst := (extends_foldl_spawnTask l (spawnTask acc spawned)).kept
        (computeTaskHash spawned.1) ⟨definition, routing, 0,
          (acc.state.spawnClass spawned.1).status⟩
        (by rw [htasks, lookup_insert_eq, if_pos rfl])
      rw [← spawnClass_eq_pending_iff]
      constructor
      · rintro ⟨st, version, hlookup, hstatus⟩
        rw [show t.tasks.lookup _ = _ from hst] at hlookup
        cases hlookup
        cases hclass : acc.state.spawnClass spawned.1 with
        | pending => rfl
        | cascadeFail | blockedOn => rw [hclass] at hstatus; cases hstatus
      · intro hclass
        exact ⟨_, .default, hst, by rw [hclass]; rfl⟩
  rw [hpending, MissesDependency, not_and, not_exists]
  refine imp_congr_right fun hknown => ⟨fun hall dep hdep => ?_, fun hall dep hdep => ?_⟩
  · exact hext.not_succeeded hdep.2 (hall dep hdep.1)
  · cases hfound : acc.state.taskHashForDep dep.phaseId dep.taskId with
    | none => exact absurd ⟨hdep, hfound⟩ (hall dep)
    | some h =>
      have hentry := hasEntry_of_taskHashForDep hfound
      have hsuccess := (depVerdict_resolved_iff hentry).mp (hknown dep hdep h hfound)
      exact Succeeded.extends ⟨h, hentry, hsuccess⟩ hext

/-- **A batch of new tasks.** -/
theorem pendingAfterDeps_iff
    (hnew : ∀ spawned ∈ l, acc.state.containsTask (computeTaskHash spawned.1) = false)
    (hnodup : (l.map fun spawned => computeTaskHash spawned.1).Nodup) :
    (l.foldl spawnTask acc).state.PendingAfterDeps (l.map Prod.fst) ↔ DefinedInTurn acc l := by
  induction l generalizing acc with
  | nil => simp [PendingAfterDeps, DefinedInTurn]
  | cons spawned l ih =>
    obtain ⟨hhead, htail⟩ := nodup_cons.mp hnodup
    have hne : ∀ e ∈ l, computeTaskHash e.1 ≠ computeTaskHash spawned.1 := by
      intro e he heq
      exact hhead (mem_map.mpr ⟨e, he, heq⟩)
    have hrest := @ih (spawnTask acc spawned) (fun e he => by
      rw [containsTask_spawnTask (hne e he)]
      exact hnew e (mem_cons_of_mem _ he)) htail
    rw [DefinedInTurn, ← hrest]
    simp only [PendingAfterDeps, map_cons, forall_mem_cons]
    refine and_congr_left fun _ => ?_
    by_cases hplaces : acc.state.Places spawned
    · exact (pending_after_deps_iff hplaces).trans ⟨fun h _ => h, fun h => h hplaces⟩
    · -- The ledger has refused the definition, and nothing later comes under this hash.
      refine iff_of_true (fun hpending => ?_) (fun h => absurd h hplaces)
      obtain ⟨st, version, hst, _⟩ := hpending
      rw [foldl_cons, lookup_foldl_spawnTask (fun e he => (hne e he).symm)] at hst
      rcases (spawnTask_entries acc spawned).2 with ⟨_, htasks⟩ | ⟨hp, _⟩
      · have hin := hnew spawned mem_cons_self
        simp only [containsTask, Bool.or_eq_false_iff, decide_eq_false_iff_not] at hin
        rw [htasks] at hst
        exact absurd (AList.lookup_isSome.mp (by rw [hst]; rfl)) hin.1
      · exact absurd hp hplaces

end Batch

end ClusterState

section Validated

variable [DefaultHasher] [Identifier I]

/-- The tasks that pass are new, and no two of them have one hash. -/
theorem SpawnChecks.partition_new (checks : SpawnChecks) (l : List (TaskInfo I × ℕ))
    (seen : List TaskHash) :
    (∀ task ∈ (checks.partition seen l).1,
        checks.isTaskPresentByHash (computeTaskHash task) = false ∧ computeTaskHash task ∉ seen) ∧
      ((checks.partition seen l).1.map computeTaskHash).Nodup := by
  induction l generalizing seen with
  | nil => exact ⟨by simp [partition], by simp [partition]⟩
  | cons e l ih =>
    obtain ⟨task, idx⟩ := e
    obtain ⟨hmem, hnodup⟩ := ih (if checks.isTaskPresentByHash (computeTaskHash task) then seen
      else computeTaskHash task :: seen)
    rw [partition]
    cases herror : checks.error seen task with
    | some =>
      refine ⟨fun other hother => ?_, hnodup⟩
      obtain ⟨hpresent, hseen⟩ := hmem other hother
      refine ⟨hpresent, fun hin => hseen ?_⟩
      split
      · exact hin
      · exact mem_cons_of_mem _ hin
    | none =>
      have hpass : checks.isTaskPresentByHash (computeTaskHash task) = false ∧
          computeTaskHash task ∉ seen := by
        unfold SpawnChecks.error at herror
        dsimp only at herror
        split_ifs at herror with hpresent hseen
        all_goals exact ⟨by simpa using hpresent, hseen⟩
      have hseen : (if checks.isTaskPresentByHash (computeTaskHash task) then seen
          else computeTaskHash task :: seen) = computeTaskHash task :: seen :=
        if_neg (by simp [hpass.1])
      refine ⟨forall_mem_cons.mpr ⟨hpass, fun other hother => ?_⟩, ?_⟩
      · obtain ⟨hpresent, hnot⟩ := hmem other hother
        rw [hseen] at hnot
        exact ⟨hpresent, fun hin => hnot (mem_cons_of_mem _ hin)⟩
      · refine nodup_cons.mpr ⟨fun hin => ?_, hnodup⟩
        obtain ⟨other, hother, heq⟩ := mem_map.mp hin
        have hnot := (hmem other hother).2
        rw [hseen, heq] at hnot
        exact hnot mem_cons_self

end Validated

namespace Originator

/-- The descriptors and ids of a stamped spawn are those it was given. -/
theorem tasksToStamp_tasksSpawned {entries : List (TaskInfo I × Option TaskDefId)} :
    (tasksSpawned (entries.map Prod.fst) (entries.map Prod.snd)).tasksToStamp =
      entries :=
  zipIdx_map_wireDefId

variable [DefaultHasher] [Identifier I] (o : Originator I)

/-- A spawned batch as it is applied: every task with its definition id, and its dependencies with
theirs. -/
def spawnBatch (tasks : List (TaskInfo I)) : List (TaskInfo I × Option TaskDefId) × Originator I :=
  let (entries, o, ids) := o.reserveDefIds ∅ (tasks.map (·, none))
  (entries.map fun entry =>
    ({ entry.1 with taskDependsOn := entry.1.taskDependsOn.map (o.stampDep ids) }, entry.2), o)

/-- Reserving ids changes no descriptor, and of the node only the definition store. -/
theorem reserveDefIds_spec (ids : BatchIds) (entries : List (TaskInfo I × Option TaskDefId)) :
    (o.reserveDefIds ids entries).1.map Prod.fst = entries.map Prod.fst ∧
      o.cluster.SameButDefinitions (o.reserveDefIds ids entries).2.1.cluster := by
  induction entries generalizing o ids with
  | nil => exact ⟨rfl, rfl⟩
  | cons entry entries ih =>
    obtain ⟨task, defId⟩ := entry
    cases defId with
    | some id =>
      obtain ⟨htasks, hsame⟩ := ih o (ids.insert (task.phaseId, task.taskId) id)
      exact ⟨congrArg (task :: ·) htasks, hsame⟩
    | none =>
      obtain ⟨htasks, hsame⟩ := ih { o with cluster := { o.cluster with
          definitions := (o.cluster.definitions.allocForHash (computeTaskHash task)).2 } }
        (ids.insert (task.phaseId, task.taskId)
          (o.cluster.definitions.allocForHash (computeTaskHash task)).1)
      exact ⟨congrArg (task :: ·) htasks, hsame⟩

/-- The descriptors of a spawned batch are those that were handed in, but for the ids of their
dependencies. -/
theorem spawnBatch_map (tasks : List (TaskInfo I)) :
    let reserved := o.reserveDefIds ∅ (tasks.map (·, none))
    (o.spawnBatch tasks).1.map Prod.fst = tasks.map fun task =>
      { task with
        taskDependsOn := task.taskDependsOn.map (reserved.2.1.stampDep reserved.2.2) } := by
  intro reserved
  have htasks : reserved.1.map Prod.fst = tasks := by
    rw [(reserveDefIds_spec o ∅ (tasks.map (·, none))).1, map_map]
    exact map_id tasks
  change (reserved.1.map _).map Prod.fst = _
  rw [map_map]
  conv_rhs => rw [← htasks, map_map]
  rfl

/-- Stamping a spawn of new tasks. -/
theorem stamp_tasksSpawned {o : Originator I} {tasks : List (TaskInfo I)} :
    o.stamp [.tasksSpawned tasks []] =
      ([.tasksSpawned ((o.spawnBatch tasks).1.map Prod.fst) ((o.spawnBatch tasks).1.map Prod.snd)],
        (o.spawnBatch tasks).2) := by
  have hentries : (tasksSpawned tasks [] : ClusterMutation I).tasksToStamp =
      tasks.map (·, none) := by
    apply ext_getElem
    · simp [tasksToStamp]
    · intro n h₁ h₂
      simp [tasksToStamp]
  unfold stamp
  simp only [stampVersions, stampVersion, stampDefIds, stampTaskIds, hentries, map_cons,
    map_nil, stampDeps, withStamped, tasksToStamp_tasksSpawned, cellRegistrations, append_nil]
  rfl

variable [RecordCodec I] [DonePayloadCodec]

/-- The ledger after a spawn has been originated. -/
theorem applyLocallyForBroadcast_tasksSpawned (tasks : List (TaskInfo I)) :
    (o.applyLocallyForBroadcast [.tasksSpawned tasks []]).originator.cluster =
      ((o.spawnBatch tasks).1.foldl spawnTask
        ⟨(o.spawnBatch tasks).2.cluster, .noOp, [], []⟩).state := by
  rw [applyLocallyForBroadcast, stamp_tasksSpawned]
  change (((o.spawnBatch tasks).2.cluster.applyTasksSpawned _ _)).state = _
  rw [applyTasksSpawned, zipIdx_map_wireDefId]

end Originator

namespace Coordinator

/-- Routing the published tasks leaves the ledger alone. -/
theorem cluster_foldl_routeSpawned (hashes : List TaskHash) :
    (hashes.foldl routeSpawned c).cluster = c.cluster := by
  induction hashes generalizing c with
  | nil => rfl
  | cons hash hashes ih =>
    rw [foldl_cons, ih, routeSpawned]
    cases c.cluster.tasks.lookup hash with
    | none => rfl
    | some =>
      dsimp only
      split <;> rfl

variable [DefaultHasher] [Identifier I]

variable {c : Coordinator I}

variable (c)

/-- The chunk that the next pump applies. -/
def frontChunk : List (TaskInfo I) :=
  ((c.spawnContinuationQueue.head?).map fun cont => cont.remaining.take applySpawnChunkSize).getD []

/-- The tasks of it that pass the validation. -/
def published : List (TaskInfo I) := (c.validateChunk c.frontChunk).1

/-- The published tasks are new and different. -/
theorem published_new :
    (∀ task ∈ c.published, c.cluster.containsTask (computeTaskHash task) = false) ∧
      (c.published.map computeTaskHash).Nodup := by
  obtain ⟨hnew, hnodup⟩ := SpawnChecks.partition_new (I := I)
    ⟨c.cluster.containsTask, c.isDefined, c.phaseAcceptsRuntimeSpawn,
      c.frontChunk.map TaskInfo.identity⟩ c.frontChunk.zipIdx []
  exact ⟨fun task htask => (hnew task htask).1, hnodup⟩

/-- **The published tasks come in order.** When the turn of a published task comes and the ledger
takes it, either the ledger knows every dependency that the task declares, or one of those that
it knows has not succeeded. -/
def PublishesInOrder : Prop :=
  DefinedInTurn ⟨(c.toOriginator.spawnBatch c.published).2.cluster, .noOp, [], []⟩
    (c.toOriginator.spawnBatch c.published).1

variable {c} [RecordCodec I] [DonePayloadCodec]

/-- The ledger after a chunk has been applied. -/
theorem cluster_applySpawnTasksChunk {tasks : List (TaskInfo I)} {baseIndex : ℕ} :
    let valid := (c.validateChunk tasks).1
    (c.applySpawnTasksChunk tasks baseIndex).1.cluster =
      ((c.toOriginator.spawnBatch valid).1.foldl spawnTask
        ⟨(c.toOriginator.spawnBatch valid).2.cluster, .noOp, [], []⟩).state := by
  unfold applySpawnTasksChunk
  cases c.validateChunk tasks with
  | mk valid =>
    cases valid with
    | nil => rfl
    | cons task rest =>
      intro valid
      change (foldl routeSpawned _ _).cluster = _
      rw [cluster_foldl_routeSpawned]
      exact Originator.applyLocallyForBroadcast_tasksSpawned c.toOriginator (task :: rest)

/-- The ledger after a pump. -/
theorem cluster_pumpSpawnContinuation : c.pumpSpawnContinuation.1.cluster =
      ((c.toOriginator.spawnBatch c.published).1.foldl spawnTask
        ⟨(c.toOriginator.spawnBatch c.published).2.cluster, .noOp, [], []⟩).state := by
  unfold pumpSpawnContinuation published frontChunk
  cases c.spawnContinuationQueue with
  | nil => rfl
  | cons => exact cluster_applySpawnTasksChunk

/-- **Spawned tasks are pending only with their dependencies behind them, exactly if they are
published in order.** For every coordinator and whatever batch is next in its queue: after the
validation and the apply of the next chunk, each published task that the ledger has as pending
(these are the ones that enter the pool) has every declared dependency success-terminal, if and
only if the published tasks come in order. -/
theorem spawned_pending_after_dependencies_iff (c : Coordinator I) :
    c.pumpSpawnContinuation.1.cluster.PendingAfterDeps c.published ↔ c.PublishesInOrder := by
  obtain ⟨hnew, hnodup⟩ := c.published_new
  have hmap := Originator.spawnBatch_map c.toOriginator c.published
  have hsame := (Originator.reserveDefIds_spec c.toOriginator ∅ (c.published.map (·, none))).2
  have hhash : (c.toOriginator.spawnBatch c.published).1.map (fun e => computeTaskHash e.1) =
      c.published.map computeTaskHash := by
    have := congrArg (map computeTaskHash) hmap
    rw [map_map, map_map] at this
    exact this
  have hcontains : ∀ h, (c.toOriginator.spawnBatch c.published).2.cluster.containsTask h =
      c.cluster.containsTask h := by
    intro h
    exact (congrArg (fun t : ClusterState I => t.containsTask h) hsame :)
  rw [PublishesInOrder, ← pendingAfterDeps_iff, ← cluster_pumpSpawnContinuation, hmap]
  · simp only [PendingAfterDeps, forall_mem_map]
    rfl
  · intro spawned hspawned
    rw [hcontains]
    have hin : computeTaskHash spawned.1 ∈ c.published.map computeTaskHash :=
      hhash ▸ mem_map_of_mem hspawned
    obtain ⟨task, htask, heq⟩ := mem_map.mp hin
    rw [← heq]
    exact hnew task htask
  · rw [hhash]
    exact hnodup

end Coordinator

namespace ClusterState

/-- Nothing has succeeded if no entry has. -/
theorem not_succeeded_of_entries {s : ClusterState I}
    (hfat : ∀ e ∈ s.tasks.entries, e.2.status.isSuccess = false)
    (hsettled : s.settled.index.entries = []) {dep : TaskDep} : ¬ s.Succeeded dep := by
  rintro ⟨h, _, ⟨entry, hentry, _⟩ | ⟨_, st, hst, hstatus⟩⟩
  · have hin := mem_entries_iff.mpr hentry
    rw [hsettled] at hin
    cases hin
  · rw [hfat ⟨h, st⟩ (mem_entries_iff.mpr hst)] at hstatus
    cases hstatus

end ClusterState

namespace Sample

/-- Two phases, the second of which waits for the first. -/
def twoPhases : Coordinator String :=
  .start { empty with
      control := { Control.empty with phaseDeps := [("q", ["p"])] } }
    (PendingPool.fresh ["p", "q"] ((∅ : HashMap PhaseId (List PhaseId)).insert "q" ["p"]))

/-- A dependent, and after it in the same batch its prerequisite. -/
def dependentFirst : Coordinator String :=
  twoPhases.applySpawnTasks [task "b" ["a"], task "a" []]

/-- A prerequisite in the phase that is still closed, and its dependent. -/
def prerequisiteRejected : Coordinator String :=
  twoPhases.applySpawnTasks [{ task "a" [] with phaseId := "q" },
    { task "b" [] with taskDependsOn := [⟨"a", "q", false, none⟩] }]

/-- **A spawned task is pending before its prerequisite.** In the first batch the prerequisite
comes after the task, in the second it is rejected by the validation. -/
theorem spawned_pending_without_prerequisite :
    (¬ dependentFirst.pumpSpawnContinuation.1.cluster.PendingAfterDeps dependentFirst.published) ∧
      ¬ prerequisiteRejected.pumpSpawnContinuation.1.cluster.PendingAfterDeps
        prerequisiteRejected.published := by
  have hpending : ∀ (c : Coordinator String) (task : TaskInfo String), task ∈ c.published →
      (∀ e ∈ c.pumpSpawnContinuation.1.cluster.tasks.entries, e.2.status.isSuccess = false) →
      c.pumpSpawnContinuation.1.cluster.settled.index.entries = [] → task.taskDependsOn ≠ [] →
      ((c.pumpSpawnContinuation.1.cluster.tasks.lookup (computeTaskHash task)).map (·.status) =
        some (.pending .default)) →
      ¬ c.pumpSpawnContinuation.1.cluster.PendingAfterDeps c.published := by
    intro c task htask hfat hsettled hdeps hstatus hall
    obtain ⟨st, hst, hpending⟩ := Option.map_eq_some_iff.mp hstatus
    obtain ⟨dep, hdep⟩ := exists_mem_of_ne_nil _ hdeps
    exact not_succeeded_of_entries hfat hsettled
      (hall task htask ⟨st, .default, hst, hpending⟩ dep hdep)
  constructor
  · exact hpending dependentFirst (task "b" ["a"]) (by decide +kernel) (by decide +kernel)
      (by decide +kernel) (by decide) (by decide +kernel)
  · exact hpending prerequisiteRejected
      { task "b" [] with taskDependsOn := [⟨"a", "q", false, none⟩] } (by decide +kernel)
      (by decide +kernel) (by decide +kernel) (by decide) (by decide +kernel)

end Sample

end DynRunner
