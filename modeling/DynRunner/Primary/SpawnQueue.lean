import DynRunner.Pool.Model

/-!
# The publication order of spawned tasks

A task that is spawned at runtime is published only when every task it depends on is defined: in
the ledger, or among the tasks that are released together with it. Until then it is parked. The
released tasks keep the order in which they came, incoming ones before those that were parked.
-/

namespace DynRunner

open List

variable {I : Type}

/-- A task with the dependencies that were not defined when it was last looked at. -/
structure Parked (I : Type) where
  task : TaskInfo I
  unmet : Finset TaskIdentity

/-- `PendingSpawnQueue`: the parked tasks. -/
structure PendingSpawnQueue (I : Type) where
  parked : List (Parked I)

namespace PendingSpawnQueue

/-- The queue of a fresh primary. -/
def empty : PendingSpawnQueue I := ⟨[]⟩

variable (isDefined : PhaseId → String → Bool)

/-- A task with the dependencies that the ledger does not define. -/
def park (task : TaskInfo I) : Parked I :=
  ⟨task, ((task.taskDependsOn.filter fun dep => !isDefined dep.phaseId dep.taskId).map
    TaskDep.identity).toFinset⟩

/-- Forget the dependencies that the ledger has defined since. -/
def reprobe (candidate : Parked I) : Parked I :=
  { candidate with
    unmet := candidate.unmet.filter fun identity =>
      !isDefined (ofLex identity).1 (ofLex identity).2 }

/-- One pass: what has nothing left to wait for is defined for the others. -/
def releasePass (candidates : List (Parked I)) : List (Parked I) :=
  let newlyReady := (candidates.filter fun c => c.unmet = ∅).map fun c => c.task.identity
  candidates.map fun c => { c with unmet := c.unmet.filter (· ∉ newlyReady) }

/-- How many dependencies are missing in all. -/
def missing (candidates : List (Parked I)) : ℕ := (candidates.map fun c => c.unmet.card).sum

/-- Passes until one changes nothing. A pass that changes something leaves fewer dependencies
missing, so one pass for each of them and a last one are enough. -/
def releaseLoop : ℕ → List (Parked I) → List (Parked I)
  | 0, candidates => candidates
  | rounds + 1, candidates =>
    let next := releasePass candidates
    if missing next = missing candidates then next else releaseLoop rounds next

/-- `PendingSpawnQueue::admit`. Returns the queue and the tasks to publish. -/
def admitBatch (queue : PendingSpawnQueue I) (incoming : List (TaskInfo I))
    (isDefined : PhaseId → String → Bool) : PendingSpawnQueue I × List (TaskInfo I) :=
  let candidates := (incoming.map (park isDefined) ++ queue.parked).map (reprobe isDefined)
  let settled := releaseLoop (missing candidates + 1) candidates
  (⟨settled.filter fun c => c.unmet ≠ ∅⟩,
    (settled.filter fun c => c.unmet = ∅).map Parked.task)

/-- The same tasks, each with at most the dependencies that were missing before. -/
def Narrowed (candidates narrowed : List (Parked I)) : Prop :=
  Forall₂ (fun c c' => c'.task = c.task ∧ c'.unmet ⊆ c.unmet) candidates narrowed

/-- Nothing waits for a task that is released. -/
def Settled (candidates : List (Parked I)) : Prop :=
  ∀ c ∈ candidates, ∀ ready ∈ candidates, ready.unmet = ∅ → ready.task.identity ∉ c.unmet

variable {candidates narrowed : List (Parked I)}

theorem Narrowed.trans {middle : List (Parked I)}
    (h : Narrowed candidates middle) (h' : Narrowed middle narrowed) :
    Narrowed candidates narrowed := by
  induction h generalizing narrowed with
  | nil =>
    cases h'
    exact .nil
  | cons hhead _ ih =>
    cases h' with
    | cons hhead' htail' => exact .cons ⟨hhead'.1.trans hhead.1, hhead'.2.trans hhead.2⟩ (ih htail')

/-- What is related to a member of one list is found in the other. -/
theorem exists_of_mem_forall₂ {α β : Type*} {R : α → β → Prop} {as : List α} {bs : List β}
    (h : Forall₂ R as bs) {a : α} (ha : a ∈ as) : ∃ b ∈ bs, R a b := by
  induction h with
  | nil => cases ha
  | cons hhead _ ih =>
    rcases mem_cons.mp ha with rfl | ha
    · exact ⟨_, mem_cons_self, hhead⟩
    · obtain ⟨b, hb, hab⟩ := ih ha
      exact ⟨b, mem_cons_of_mem _ hb, hab⟩

section

variable (h : Narrowed candidates narrowed)
include h

/-- A candidate behind a narrowed one. -/
theorem Narrowed.exists_of_mem {c' : Parked I} (hc' : c' ∈ narrowed) :
    ∃ c ∈ candidates, c'.task = c.task ∧ c'.unmet ⊆ c.unmet :=
  exists_of_mem_forall₂ h.flip hc'

/-- No task is lost. -/
theorem Narrowed.map_task : narrowed.map Parked.task = candidates.map Parked.task := by
  induction h with
  | nil => rfl
  | cons hhead _ ih => rw [map_cons, map_cons, ih, hhead.1]

omit h in
/-- What one pass takes away. -/
theorem narrowed_releasePass (candidates : List (Parked I)) :
    Narrowed candidates (releasePass candidates) := by
  unfold releasePass Narrowed
  rw [forall₂_map_right_iff]
  exact forall₂_same.mpr fun _ _ => ⟨rfl, Finset.filter_subset _ _⟩

/-- A pass leaves no more missing dependencies. -/
theorem Narrowed.missing_le : missing narrowed ≤ missing candidates := by
  unfold missing
  induction h with
  | nil => exact Nat.le_refl _
  | cons hhead _ ih =>
    rw [map_cons, map_cons, sum_cons, sum_cons]
    exact Nat.add_le_add (Finset.card_le_card hhead.2) ih

/-- Candidates that have lost no dependency are the same. -/
theorem Narrowed.eq_of_missing_eq (hmissing : missing narrowed = missing candidates) :
    narrowed = candidates := by
  induction h with
  | nil => rfl
  | @cons c c' l l' hhead htail ih =>
    have hle : missing l' ≤ missing l := Narrowed.missing_le htail
    have hcard : c'.unmet.card ≤ c.unmet.card := Finset.card_le_card hhead.2
    have hsum : c'.unmet.card + missing l' = c.unmet.card + missing l := by
      simpa only [missing, map_cons, sum_cons] using hmissing
    have hunmet : c'.unmet = c.unmet := Finset.eq_of_subset_of_card_le hhead.2 (by omega)
    obtain ⟨task, unmet⟩ := c
    obtain ⟨task', unmet'⟩ := c'
    obtain rfl : task' = task := hhead.1
    obtain rfl : unmet' = unmet := hunmet
    rw [ih (by omega)]

end

/-- A pass changes nothing exactly when there is nothing left to release. -/
theorem releasePass_eq_self_iff : releasePass candidates = candidates ↔ Settled candidates := by
  constructor
  · intro h c hc ready hready hempty hmem
    have hkept : c ∈ releasePass candidates := by rwa [h]
    obtain ⟨c₀, -, rfl⟩ := mem_map.mp hkept
    refine (Finset.mem_filter.mp hmem).2 (mem_map.mpr ⟨ready, ?_, rfl⟩)
    exact mem_filter.mpr ⟨hready, by simpa using hempty⟩
  · intro h
    refine (map_congr_left fun c hc => ?_).trans (map_id' candidates)
    rw [Finset.filter_true_of_mem]
    intro identity hunmet hready
    obtain ⟨ready, hmem, rfl⟩ := mem_map.mp hready
    obtain ⟨hmem, hempty⟩ := mem_filter.mp hmem
    exact h c hc ready hmem (of_decide_eq_true hempty) hunmet

/-- The passes narrow the candidates until nothing waits for a task that is released. -/
theorem releaseLoop_spec {rounds : ℕ} {candidates : List (Parked I)}
    (hrounds : missing candidates < rounds) : Narrowed candidates (releaseLoop rounds candidates) ∧
      Settled (releaseLoop rounds candidates) := by
  induction rounds generalizing candidates with
  | zero => omega
  | succ rounds ih =>
    have hnarrowed := narrowed_releasePass candidates
    rw [releaseLoop]
    by_cases hsame : missing (releasePass candidates) = missing candidates
    · rw [if_pos hsame]
      have heq := hnarrowed.eq_of_missing_eq hsame
      refine ⟨hnarrowed, ?_⟩
      rw [heq]
      exact releasePass_eq_self_iff.mp heq
    · rw [if_neg hsame]
      have hle := hnarrowed.missing_le
      have hless : missing (releasePass candidates) < rounds := by omega
      obtain ⟨hloop, hsettled⟩ := ih hless
      exact ⟨hnarrowed.trans hloop, hsettled⟩

section Admission

variable (queue : PendingSpawnQueue I) (incoming : List (TaskInfo I))
  (isDefined : PhaseId → String → Bool)

/-- Every task is released or parked. -/
theorem mem_admitBatch {task : TaskInfo I}
    (h : task ∈ incoming ∨ ∃ p ∈ queue.parked, p.task = task) :
    task ∈ (queue.admitBatch incoming isDefined).2 ∨
      ∃ p ∈ (queue.admitBatch incoming isDefined).1.parked, p.task = task := by
  set candidates := (incoming.map (park isDefined) ++ queue.parked).map (reprobe isDefined)
    with hcandidates
  obtain ⟨hnarrowed, -⟩ := releaseLoop_spec (missing candidates).lt_succ_self
  have htask : task ∈ candidates.map Parked.task := by
    rw [hcandidates, map_map, map_append]
    rcases h with h | ⟨p, hp, rfl⟩
    · refine mem_append_left _ ?_
      rw [map_map]
      exact mem_map.mpr ⟨task, h, rfl⟩
    · exact mem_append_right _ (mem_map.mpr ⟨p, hp, rfl⟩)
  rw [← hnarrowed.map_task] at htask
  obtain ⟨c, hc, rfl⟩ := mem_map.mp htask
  by_cases hempty : c.unmet = ∅
  · exact .inl (mem_map.mpr ⟨c, mem_filter.mpr ⟨hc, by simpa using hempty⟩, rfl⟩)
  · exact .inr ⟨c, mem_filter.mpr ⟨hc, by simpa using hempty⟩, rfl⟩

/-- What a parked task waits for: something is missing; it is neither defined in the ledger nor
released in this pass; and it is a dependency of an incoming task or was missing before. -/
theorem mem_parked_admitBatch {p : Parked I}
    (h : p ∈ (queue.admitBatch incoming isDefined).1.parked) : p.unmet ≠ ∅ ∧
      (∀ identity ∈ p.unmet, isDefined (ofLex identity).1 (ofLex identity).2 = false ∧
        ∀ task ∈ (queue.admitBatch incoming isDefined).2, task.identity ≠ identity) ∧
      ((p.task ∈ incoming ∧ ∀ identity ∈ p.unmet, ∃ dep ∈ p.task.taskDependsOn,
          dep.identity = identity) ∨
        ∃ p₀ ∈ queue.parked, p.task = p₀.task ∧ p.unmet ⊆ p₀.unmet) := by
  set candidates := (incoming.map (park isDefined) ++ queue.parked).map (reprobe isDefined)
    with hcandidates
  obtain ⟨hnarrowed, hsettled⟩ := releaseLoop_spec (missing candidates).lt_succ_self
  obtain ⟨hp, hunmet⟩ := mem_filter.mp h
  obtain ⟨c, hc, htask, hsub⟩ := hnarrowed.exists_of_mem hp
  obtain ⟨c₀, hc₀, rfl⟩ := mem_map.mp hc
  refine ⟨by simpa using hunmet, fun identity hidentity => ⟨?_, fun task hreleased heq => ?_⟩, ?_⟩
  · simpa using (Finset.mem_filter.mp (hsub hidentity)).2
  · obtain ⟨ready, hready, rfl⟩ := mem_map.mp hreleased
    obtain ⟨hready, hempty⟩ := mem_filter.mp hready
    refine hsettled p hp ready hready (by simpa using hempty) ?_
    rwa [heq]
  · have hsub₀ : p.unmet ⊆ c₀.unmet := hsub.trans (Finset.filter_subset _ _)
    rcases mem_append.mp hc₀ with hin | hin
    · obtain ⟨task, htask', rfl⟩ := mem_map.mp hin
      refine .inl ⟨by rw [htask]; exact htask', fun identity hidentity => ?_⟩
      have hmem := mem_toFinset.mp (hsub₀ hidentity)
      obtain ⟨dep, hdep, rfl⟩ := mem_map.mp hmem
      refine ⟨dep, ?_, rfl⟩
      rw [htask]
      exact (mem_filter.mp hdep).1
    · exact .inr ⟨c₀, hin, htask, hsub₀⟩

end Admission

section LeastFixpoint

variable {isDefined : PhaseId → String → Bool} {queue : PendingSpawnQueue I}
  {incoming tasks : List (TaskInfo I)} {task : TaskInfo I} {identity : TaskIdentity} {c : Parked I}

/-- The identities that a task depends on. -/
def dependencies (task : TaskInfo I) : Finset TaskIdentity :=
  (task.taskDependsOn.map TaskDep.identity).toFinset

/-- What a parked task waits for is among its dependencies. -/
def WellFormed (queue : PendingSpawnQueue I) : Prop :=
  ∀ p ∈ queue.parked, p.unmet ⊆ dependencies p.task

/-- Admitting a batch keeps the queue well formed. -/
theorem wellFormed_admitBatch (h : queue.WellFormed) :
    (queue.admitBatch incoming isDefined).1.WellFormed := by
  intro p hp identity hidentity
  obtain ⟨-, -, ⟨-, hdeps⟩ | ⟨p₀, hp₀, htask, hsub⟩⟩ :=
    mem_parked_admitBatch queue incoming isDefined hp
  · exact mem_toFinset.mpr (mem_map.mpr (hdeps identity hidentity))
  · rw [htask]
    exact h p₀ hp₀ (hsub hidentity)

/-- An identity that the ledger defines, or that a task of the list has whose dependencies are all
resolved: the least set of identities that can be published. -/
inductive Resolved (isDefined : PhaseId → String → Bool) (tasks : List (TaskInfo I)) :
    TaskIdentity → Prop
  | ledger {identity : TaskIdentity} (h : isDefined (ofLex identity).1 (ofLex identity).2 = true) :
    Resolved isDefined tasks identity
  | released {task : TaskInfo I} (htask : task ∈ tasks)
    (hdeps : ∀ identity ∈ dependencies task, Resolved isDefined tasks identity) :
    Resolved isDefined tasks task.identity

open Classical in
/-- A task with its dependencies that are not resolved. -/
noncomputable def unresolved (isDefined : PhaseId → String → Bool) (tasks : List (TaskInfo I))
    (task : TaskInfo I) : Parked I :=
  ⟨task, (dependencies task).filter fun identity => ¬Resolved isDefined tasks identity⟩

/-- What an admission is for: of the incoming tasks and the parked ones after them, those are
released whose dependencies are all resolved, and the others are parked with what is not. -/
def AdmitsLeast (queue : PendingSpawnQueue I) (incoming : List (TaskInfo I))
    (isDefined : PhaseId → String → Bool) : Prop :=
  let tasks := incoming ++ queue.parked.map Parked.task
  let settled := tasks.map (unresolved isDefined tasks)
  queue.admitBatch incoming isDefined = (⟨settled.filter fun c => c.unmet ≠ ∅⟩,
    (settled.filter fun c => c.unmet = ∅).map Parked.task)

/-- The unmet dependencies are those that do not resolve. -/
theorem mem_unresolved : identity ∈ (unresolved isDefined tasks task).unmet ↔
    identity ∈ dependencies task ∧ ¬Resolved isDefined tasks identity := by
  classical exact Finset.mem_filter

/-- What is admitted depends on resolved tasks only. -/
theorem AdmitsLeast.resolved (h : queue.AdmitsLeast incoming isDefined)
    (htask : task ∈ (queue.admitBatch incoming isDefined).2) (hdep : identity ∈ dependencies task) :
    Resolved isDefined (incoming ++ queue.parked.map Parked.task) identity := by
  rw [h] at htask
  obtain ⟨c, hc, rfl⟩ := mem_map.mp htask
  obtain ⟨hc, hempty⟩ := mem_filter.mp hc
  obtain ⟨task, -, rfl⟩ := mem_map.mp hc
  by_contra hnot
  exact Finset.eq_empty_iff_forall_notMem.mp (of_decide_eq_true hempty) identity
    (mem_unresolved.mpr ⟨hdep, hnot⟩)

/-- A right record: it lists dependencies, and those that it leaves out are resolved. -/
structure Tracks (isDefined : PhaseId → String → Bool) (tasks : List (TaskInfo I))
    (c : Parked I) : Prop where
  subset : c.unmet ⊆ dependencies c.task
  resolved : ∀ identity ∈ dependencies c.task, identity ∉ c.unmet →
    Resolved isDefined tasks identity

/-- Resolved identities may be taken from a record. -/
theorem Tracks.filter (h : Tracks isDefined tasks c) {kept : TaskIdentity → Prop}
    [DecidablePred kept] (hkept : ∀ identity, ¬kept identity → Resolved isDefined tasks identity) :
    Tracks isDefined tasks { c with unmet := c.unmet.filter kept } := by
  refine ⟨(Finset.filter_subset _ _).trans h.subset, fun identity hdep hnot => ?_⟩
  by_cases hunmet : identity ∈ c.unmet
  · exact hkept identity fun h => hnot (Finset.mem_filter.mpr ⟨hunmet, h⟩)
  · exact h.resolved identity hdep hunmet

/-- Probing again keeps track of the dependencies. -/
theorem Tracks.reprobe (h : Tracks isDefined tasks c) :
    Tracks isDefined tasks (reprobe isDefined c) :=
  h.filter fun _ hdefined => .ledger (by simpa using hdefined)

/-- A parked task keeps track of its dependencies. -/
theorem tracks_park : Tracks isDefined tasks (park isDefined task) := by
  have hpark : park isDefined task = reprobe isDefined ⟨task, dependencies task⟩ := by
    rw [park, PendingSpawnQueue.reprobe, dependencies, ← toFinset_filter, filter_map]
    rfl
  rw [hpark]
  exact Tracks.reprobe ⟨Finset.Subset.refl _, fun identity hdep hnot => absurd hdep hnot⟩

section

variable (htasks : candidates.map Parked.task = tasks)
  (h : ∀ c ∈ candidates, Tracks isDefined tasks c)
include htasks h

/-- A pass takes away resolved identities only. -/
theorem tracks_releasePass : ∀ c ∈ releasePass candidates, Tracks isDefined tasks c := by
  intro c' hc'
  obtain ⟨c, hc, rfl⟩ := mem_map.mp hc'
  refine (h c hc).filter fun identity hready => ?_
  obtain ⟨ready, hmem, rfl⟩ := mem_map.mp (not_not.mp hready)
  obtain ⟨hmem, hempty⟩ := mem_filter.mp hmem
  refine .released (htasks ▸ mem_map_of_mem hmem) fun identity hdep => ?_
  exact (h ready hmem).resolved identity hdep (by simp [of_decide_eq_true hempty])

/-- So does every round of the release. -/
theorem tracks_releaseLoop (rounds : ℕ) :
    ∀ c ∈ releaseLoop rounds candidates, Tracks isDefined tasks c := by
  induction rounds generalizing candidates with
  | zero => exact h
  | succ rounds ih =>
    have hpass := tracks_releasePass htasks h
    rw [releaseLoop]
    split
    · exact hpass
    · exact ih ((narrowed_releasePass candidates).map_task.trans htasks) hpass

variable (hsettled : Settled candidates)
  (hundefined : ∀ c ∈ candidates, ∀ identity ∈ c.unmet,
    isDefined (ofLex identity).1 (ofLex identity).2 = false)
include hsettled hundefined

/-- Once nothing waits for a released task, nothing waits for a resolved identity. -/
theorem notMem_unmet_of_resolved (hresolved : Resolved isDefined tasks identity) :
    ∀ c ∈ candidates, identity ∉ c.unmet := by
  induction hresolved with
  | ledger hdefined =>
    intro c hc hunmet
    exact absurd hdefined (by simp [hundefined c hc _ hunmet])
  | @released task htask _ ih =>
    rw [← htasks] at htask
    obtain ⟨ready, hready, rfl⟩ := mem_map.mp htask
    intro c hc
    refine hsettled c hc ready hready (Finset.eq_empty_of_forall_notMem fun identity hunmet => ?_)
    exact ih identity ((h ready hready).subset hunmet) ready hready hunmet

/-- Each candidate then waits for exactly its unresolved dependencies. -/
theorem eq_map_unresolved : candidates = tasks.map (unresolved isDefined tasks) := by
  have hrecord : ∀ c ∈ candidates, unresolved isDefined tasks c.task = c := by
    intro c hc
    have hunmet : (unresolved isDefined tasks c.task).unmet = c.unmet := by
      ext identity
      rw [mem_unresolved]
      constructor
      · rintro ⟨hdep, hnot⟩
        exact not_not.mp fun hunmet => hnot ((h c hc).resolved identity hdep hunmet)
      · intro hmem
        exact ⟨(h c hc).subset hmem, fun hresolved =>
          notMem_unmet_of_resolved htasks h hsettled hundefined hresolved c hc hmem⟩
    cases c
    exact congrArg (Parked.mk _) hunmet
  calc candidates = candidates.map fun c => unresolved isDefined tasks c.task := by
        rw [map_congr_left hrecord, map_id']
    _ = (candidates.map Parked.task).map (unresolved isDefined tasks) := by
        rw [map_map, Function.comp_def]
    _ = tasks.map (unresolved isDefined tasks) := by rw [htasks]

end

/-- An admission stops after one pass for each missing dependency and one more. It releases the
least set of tasks exactly when every dependency that a parked task no longer waits for is resolved:
one that was released before and then refused by the validation is not. -/
theorem admitBatch_least_iff (queue : PendingSpawnQueue I) (hqueue : queue.WellFormed)
    (incoming : List (TaskInfo I)) (isDefined : PhaseId → String → Bool) :
    (∀ rounds (candidates : List (Parked I)), missing candidates < rounds →
      releasePass (releaseLoop rounds candidates) = releaseLoop rounds candidates) ∧
    (queue.AdmitsLeast incoming isDefined ↔
      ∀ p ∈ queue.parked, ∀ identity ∈ dependencies p.task, identity ∉ p.unmet →
        Resolved isDefined (incoming ++ queue.parked.map Parked.task) identity) := by
  refine ⟨fun rounds candidates hrounds =>
    releasePass_eq_self_iff.mpr (releaseLoop_spec hrounds).2, ?_⟩
  set tasks := incoming ++ queue.parked.map Parked.task with htasks
  set candidates := (incoming.map (park isDefined) ++ queue.parked).map (reprobe isDefined)
    with hcandidates
  obtain ⟨hnarrowed, hsettled⟩ := releaseLoop_spec (missing candidates).lt_succ_self
  constructor
  · intro h p hp identity hdep hunmet
    by_contra hnot
    -- the admission leaves `p` the record it had or a smaller one, which lacks the dependency
    obtain ⟨c, hc, htask, hsub⟩ := exists_of_mem_forall₂ hnarrowed
      (mem_map_of_mem (mem_append_right (incoming.map (park isDefined)) hp))
    by_cases hempty : c.unmet = ∅
    · have hmem : c.task ∈ (queue.admitBatch incoming isDefined).2 :=
        mem_map_of_mem (mem_filter.mpr ⟨hc, decide_eq_true hempty⟩)
      exact hnot (h.resolved hmem (by rwa [htask]))
    · have hmem : c ∈ (queue.admitBatch incoming isDefined).1.parked :=
        mem_filter.mpr ⟨hc, decide_eq_true hempty⟩
      rw [h] at hmem
      obtain ⟨task, -, rfl⟩ := mem_map.mp (mem_filter.mp hmem).1
      obtain rfl : task = p.task := htask
      exact hunmet (Finset.filter_subset _ _ (hsub (mem_unresolved.mpr ⟨hdep, hnot⟩)))
  · intro hkept
    have hmap : candidates.map Parked.task = tasks := by
      simp [hcandidates, htasks, Function.comp_def, park, reprobe]
    have htracks : ∀ c ∈ candidates, Tracks isDefined tasks c := by
      intro c' hc'
      obtain ⟨c, hc, rfl⟩ := mem_map.mp hc'
      rcases mem_append.mp hc with hc | hc
      · obtain ⟨task, -, rfl⟩ := mem_map.mp hc
        exact tracks_park.reprobe
      · exact Tracks.reprobe ⟨hqueue c hc, hkept c hc⟩
    have hfinal := eq_map_unresolved (hnarrowed.map_task.trans hmap)
      (tracks_releaseLoop hmap htracks _) hsettled fun c hc identity hunmet => by
        obtain ⟨c₀, hc₀, -, hsub⟩ := hnarrowed.exists_of_mem hc
        obtain ⟨c₁, -, rfl⟩ := mem_map.mp hc₀
        simpa using (Finset.mem_filter.mp (hsub hunmet)).2
    rw [AdmitsLeast, ← htasks, ← hfinal]
    rfl

end LeastFixpoint

end PendingSpawnQueue

namespace Sample

open PendingSpawnQueue

/-- What waits is released with the task that it waits for. -/
theorem waiting_task_released : (empty.admitBatch [task "b" ["a"]] fun _ _ => false).1.AdmitsLeast
    [task "a" []] fun _ _ => false := by
  refine (admitBatch_least_iff _ ?_ [task "a" []] fun _ _ => false).2.mpr
    fun p hp identity hdep h =>
    absurd ?_ h
  · exact wellFormed_admitBatch fun p hp => absurd hp not_mem_nil
  · clear h
    revert p identity
    decide +kernel

/-- A task waits for two others. The first is released and, say, refused because its phase is over;
when the second comes, the task is released although the first is not defined. -/
theorem refused_dependency_forgotten :
    let queue := ((empty.admitBatch [task "c" ["a", "b"]] fun _ _ => false).1.admitBatch
      [task "a" []] fun _ _ => false).1
    (queue.admitBatch [task "b" []] fun _ _ => false).2 = [task "b" [], task "c" ["a", "b"]] ∧
      ¬queue.AdmitsLeast [task "b" []] fun _ _ => false := by
  intro queue
  have hreleased : (queue.admitBatch [task "b" []] fun _ _ => false).2 =
      [task "b" [], task "c" ["a", "b"]] := by decide +kernel
  refine ⟨hreleased, fun h => ?_⟩
  have hmem : task "c" ["a", "b"] ∈ (queue.admitBatch [task "b" []] fun _ _ => false).2 := by
    rw [hreleased]
    decide
  have hdep : toLex ("p", "a") ∈ dependencies (task "c" ["a", "b"]) := by decide
  generalize hidentity : toLex ("p", "a") = identity at hdep
  cases h.resolved hmem hdep with
  | ledger hdefined => cases hdefined
  | @released waiting htask =>
    have hnone : ∀ waiting ∈ [task "b" []] ++ queue.parked.map Parked.task,
        toLex ("p", "a") ≠ waiting.identity := by decide +kernel
    exact hnone waiting htask hidentity

end Sample

end DynRunner
