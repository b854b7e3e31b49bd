import DynRunner.Ledger.Paused

/-!
# The fate of a spawned dependent

A task spawned with several unresolved dependencies is paused on one of them. What then
happens to it is decided by the first resolution of that one alone: a completion makes it
pending and a permanent failure fails it, whatever becomes of the other dependencies. So a
dependent of a failed task is dispatched when the recorded prerequisite completes.
-/

namespace DynRunner

open ClusterMutation ClusterState TaskStatus Ledger List

variable {I : Type} {h x : TaskHash} {m : ClusterMutation I} {status : TaskStatus}

/-- The variants whose arrival reaches the tasks paused on the entry. A skipped task is
resolved too, but nobody is told. -/
def TaskStatus.announces (status : TaskStatus) : Bool :=
  status = .completed || status = .setupCompleted || status.isCascadeTerminal

/-- An announced task is resolved. -/
theorem TaskStatus.resolved_of_announces (h : status.announces = true) :
    status.resolved = true := by
  cases status <;> simp_all [announces, resolved, isSuccess]

namespace Ledger

/-- The variant a task is in. -/
def statusOf (L : Ledger I) (h : TaskHash) : Option TaskStatus := (L h).map (·.status)

/-- The statuses after one entry is written. -/
theorem statusOf_put (L : Ledger I) (h x : TaskHash) (st : TaskState I) :
    (L.put h st).statusOf x = if x = h then some st.status else L.statusOf x := by
  rw [statusOf, put_apply]
  split <;> rfl

variable {L L' : Ledger I} {on : TaskHash} {new : TaskState I}

/-- Waiting is a matter of the status. -/
theorem waits_iff_statusOf : L.Waits x on ↔ L.statusOf x = some (.blocked on) := by
  simp [Waits, Board.Waits, statusOf, TaskState.waitsOn_eq_some]

/-- A resumed task is pending. -/
theorem statusOf_resumeOn_of_waits (hw : L.Waits x h) :
    (L.resumeOn h).statusOf x = some (.pending .default) := by
  obtain ⟨st, hst, hon⟩ := hw
  rw [statusOf, resumeOn_of_waits hst hon]
  rfl

/-- A doomed task has failed. -/
theorem statusOf_failOn_of_doomed (hx : x ∈ L.doomed h) :
    (L.failOn h).statusOf x = some (.failed .nonRecoverable "upstream-failed" .default) := by
  obtain ⟨y, st, hst, _⟩ := exists_waits_of_doomed hx
  rw [statusOf, failOn_of_doomed hx, hst]
  rfl

variable [DefaultHasher]

/-- The changes of a ledger that are not reports about `x` itself. -/
inductive ChangeBeside (x : TaskHash) (L : Ledger I) : Ledger I → Prop
  /-- New entries, or none. -/
  | extend {L' : Ledger I} (h : ∀ h st, L h = some st → L' h = some st) : ChangeBeside x L L'
  /-- Another definition or routing. -/
  | retouch {h : TaskHash} {st new : TaskState I} (hst : L h = some st)
      (hstatus : new.status = st.status) : ChangeBeside x L (L.put h new)
  /-- An outcome report on another task. -/
  | offer {h : TaskHash} (hx : h ≠ x) {status : TaskStatus} (attempt : ℕ)
      (hsetup : status ≠ .setupCompleted) : ChangeBeside x L (L.offer h status attempt)
  /-- Another task moves without telling its dependents. -/
  | rewrite {h : TaskHash} (hx : h ≠ x) {new : TaskState I} (hnew : new.status.announces = false) :
      ChangeBeside x L (L.put h new)
  /-- Another task completes its setup. -/
  | setup {h : TaskHash} (hx : h ≠ x) {new : TaskState I} (hnew : new.status = .setupCompleted) :
      ChangeBeside x L ((L.put h new).resumeOn h)

/-- Task `x` is paused on a prerequisite that has not been announced yet. -/
structure Waiting (L : Ledger I) (x on : TaskHash) : Prop where
  paused : L.statusOf x = some (.blocked on)
  unannounced : ∃ status, L.statusOf on = some status ∧ status.announces = false

/-- The prerequisite is announced, and `x` has followed it. -/
def Followed (L : Ledger I) (x on : TaskHash) : Prop :=
  ∃ status, L.statusOf on = some status ∧ status.announces = true ∧
    L.statusOf x = some (if status.isCascadeTerminal
      then .failed .nonRecoverable "upstream-failed" .default else .pending .default)

omit [DefaultHasher] in
/-- A write that announces nothing leaves the task waiting. -/
theorem Waiting.put (hw : L.Waiting x on)
    (hx : h = x → new.status = .blocked on) (hon : h = on → new.status.announces = false) :
    (L.put h new).Waiting x on := by
  obtain ⟨status, hstatus, hun⟩ := hw.unannounced
  refine ⟨?_, ?_⟩
  · rw [statusOf_put]
    split
    · rename_i hxh
      rw [hx hxh.symm]
    · exact hw.paused
  · rw [statusOf_put]
    split
    · rename_i honh
      exact ⟨_, rfl, hon honh.symm⟩
    · exact ⟨status, hstatus, hun⟩

omit [DefaultHasher] in
/-- A success of another task: `x` goes on waiting, or it waited on that task and is resumed. -/
theorem Waiting.put_resumeOn (hw : L.Waiting x on)
    (hx : h ≠ x) (hnew : new.status = .completed ∨ new.status = .setupCompleted) :
    ((L.put h new).resumeOn h).Waiting x on ∨ ((L.put h new).resumeOn h).Followed x on := by
  have hpaused : (L.put h new).statusOf x = some (.blocked on) := by
    rw [statusOf_put, if_neg hx.symm]
    exact hw.paused
  have hopen : new.waitsOn = none := by
    rcases hnew with hnew | hnew <;> rw [TaskState.waitsOn, hnew] <;> rfl
  by_cases hon : h = on
  · subst hon
    have hself : ¬(L.put h new).Waits h h := by
      rintro ⟨st, hst, hwait⟩
      rw [put_same] at hst
      cases hst
      rw [hopen] at hwait
      cases hwait
    refine .inr ⟨new.status, ?_, ?_, ?_⟩
    · rw [statusOf, resumeOn_of_not_waits hself, put_same]
      rfl
    · rcases hnew with hnew | hnew <;> rw [hnew] <;> rfl
    · rw [statusOf_resumeOn_of_waits (waits_iff_statusOf.mpr hpaused), if_neg]
      rcases hnew with hnew | hnew <;> rw [hnew] <;> rintro ⟨⟩
  · -- `x` waits on something else; its prerequisite may itself be resumed.
    have hnot : ¬(L.put h new).Waits x h := by
      rw [waits_iff_statusOf, hpaused]
      intro heq
      cases heq
      exact hon rfl
    refine .inl ⟨?_, ?_⟩
    · rw [statusOf, resumeOn_of_not_waits hnot]
      exact hpaused
    · by_cases hwait : (L.put h new).Waits on h
      · exact ⟨_, statusOf_resumeOn_of_waits hwait, rfl⟩
      · rw [statusOf, resumeOn_of_not_waits hwait]
        have hput := statusOf_put L h on new
        rw [if_neg (Ne.symm hon)] at hput
        rw [← statusOf, hput]
        exact hw.unannounced

omit [DefaultHasher] in
/-- A permanent failure of another task: `x` goes on waiting, or its prerequisite fails, by
itself or with the cascade, and `x` fails with it. -/
theorem Waiting.put_failOn (hw : L.Waiting x on)
    (hx : h ≠ x) (hnew : new.status.isCascadeTerminal = true) :
    ((L.put h new).failOn h).Waiting x on ∨ ((L.put h new).failOn h).Followed x on := by
  have hpaused : (L.put h new).Waits x on := by
    rw [waits_iff_statusOf, statusOf_put, if_neg hx.symm]
    exact hw.paused
  have hself : h ∉ (L.put h new).doomed h := by
    intro hdoomed
    obtain ⟨y, st, hst, hwait⟩ := exists_waits_of_doomed hdoomed
    rw [put_same] at hst
    cases hst
    rw [waitsOn_of_isCascadeTerminal hnew] at hwait
    cases hwait
  have hfollow : ∀ status : TaskStatus, status.isCascadeTerminal = true →
      ((L.put h new).failOn h).statusOf on = some status → x ∈ (L.put h new).doomed h →
      ((L.put h new).failOn h).Followed x on := by
    intro status hcascade hstatus hdoomed
    refine ⟨status, hstatus, by simp [announces, hcascade], ?_⟩
    rw [if_pos hcascade]
    exact statusOf_failOn_of_doomed hdoomed
  have hdoom : x ∈ (L.put h new).doomed h ↔ on = h ∨ on ∈ (L.put h new).doomed h :=
    Board.mem_doomed_iff TaskState.waitsOn hpaused
  by_cases hon : on = h
  · subst hon
    refine .inr (hfollow new.status hnew ?_ (hdoom.mpr (.inl rfl)))
    rw [statusOf, failOn_of_not_doomed hself, put_same]
    rfl
  · by_cases hdoomed : on ∈ (L.put h new).doomed h
    · exact .inr (hfollow _ rfl (statusOf_failOn_of_doomed hdoomed) (hdoom.mpr (.inr hdoomed)))
    · have hxsafe : x ∉ (L.put h new).doomed h := fun hx => (hdoom.mp hx).elim hon hdoomed
      refine .inl ⟨?_, ?_⟩
      · rw [statusOf, failOn_of_not_doomed hxsafe]
        exact waits_iff_statusOf.mp hpaused
      · rw [statusOf, failOn_of_not_doomed hdoomed, put_of_ne hon]
        exact hw.unannounced

/-- **One change beside a waiting task** leaves it waiting, or announces its prerequisite and
takes the task with it. -/
theorem ChangeBeside.waiting (hc : ChangeBeside x L L')
    (hw : L.Waiting x on) : L'.Waiting x on ∨ L'.Followed x on := by
  have hkeep : ∀ {h : TaskHash} {new : TaskState I}, h ≠ x → new.status.announces = false →
      (L.put h new).Waiting x on := fun hx hnew => hw.put (fun h => (hx h).elim) fun _ => hnew
  cases hc with
  | extend hext =>
    obtain ⟨status, hstatus, hun⟩ := hw.unannounced
    have hsame : ∀ {h status}, L.statusOf h = some status → L'.statusOf h = some status := by
      intro h status hstatus
      obtain ⟨st, hst, rfl⟩ := Option.map_eq_some_iff.mp hstatus
      rw [statusOf, hext h st hst]
      rfl
    exact .inl ⟨hsame hw.paused, status, hsame hstatus, hun⟩
  | @retouch h st new hst hstatus =>
    have hold : L.statusOf h = some st.status := by rw [statusOf, hst]; rfl
    obtain ⟨status, hs, hun⟩ := hw.unannounced
    refine .inl (hw.put (fun hx => ?_) fun hon => ?_)
    · have hpaused := hw.paused
      rw [← hx, hold] at hpaused
      rw [hstatus]
      exact Option.some.inj hpaused
    · rw [← hon, hold] at hs
      cases hs
      rw [hstatus]
      exact hun
  | rewrite hx hnew => exact .inl (hkeep hx hnew)
  | setup hx hnew => exact hw.put_resumeOn hx (.inr hnew)
  | @offer h hx status attempt hsetup =>
    cases hst : L h with
    | none =>
      rw [offer_none hst]
      exact .inl hw
    | some st =>
      rw [offer_some hst, merge]
      split
      case isFalse => exact .inl hw
      case isTrue =>
        split
        case isTrue hfirst =>
          rw [← put_resumeOn (by rw [TaskState.waitsOn, hfirst.1]; rfl)]
          exact hw.put_resumeOn hx (.inl hfirst.1)
        case isFalse hfirst =>
          split
          case isTrue hcascade => exact hw.put_failOn hx hcascade
          case isFalse hcascade =>
            refine .inl (hw.put (fun h => (hx h).elim) fun hon => ?_)
            -- A repeated completion would be one of an announced prerequisite.
            have hdone : status ≠ .completed := by
              intro hdone
              refine hfirst ⟨hdone, fun st' hst' hdone' => ?_⟩
              obtain ⟨status', hs, hun⟩ := hw.unannounced
              rw [← hon, statusOf, hst'] at hs
              cases hs
              change st'.status.announces = false at hun
              rw [hdone'] at hun
              cases hun
            simp [announces, hdone, hsetup, hcascade]

/-- **A change beside a task that is not paused** leaves it in its variant. -/
theorem ChangeBeside.statusOf_eq (hc : ChangeBeside x L L')
    {status : TaskStatus} (hx : L.statusOf x = some status) (hopen : status.blockedOn = none) :
    L'.statusOf x = some status := by
  have hput : ∀ {h : TaskHash} {new : TaskState I}, h ≠ x →
      (L.put h new).statusOf x = some status := by
    intro h new hne
    rw [statusOf_put, if_neg hne.symm, hx]
  have hnot : ∀ {M : Ledger I} {y : TaskHash}, M.statusOf x = some status → ¬M.Waits x y := by
    intro M y hM hw
    rw [waits_iff_statusOf, hM] at hw
    cases hw
    cases hopen
  cases hc with
  | extend hext =>
    obtain ⟨st, hst, rfl⟩ := Option.map_eq_some_iff.mp hx
    rw [statusOf, hext x st hst]
    rfl
  | @retouch h st new hst hstatus =>
    by_cases hne : h = x
    · subst hne
      rw [statusOf_put, if_pos rfl, hstatus, ← hx, statusOf, hst]
      rfl
    · exact hput hne
  | rewrite hne => exact hput hne
  | setup hne =>
    rw [statusOf, resumeOn_of_not_waits (hnot (hput hne))]
    exact hput hne
  | @offer h hne offered attempt =>
    cases hst : L h with
    | none => rwa [offer_none hst]
    | some st =>
      rw [offer_some hst, merge]
      split
      case isFalse => exact hx
      case isTrue =>
        split
        case isTrue =>
          rw [statusOf_put, if_neg hne.symm, statusOf, resumeOn_of_not_waits (hnot hx)]
          exact hx
        case isFalse =>
          split
          case isTrue =>
            have hsafe :
                x ∉ (L.put h { st with status := offered, attempt := attempt }).doomed h := by
              intro hdoomed
              obtain ⟨y, hy⟩ := exists_waits_of_doomed hdoomed
              exact hnot (hput hne) hy
            rw [statusOf, failOn_of_not_doomed hsafe]
            exact hput hne
          case isFalse => exact hput hne

end Ledger

/-- The task whose progress a mutation reports. -/
def ClusterMutation.reportsOn : ClusterMutation I → Option TaskHash
  | .taskAssigned hash .. | .taskCompleted hash .. | .taskFailed hash .. => some hash
  | .taskReinjected hash _ | .taskRequeued hash _ | .taskRetried hash .. => some hash
  | .taskBlocked hash _ | .taskSkippedAlreadyDone hash | .setupCompleted hash => some hash
  | _ => none

/-- A candidate reports on its own task. -/
theorem ClusterMutation.reportsOn_of_candidate
    {attempt : ℕ} (hm : m.candidate = some (h, status, attempt)) :
    m.reportsOn = some h := by
  cases m <;> simp only [candidate, Option.some.injEq, Prod.mk.injEq, reduceCtorEq] at hm <;>
    rw [← hm.1] <;> rfl

/-- What a mutation that offers nothing does beside a task that it does not report on. -/
theorem Ledger.Touched.changeBeside [DefaultHasher] {L L' : Ledger I}
    (h : L.Touched m L') (hm : m.reportsOn ≠ some x) : ChangeBeside x L L' := by
  cases h with
  | same => exact .extend fun _ _ h => h
  | insert definition routing _ hnew =>
    refine .extend fun y st hst => ?_
    have hne : y ≠ _ := fun hy => by
      rw [hy, hnew] at hst
      cases hst
    rw [put_of_ne hne, hst]
  | rewrite hrewrites hst hrule =>
    rcases rewriteRule_cases hrewrites hrule with ⟨_, rfl, rfl, -⟩ |
      ⟨_, rfl, rfl, -⟩ | ⟨_, rfl, rfl, -⟩ | ⟨_, rfl, rfl, -⟩ | ⟨rfl, rfl, -⟩ <;>
    exact .rewrite (fun h => hm (congrArg some h)) rfl
  | setup hsetup hst hrule =>
    subst hsetup
    obtain ⟨rfl, -⟩ := setupRewrite_eq_some hrule
    exact .setup (fun h => hm (congrArg some h)) rfl
  | retouch hst hstatus => exact .retouch hst hstatus

namespace ClusterState

/-- Settling keeps the verdict about a dependency. -/
theorem depVerdict_settledClassOf {settledClass : SettledClass}
    (h : settledClassOf status = some settledClass) :
    settledClass.depVerdict = status.depVerdict := by
  cases status with
  | failed kind =>
    simp only [settledClassOf, ite_eq_iff, Option.some.injEq, reduceCtorEq, and_false,
      false_or] at h
    rw [← h.2]
    cases kind <;> rfl
  | _ => cases h <;> rfl

variable [DefaultHasher] [RecordCodec I] [Identifier I]

variable {acc : ApplyResult I} {st : TaskState I} {s : ClusterState I}
  {ms : List (ClusterMutation I)}

/-- Spawning leaves the entries that are there alone. -/
theorem spawnTask_extends (hlegible : acc.state.Legible) {spawned : TaskInfo I × Option TaskDefId}
    (hst : acc.state.logical h = some st) : (spawnTask acc spawned).state.logical h = some st := by
  rcases (adds_spawnTask acc spawned).logical with ⟨_, hsame⟩ | ⟨hnew, _, ⟨_, hsame, _⟩ | hput⟩
  · rw [hsame, hst]
  · rw [hsame, hst]
  · obtain ⟨definition, routing, _, hput, _⟩ := hput
    have hnone := (logical_eq_none_iff hlegible).mpr hnew
    have hne : h ≠ computeTaskHash spawned.1 := by
      rintro rfl
      rw [hst] at hnone
      cases hnone
    rw [hput, put_of_ne hne, hst]

/-- Spawning changes no known task. -/
theorem foldl_spawnTask_extends {l : List (TaskInfo I × Option TaskDefId)}
    (hlegible : acc.state.Legible) (hst : acc.state.logical h = some st) :
    (l.foldl spawnTask acc).state.logical h = some st := by
  induction l generalizing acc with
  | nil => exact hst
  | cons spawned l ih =>
    exact ih (hlegible.steps (spawnTask_steps acc spawned)) (spawnTask_extends hlegible hst)

variable [DonePayloadCodec]

/-- **A mutation that does not report on a task is a change beside it.** -/
theorem apply_changeBeside (hs : s.Consistent) (hlegible : s.Legible)
    {m : ClusterMutation I} (hm : m.reportsOn ≠ some x) :
    ChangeBeside x s.logical (s.apply m).state.logical := by
  rcases apply_cases hs hlegible m with
    ⟨h, status, attempt, hoffered, hoffer⟩ | ⟨_, _, rfl⟩ | htouched
  · rw [hoffer]
    refine .offer ?_ attempt (candidate_ne hoffered).2.2
    rintro rfl
    exact hm (reportsOn_of_candidate hoffered)
  · exact .extend fun _ _ hst => foldl_spawnTask_extends hlegible hst
  · exact htouched.changeBeside hm

/-- The states a node passes through, from the given one on. -/
def visited (s : ClusterState I) : List (ClusterMutation I) → List (ClusterState I)
  | [] => [s]
  | m :: ms => s :: (s.apply m).state.visited ms

/-- The first variant of a task along a run that reaches the tasks paused on it. -/
def firstResolution (on : TaskHash) (s : ClusterState I) :
    List (ClusterMutation I) → Option TaskStatus
  | [] => (s.logical.statusOf on).filter announces
  | m :: ms => ((s.logical.statusOf on).filter announces).or
      ((s.apply m).state.firstResolution on ms)

/-- At the end of a run the task has failed for good, and it was never pending on the way. -/
def FailsUndispatched (x : TaskHash) (s : ClusterState I) (ms : List (ClusterMutation I)) : Prop :=
  (∃ error version, (s.applyAll ms).logical.statusOf x =
      some (.failed .nonRecoverable error version)) ∧
    ∀ t ∈ s.visited ms, ∀ version, t.logical.statusOf x ≠ some (.pending version)

/-- A task that is not paused keeps its variant while nothing reports on it. -/
theorem statusOf_visited (hs : s.Consistent) (hlegible : s.Legible)
    (hms : ∀ m ∈ ms, m.reportsOn ≠ some x) (hx : s.logical.statusOf x = some status)
    (hopen : status.blockedOn = none) : (s.applyAll ms).logical.statusOf x = some status ∧
      ∀ t ∈ s.visited ms, t.logical.statusOf x = some status := by
  induction ms generalizing s with
  | nil => exact ⟨hx, by simpa [visited] using hx⟩
  | cons m ms ih =>
    have hsteps := apply_steps s m
    have hnext := (apply_changeBeside hs hlegible (hms m mem_cons_self)).statusOf_eq hx hopen
    obtain ⟨hend, hpass⟩ := ih (hs.steps hlegible.keeps hsteps) (hlegible.steps hsteps)
      (fun m' hm' => hms m' (mem_cons_of_mem m hm')) hnext
    exact ⟨hend, forall_mem_cons.mpr ⟨hx, hpass⟩⟩

/-- A node has visited its own state. -/
theorem mem_visited_self : s ∈ s.visited ms := by cases ms <;> exact mem_cons_self

/-- **A paused task is decided by the first resolution of the prerequisite it records.** -/
theorem failsUndispatched_iff_of_waiting (hs : s.Consistent)
    (hlegible : s.Legible) {on : TaskHash} (hw : s.logical.Waiting x on)
    (hms : ∀ m ∈ ms, m.reportsOn ≠ some x) : s.FailsUndispatched x ms ↔
      ∃ status, s.firstResolution on ms = some status ∧ status.isCascadeTerminal = true := by
  obtain ⟨status, hstatus, hun⟩ := hw.unannounced
  have hfilter : (s.logical.statusOf on).filter announces = none := by
    rw [hstatus, Option.filter_some, hun]
    rfl
  induction ms generalizing s status with
  | nil =>
    -- Nothing happens, and the task is still paused.
    simp only [firstResolution, hfilter, FailsUndispatched, applyAll, foldl_nil, hw.paused]
    simp
  | cons m ms ih =>
    have hsteps := apply_steps s m
    have hs' := hs.steps hlegible.keeps hsteps
    have hlegible' := hlegible.steps hsteps
    have hms' : ∀ m' ∈ ms, m'.reportsOn ≠ some x := fun m' hm' =>
      hms m' (mem_cons_of_mem m hm')
    have htail : s.FailsUndispatched x (m :: ms) ↔ (s.apply m).state.FailsUndispatched x ms := by
      simp only [FailsUndispatched, visited, mem_cons, forall_eq_or_imp, hw.paused]
      simp [applyAll]
    rw [htail, firstResolution, hfilter, Option.none_or]
    rcases (apply_changeBeside hs hlegible (hms m mem_cons_self)).waiting hw with
      hw' | ⟨new, hnew, hann, hx⟩
    · obtain ⟨status', hstatus', hun'⟩ := hw'.unannounced
      refine ih hs' hlegible' hw' hms' status' hstatus' hun' ?_
      rw [hstatus', Option.filter_some, hun']
      rfl
    · -- The prerequisite is announced: the task follows it and stays there.
      have hfirst : (s.apply m).state.firstResolution on ms = some new := by
        have hsome : ((s.apply m).state.logical.statusOf on).filter announces = some new := by
          rw [hnew, Option.filter_some, hann]
          rfl
        cases ms <;> simp [firstResolution, hsome]
      simp only [hfirst, Option.some.injEq, exists_eq_left']
      by_cases hcascade : new.isCascadeTerminal = true
      · rw [if_pos hcascade] at hx
        obtain ⟨hend, hpass⟩ := statusOf_visited hs' hlegible' hms' hx rfl
        simp only [hcascade, iff_true]
        refine ⟨⟨_, _, hend⟩, fun t ht version => ?_⟩
        rw [hpass t ht]
        simp
      · rw [if_neg hcascade] at hx
        simp only [hcascade, Bool.false_eq_true, iff_false]
        exact fun hfails => hfails.2 _ mem_visited_self _ hx

/-- The class in the settled index is that of the record. A spill could break this only where
two failures of one attempt and version have the same payload hash. -/
def ClassesMatch (s : ClusterState I) : Prop :=
  ∀ h entry, s.settled.index.lookup h = some entry →
    settledClassOf entry.record.state.status = some entry.settledClass

omit [Identifier I] [DonePayloadCodec] in
/-- The verdict on a dependency is the one on its logical entry. -/
theorem depVerdict_eq (hs : s.Consistent) (hlegible : s.Legible)
    (hclass : s.ClassesMatch) (h : TaskHash) :
    s.depVerdict h = ((s.logical.statusOf h).map TaskStatus.depVerdict).getD .resolved := by
  rw [depVerdict, settledEntry]
  cases hentry : s.settled.index.lookup h with
  | some entry =>
    obtain ⟨record, hread⟩ := hlegible.reads h entry hentry
    have habsent : s.fat h = none := by
      cases hst : s.tasks.lookup h with
      | none => exact hst
      | some st =>
        rw [hs.disjoint h st hst] at hentry
        cases hentry
    have hstatus := (hlegible.keeps h entry record hentry hread).1
    rw [statusOf, logical_of_archive habsent, archive_of_entry hentry hread]
    simp only [Option.map_some, Option.getD_some, hstatus]
    exact depVerdict_settledClassOf (hclass h entry hentry)
  | none =>
    cases hst : s.tasks.lookup h with
    | some =>
      rw [statusOf, logical_of_fat hst]
      rfl
    | none =>
      rw [statusOf, logical_of_archive hst, archive_of_none hentry]
      rfl

/-- A task that is spawned enters in its class; if it is paused, its prerequisite has not been
announced. -/
theorem statusOf_spawned (hs : s.Consistent) (hlegible : s.Legible)
    (hclass : s.ClassesMatch) {task : TaskInfo I} {wire : Option TaskDefId}
    (hplaced : (s.apply (.tasksSpawned [task] [wire])).outcome = .applied) :
    (s.apply (.tasksSpawned [task] [wire])).state.logical.statusOf (computeTaskHash task) =
        some (s.spawnClass task).status ∧
      ∀ on, s.spawnClass task = .blockedOn on →
        (s.apply (.tasksSpawned [task] [wire])).state.logical.Waiting
          (computeTaskHash task) on := by
  change (spawnTask ⟨s, .noOp, [], []⟩ (task, wire)).outcome = _ at hplaced
  change (spawnTask ⟨s, .noOp, [], []⟩ (task, wire)).state.logical.statusOf _ = _ ∧ ∀ on, _ →
    (spawnTask ⟨s, .noOp, [], []⟩ (task, wire)).state.logical.Waiting _ on
  rcases (adds_spawnTask ⟨s, .noOp, [], []⟩ (task, wire)).logical with
    ⟨_, hsame⟩ | ⟨hnew, _, ⟨_, _, hout⟩ | ⟨definition, routing, _, hput, _⟩⟩
  · rw [hsame] at hplaced
    cases hplaced
  · rw [hout] at hplaced
    cases hplaced
  · rw [hput]
    have hself : (s.logical.put (computeTaskHash task)
        ⟨definition, routing, 0, (s.spawnClass task).status⟩).statusOf (computeTaskHash task) =
          some (s.spawnClass task).status := by rw [statusOf_put, if_pos rfl]
    refine ⟨hself, fun on hon => ⟨by rw [hself, hon]; rfl, ?_⟩⟩
    -- The classification looked the prerequisite up, so it is not the new task itself.
    have hverdict := (spawnClass_blockedOn hon).2
    rw [depVerdict_eq hs hlegible hclass] at hverdict
    cases hst : s.logical.statusOf on with
    | none =>
      rw [hst] at hverdict
      rcases hverdict with h | h <;> cases h
    | some status =>
      rw [hst] at hverdict
      have hunresolved := TaskStatus.resolved_of_depVerdict hverdict
      have hne : on ≠ computeTaskHash task := by
        rintro rfl
        rw [statusOf, (logical_eq_none_iff hlegible).mpr hnew] at hst
        cases hst
      refine ⟨status, by rw [statusOf_put, if_neg hne, hst], ?_⟩
      by_contra hann
      rw [resolved_of_announces (Bool.not_eq_false _ ▸ hann)] at hunresolved
      cases hunresolved

/-- Every dependency of a task is known and terminal, and at least one has failed for good. -/
def DependencyFailed (s : ClusterState I) (task : TaskInfo I) : Prop :=
  (∀ dep ∈ task.taskDependsOn, ∃ h status, s.taskHashForDep dep.phaseId dep.taskId = some h ∧
      s.logical.statusOf h = some status ∧ status.isTerminal = true) ∧
    ∃ dep ∈ task.taskDependsOn, ∃ h status, s.taskHashForDep dep.phaseId dep.taskId = some h ∧
      s.logical.statusOf h = some status ∧ status.isCascadeTerminal = true

/-- **When a dependent of a failed task fails.** A spawned task whose dependencies all end,
one of them in a permanent failure, fails without having been pending exactly when a permanent
failure was known at the spawn, or when the one prerequisite the task was paused on is first
resolved by a permanent failure. A dependency that is not known at the spawn counts as resolved
there, so it is enough for a task to be pending that its dependency comes later in the batch. -/
theorem dependent_fails_iff {s : ClusterState I} (hs : s.Consistent) (hlegible : s.Legible)
    (hclass : s.ClassesMatch) (task : TaskInfo I) (wire : Option TaskDefId)
    (hplaced : (s.apply (.tasksSpawned [task] [wire])).outcome = .applied)
    (ms : List (ClusterMutation I)) (hms : ∀ m ∈ ms, m.reportsOn ≠ some (computeTaskHash task)) :
    let t := (s.apply (.tasksSpawned [task] [wire])).state
    ((t.applyAll ms).DependencyFailed task → t.FailsUndispatched (computeTaskHash task) ms) ↔
      ((t.applyAll ms).DependencyFailed task →
        s.spawnClass task = .cascadeFail ∨ ∃ on status, s.spawnClass task = .blockedOn on ∧
          t.firstResolution on ms = some status ∧ status.isCascadeTerminal = true) := by
  intro t
  obtain ⟨hstatus, hwait⟩ := statusOf_spawned hs hlegible hclass hplaced
  have hsteps := apply_steps s (.tasksSpawned [task] [wire])
  have ht : t.Consistent := hs.steps hlegible.keeps hsteps
  have htlegible : t.Legible := hlegible.steps hsteps
  refine imp_congr_right fun _ => ?_
  cases hclassified : s.spawnClass task with
  | cascadeFail =>
    rw [hclassified] at hstatus
    obtain ⟨hend, hpass⟩ := statusOf_visited ht htlegible hms hstatus rfl
    simp only [true_or, iff_true]
    refine ⟨⟨_, _, hend⟩, fun u hu version => ?_⟩
    rw [hpass u hu]
    nofun
  | pending =>
    rw [hclassified] at hstatus
    simp only [reduceCtorEq, false_and, exists_false, or_self, iff_false]
    exact fun hfails => hfails.2 t mem_visited_self _ hstatus
  | blockedOn on =>
    rw [failsUndispatched_iff_of_waiting ht htlegible (hwait on hclassified) hms]
    simp only [reduceCtorEq, SpawnClass.blockedOn.injEq, false_or, exists_and_left, exists_eq_left']

end ClusterState

namespace Sample

/-- A node that knows two independent tasks. -/
def twoTasks : ClusterState String := ClusterState.empty.applyAll
  [.taskAdded "a" (task "a" []) none, .taskAdded "b" (task "b" []) none]

/-- A task that depends on both. -/
def dependent : TaskInfo String := task "x" ["a", "b"]

/-- `twoTasks` after the dependent is spawned; it is paused on the first dependency. -/
def dependentSpawned : ClusterState String :=
  (twoTasks.apply (.tasksSpawned [dependent] [none])).state

/-- The second dependency completes, then the first fails for good. -/
def recordedFails : List (ClusterMutation String) :=
  [.taskCompleted "b" none 0, .taskFailed "a" .nonRecoverable "boom" ⟨1, 1⟩ 0]

/-- The second dependency fails for good, then the first completes. -/
def otherFails : List (ClusterMutation String) :=
  [.taskFailed "b" .nonRecoverable "boom" ⟨1, 1⟩ 0, .taskCompleted "a" none 0]

/-- The sample has spilled nothing. -/
theorem twoTasks_unspilled : twoTasks.Unspilled := (empty_unspilled.steps (apply_steps _ _)).steps
    (apply_steps _ _)

/-- The task fails with the dependency it was paused on. -/
theorem dependent_fails_with_recorded :
    (dependentSpawned.applyAll recordedFails).DependencyFailed dependent ∧
      dependentSpawned.FailsUndispatched (computeTaskHash dependent) recordedFails := by
  have hs := twoTasks_unspilled
  have hclass : twoTasks.ClassesMatch := by
    intro h entry hentry
    cases hentry
  have hfailed : (dependentSpawned.applyAll recordedFails).DependencyFailed dependent := by
    refine ⟨fun dep hdep => ?_, ⟨"a", "p", false, none⟩, by decide, "a",
      .failed .nonRecoverable "boom" ⟨1, 1⟩, by decide, by decide, by decide⟩
    rcases mem_pair.mp hdep with rfl | rfl
    · exact ⟨"a", .failed .nonRecoverable "boom" ⟨1, 1⟩, by decide, by decide, by decide⟩
    · exact ⟨"b", .completed, by decide, by decide, by decide⟩
  refine ⟨hfailed, (dependent_fails_iff hs.consistent hs.legible hclass dependent none
    (by decide) recordedFails (by decide)).mpr (fun _ => .inr ?_) hfailed⟩
  exact ⟨"a", .failed .nonRecoverable "boom" ⟨1, 1⟩, by decide, by decide, by decide⟩

/-- The failure of the other dependency goes unnoticed: the completion of the recorded one
makes the task pending and hands it to the dispatcher. -/
theorem dependent_dispatched_despite_failure :
    (dependentSpawned.applyAll otherFails).DependencyFailed dependent ∧
      (dependentSpawned.applyAll otherFails).logical.statusOf (computeTaskHash dependent) =
        some (.pending .default) ∧
      (((dependentSpawned.apply (.taskFailed "b" .nonRecoverable "boom" ⟨1, 1⟩ 0)).state.apply
        (.taskCompleted "a" none 0)).resumed.map (·.taskId)) = ["x"] := by
  refine ⟨⟨fun dep hdep => ?_, ⟨"b", "p", false, none⟩, by decide, "b",
    .failed .nonRecoverable "boom" ⟨1, 1⟩, by decide, by decide, by decide⟩, by decide, by decide⟩
  rcases mem_pair.mp hdep with rfl | rfl
  · exact ⟨"a", .completed, by decide, by decide, by decide⟩
  · exact ⟨"b", .failed .nonRecoverable "boom" ⟨1, 1⟩, by decide, by decide, by decide⟩

end Sample

end DynRunner
