import DynRunner.Ledger.Effects

/-!
# Paused tasks wait on something that can still change

A paused task should wait on a prerequisite that has neither succeeded nor failed for good.
Merges keep this, because a completion resumes and a permanent failure cascades. Five writes
do not look: pausing a task on a prerequisite that is already resolved, skipping a task that
others wait on, spawning a task as failed while others wait on it, and merging a paused, a
skipped or a setup-completed entry from a snapshot. In every run in which these five happen
only where they are harmless, the property holds throughout.
-/

namespace DynRunner

open ClusterMutation ClusterState TaskState

variable {I : Type} {status : TaskStatus}

/-- The prerequisite has succeeded, or failed for good. -/
def TaskStatus.resolved (status : TaskStatus) : Bool :=
  status.isSuccess || status.isCascadeTerminal

/-- A resolved task has failed for good or succeeded. -/
theorem TaskStatus.resolved_cases (h : status.resolved = true) :
    status.isCascadeTerminal = true ∨ status = .completed ∨ status = .skippedAlreadyDone ∨
      status = .setupCompleted := by
  cases status <;> simp_all [resolved, isSuccess]

/-- What the spawn classification calls unresolved or unfulfillable is not resolved. -/
theorem TaskStatus.resolved_of_depVerdict
    (h : status.depVerdict = .unfulfillable ∨ status.depVerdict = .unresolved) :
    status.resolved = false := by
  cases status with
  | failed kind => cases kind <;> simp_all [depVerdict, resolved, isSuccess, isCascadeTerminal]
  | _ => simp_all [depVerdict, resolved, isSuccess, isCascadeTerminal]

namespace Ledger

/-- No task is paused on a resolved one. -/
def PauseSound (L : Ledger I) : Prop :=
  ∀ x y p, L.Waits x y → L y = some p → p.status.resolved = false

/-- A write is harmless: a paused entry waits on something unresolved, and a resolved entry
is not waited on. -/
structure PutSafe (L : Ledger I) (h : TaskHash) (st : TaskState I) : Prop where
  paused : ∀ on p, st.waitsOn = some on → on ≠ h → L on = some p → p.status.resolved = false
  resolved : st.status.resolved = true → ∀ x, x ≠ h → ¬L.Waits x h

variable {st : TaskState I} {L : Ledger I} {h : TaskHash}

/-- A safe write keeps the pauses sound. -/
theorem PauseSound.put (hL : L.PauseSound) (hsafe : L.PutSafe h st) : (L.put h st).PauseSound := by
  rintro x y p ⟨e, he, hw⟩ hp
  rw [put_apply] at he hp
  by_cases hx : x = h
  · rw [if_pos hx] at he
    cases he
    by_cases hy : y = h
    · rw [if_pos hy] at hp
      cases hp
      -- An entry that waits is not resolved.
      by_contra hres
      rw [waitsOn_eq_none (fun _ => rfl) (Bool.not_eq_false _ ▸ hres)] at hw
      cases hw
    · rw [if_neg hy] at hp
      exact hsafe.paused y p hw hy hp
  · rw [if_neg hx] at he
    by_cases hy : y = h
    · rw [if_pos hy] at hp
      cases hp
      by_contra hres
      exact hsafe.resolved (Bool.not_eq_false _ ▸ hres) x hx ⟨e, he, hy ▸ hw⟩
    · rw [if_neg hy] at hp
      exact hL x y p ⟨e, he, hw⟩ hp

/-- A write that neither pauses nor resolves is harmless. -/
theorem PutSafe.of_open
    (hw : st.waitsOn = none) (hres : st.status.resolved = false) : L.PutSafe h st where
  paused := fun _ _ hon => by rw [hw] at hon; cases hon
  resolved := fun h => by rw [hres] at h; cases h

/-- A task stays paused in a resumed ledger only if it waited on something else. -/
theorem waits_resumeOn {x y : TaskHash} (hw : (L.resumeOn h).Waits x y) : L.Waits x y ∧ y ≠ h := by
  obtain ⟨e, he, hon⟩ := hw
  by_cases hx : L.Waits x h
  · obtain ⟨st, hst, hwait⟩ := hx
    rw [resumeOn_of_waits hst hwait] at he
    cases he
    cases hon
  · rw [resumeOn_of_not_waits hx] at he
    refine ⟨⟨e, he, hon⟩, fun hy => hx ⟨e, he, hy ▸ hon⟩⟩

/-- Resuming keeps the pauses sound. -/
theorem PauseSound.resumeOn (hL : L.PauseSound) (h : TaskHash) : (L.resumeOn h).PauseSound := by
  intro x y p hw hp
  obtain ⟨hw, _⟩ := waits_resumeOn hw
  by_cases hy : L.Waits y h
  · obtain ⟨st, hst, hon⟩ := hy
    rw [resumeOn_of_waits hst hon] at hp
    cases hp
    rfl
  · rw [resumeOn_of_not_waits hy] at hp
    exact hL x y p hw hp

/-- Storing an entry and resuming what waited on it. -/
theorem PauseSound.resumeOn_put (hL : L.PauseSound) (h : TaskHash)
    (hst : st.waitsOn = none) : ((L.resumeOn h).put h st).PauseSound := by
  refine (hL.resumeOn h).put ⟨fun _ _ hon => ?_, fun _ x _ hw => (waits_resumeOn hw).2 rfl⟩
  rw [hst] at hon
  cases hon

/-- The entry that is stored does not wait, so it can be stored before or after the resume. -/
theorem put_resumeOn (hst : st.waitsOn = none) :
    (L.put h st).resumeOn h = (L.resumeOn h).put h st := by
  funext x
  by_cases hx : x = h
  · subst hx
    rw [put_same, resumeOn, put_same, Option.bind_some, hst, if_neg (by rintro ⟨⟩)]
  · rw [put_of_ne hx, resumeOn, resumeOn, put_of_ne hx]

/-- A change of definition or routing keeps paused tasks where they are. -/
theorem PauseSound.retouch (hL : L.PauseSound)
    {new : TaskState I} (hst : L h = some st) (hstatus : new.status = st.status) :
    (L.put h new).PauseSound := by
  refine hL.put ⟨fun on p hon _ hp => hL h on p ⟨st, hst, ?_⟩ hp, fun hres x _ hw => ?_⟩
  · rwa [waitsOn, hstatus] at hon
  · rw [hstatus] at hres
    have hunresolved := hL x h st hw hst
    rw [hres] at hunresolved
    cases hunresolved

/-- Storing a permanent failure and failing what waited on it. -/
theorem PauseSound.put_failOn (hL : L.PauseSound) (h : TaskHash)
    (hst : st.waitsOn = none) : ((L.put h st).failOn h).PauseSound := by
  intro x y p hw hp
  obtain ⟨e, he, hon⟩ := hw
  have hx : x ∉ (L.put h st).doomed h := by
    intro hx
    rw [failOn_of_doomed hx, Option.map_eq_some_iff] at he
    obtain ⟨_, _, rfl⟩ := he
    cases hon
  rw [failOn_of_not_doomed hx] at he
  have hput : (L.put h st).Waits x y := ⟨e, he, hon⟩
  have hyh : y ≠ h := fun hy => hx (Board.mem_doomed_of_waits _ (hy ▸ hput))
  have hy : y ∉ (L.put h st).doomed h := fun hy => hx (Board.mem_doomed_of_waits_doomed _ hput hy)
  rw [failOn_of_not_doomed hy, put_of_ne hyh] at hp
  refine hL x y p ⟨e, ?_, hon⟩ hp
  rw [put_apply] at he
  split at he
  · cases he
    rw [hst] at hon
    cases hon
  · exact he

section Merge

variable [DefaultHasher]

/-- Merging an entry is harmless: if it wins, a paused entry waits on something unresolved,
and a skipped or setup-completed one is not waited on. -/
structure MergeSafe (L : Ledger I) (h : TaskHash) (incoming : TaskState I) : Prop where
  paused : L.Wins h incoming → ∀ on p, incoming.waitsOn = some on → on ≠ h → L on = some p →
    p.status.resolved = false
  unannounced : L.Wins h incoming →
    incoming.status = .skippedAlreadyDone ∨ incoming.status = .setupCompleted →
    ∀ x, x ≠ h → ¬L.Waits x h

/-- A safe merge keeps the pauses sound. -/
theorem PauseSound.merge (hL : L.PauseSound)
    (hsafe : L.MergeSafe h st) : (L.merge h st).PauseSound := by
  unfold Ledger.merge
  split
  case isFalse => exact hL
  case isTrue hwins =>
    split
    case isTrue hfirst =>
      refine hL.resumeOn_put h ?_
      unfold waitsOn
      rw [hfirst.1]
      rfl
    case isFalse hfirst =>
      split
      case isTrue hcascade =>
        exact hL.put_failOn h (waitsOn_of_isCascadeTerminal hcascade)
      case isFalse hcascade =>
        refine hL.put ⟨hsafe.paused hwins, fun hres x hx hw => ?_⟩
        rcases TaskStatus.resolved_cases hres with hc | hdone | hskip | hsetup
        · exact hcascade hc
        · -- Not the first completion, so the task was already completed and waited on.
          refine hfirst ⟨hdone, fun p hp hpdone => ?_⟩
          have hunresolved := hL x h p hw hp
          rw [hpdone] at hunresolved
          cases hunresolved
        · exact hsafe.unannounced hwins (.inl hskip) x hx hw
        · exact hsafe.unannounced hwins (.inr hsetup) x hx hw

end Merge

end Ledger

/-- Writing a pending entry is safe. -/
theorem Ledger.PutSafe.of_pending {L : Ledger I} {h : TaskHash} {st : TaskState I}
    (hst : ∃ v, st.status = .pending v) : L.PutSafe h st := by
  obtain ⟨v, hv⟩ := hst
  refine .of_open ?_ ?_
  · rw [waitsOn, hv]
    rfl
  · rw [hv]
    rfl

namespace ClusterState

section Unspilled

variable [DefaultHasher]

/-- A consistent node that has settled nothing. -/
structure Unspilled (s : ClusterState I) : Prop where
  consistent : s.Consistent
  none_settled : s.settled.index = ∅

/-- The empty state has spilled nothing. -/
theorem empty_unspilled : (empty : ClusterState I).Unspilled := ⟨empty_consistent, rfl⟩

variable [RecordCodec I]

variable {s : ClusterState I}

variable (hs : s.Unspilled)
include hs

/-- Without spilled entries the ledger can be read. -/
theorem Unspilled.legible : s.Legible := legible_of_none_settled hs.none_settled

/-- No step spills anything. -/
theorem Unspilled.steps {t : ClusterState I} (hsteps : LedgerSteps s t) : t.Unspilled where
  consistent := hs.consistent.steps hs.legible.keeps hsteps
  none_settled := by
    apply HashMap.eq_empty_of_lookup
    intro h
    cases hentry : t.settled.index.lookup h with
    | none => rfl
    | some =>
      have hsome := hsteps.settled_lookup hentry
      rw [hs.none_settled] at hsome
      cases hsome

/-- Nothing settled: the logical ledger is the map in memory. -/
theorem Unspilled.logical : s.logical = s.fat := by
  funext x
  rw [ClusterState.logical, Ledger.overlay, archive_of_none, Option.or_none]
  rw [hs.none_settled]
  rfl

end Unspilled

variable [DefaultHasher] [Identifier I] [RecordCodec I]

/-- The spawned tasks are harmless: one that enters as failed is not waited on. -/
def SpawnSafe : ApplyResult I → List (TaskInfo I × Option TaskDefId) → Prop
  | _, [] => True
  | acc, spawned :: rest =>
    (acc.state.containsTask (computeTaskHash spawned.1) = false →
      acc.state.spawnClass spawned.1 = .cascadeFail →
      ∀ x, ¬acc.state.PausedOn x (computeTaskHash spawned.1)) ∧
    SpawnSafe (spawnTask acc spawned) rest

/-- A mutation is harmless in a state. Only pausing, skipping and spawning can do harm. -/
def MutationSafe (s : ClusterState I) : ClusterMutation I → Prop
  | .taskBlocked hash on => ∀ st p, s.tasks.lookup hash = some st → (blockRewrite on st).isSome →
      on ≠ hash → s.tasks.lookup on = some p → p.status.resolved = false
  | .taskSkippedAlreadyDone hash => ∀ st, s.tasks.lookup hash = some st →
      (skipRewrite st).isSome → ∀ x, ¬s.PausedOn x hash
  | .tasksSpawned tasks defIds => SpawnSafe ⟨s, .noOp, [], []⟩
      (tasks.zipIdx.map fun t => (t.1, (defIds[t.2]?).join))
  | _ => True

/-- The entries of a snapshot are harmless, each in the state in which it is merged. -/
def RestoreSafe (outputs : HashMap TaskHash TaskOutputs) :
    ClusterState I → List (TaskHash × TaskState I) → Prop
  | _, [] => True
  | s, e :: rest =>
    s.fat.MergeSafe e.1 e.2 ∧ RestoreSafe outputs (restoreEntry outputs (s, []) e).1 rest

variable {s : ClusterState I} {acc : ApplyResult I} {m : ClusterMutation I}
  {order : List (TaskHash × TaskState I)}

omit [DefaultHasher] [Identifier I] [RecordCodec I] in
/-- The classification pauses a task only on a dependency that it found unresolved, now or
before. -/
theorem classifyDeps_blockedOn {deps : List TaskDep} {onUnfulfillable onPending : Option TaskHash}
    {on : TaskHash} (h : s.classifyDeps deps onUnfulfillable onPending = .blockedOn on) :
    (∃ dep ∈ deps, s.taskHashForDep dep.phaseId dep.taskId = some on ∧
      (s.depVerdict on = .unfulfillable ∨ s.depVerdict on = .unresolved)) ∨
      onUnfulfillable = some on ∨ onPending = some on := by
  induction deps generalizing onUnfulfillable onPending with
  | nil => cases onUnfulfillable <;> cases onPending <;> simp_all [classifyDeps]
  | cons dep deps ih =>
    rw [classifyDeps] at h
    cases hdep : s.taskHashForDep dep.phaseId dep.taskId with
    | none =>
      rw [hdep] at h
      have hlater := ih h
      simp_all
    | some depHash =>
      rw [hdep] at h
      dsimp only at h
      cases hv : s.depVerdict depHash with
      | cascadeFail => rw [hv] at h; cases h
      | resolved =>
        rw [hv] at h
        have hlater := ih h
        grind
      -- The dependency just read is the one remembered only if none was before it.
      | unfulfillable =>
        rw [hv] at h
        have hlater := ih h
        cases onUnfulfillable <;> grind
      | unresolved =>
        rw [hv] at h
        have hlater := ih h
        cases onPending <;> grind

omit [DefaultHasher] [Identifier I] [RecordCodec I] in
/-- A task that waits is not spawned on a resolved prerequisite. -/
theorem spawnClass_blockedOn {task : TaskInfo I} {on : TaskHash}
    (h : s.spawnClass task = .blockedOn on) :
    (∃ dep ∈ task.taskDependsOn, s.taskHashForDep dep.phaseId dep.taskId = some on) ∧
      (s.depVerdict on = .unfulfillable ∨ s.depVerdict on = .unresolved) := by
  obtain ⟨dep, hdep, hon, hverdict⟩ | h | h := classifyDeps_blockedOn h
  · exact ⟨⟨dep, hdep, hon⟩, hverdict⟩
  · cases h
  · cases h

/-- Spawning one task. -/
theorem pauseSound_spawnTask (hs : acc.state.Unspilled)
    (hL : acc.state.logical.PauseSound) {spawned : TaskInfo I × Option TaskDefId}
    (hsafe : acc.state.containsTask (computeTaskHash spawned.1) = false →
      acc.state.spawnClass spawned.1 = .cascadeFail →
      ∀ x, ¬acc.state.PausedOn x (computeTaskHash spawned.1)) :
    (spawnTask acc spawned).state.logical.PauseSound := by
  rcases (adds_spawnTask acc spawned).logical with ⟨_, hsame⟩ | ⟨hnew, _, ⟨_, hsame, _⟩ | hput⟩
  · rw [hsame]
    exact hL
  · rw [hsame]
    exact hL
  · obtain ⟨definition, routing, _, hput, _⟩ := hput
    rw [hput]
    apply hL.put
    cases hclass : acc.state.spawnClass spawned.1 with
    | cascadeFail =>
      refine ⟨fun _ _ hon => (nomatch hon), fun _ x _ hw => hsafe hnew hclass x ?_⟩
      rwa [pausedOn_iff, ← hs.logical]
    | pending => exact .of_pending ⟨.default, rfl⟩
    | blockedOn on =>
      refine ⟨fun on' p hon _ hp => ?_, fun hres => by cases hres⟩
      cases hon
      rw [hs.logical] at hp
      have hentry : acc.state.settledEntry on = none := by
        rw [settledEntry, hs.none_settled]
        rfl
      have hverdict : acc.state.depVerdict on = p.status.depVerdict := by
        simp only [depVerdict, hentry, show acc.state.tasks.lookup on = some p from hp]
      exact TaskStatus.resolved_of_depVerdict (hverdict ▸ (spawnClass_blockedOn hclass).2)

/-- Spawning a safe batch keeps the pauses sound. -/
theorem pauseSound_foldl_spawnTask {l : List (TaskInfo I × Option TaskDefId)}
    (hs : acc.state.Unspilled) (hL : acc.state.logical.PauseSound)
    (hsafe : SpawnSafe acc l) : (l.foldl spawnTask acc).state.logical.PauseSound := by
  induction l generalizing acc with
  | nil => exact hL
  | cons spawned l ih =>
    exact ih (hs.steps (spawnTask_steps acc spawned)) (pauseSound_spawnTask hs hL hsafe.1) hsafe.2

/-- A harmless mutation that offers nothing. -/
theorem pauseSound_touched (hs : s.Unspilled) (hL : s.logical.PauseSound)
    (hsafe : s.MutationSafe m) {M : Ledger I}
    (htouched : s.logical.Touched m M) : M.PauseSound := by
  cases htouched with
  | same => exact hL
  | insert => exact hL.put (.of_pending ⟨.default, rfl⟩)
  | @rewrite h rule st status attempt hm hst hrule =>
    have hfat : s.tasks.lookup h = some st := by rwa [hs.logical] at hst
    refine hL.put ?_
    rcases rewriteRule_cases hm hrule with ⟨v, -, rfl, -⟩ | ⟨v, -, rfl, -⟩ |
      ⟨v, -, rfl, -⟩ | ⟨on, rfl, rfl, -⟩ | ⟨rfl, rfl, -⟩
    · exact .of_pending ⟨v, rfl⟩
    · exact .of_pending ⟨v, rfl⟩
    · exact .of_pending ⟨v, rfl⟩
    · cases hm
      refine ⟨fun on' p hon hne hp => ?_, fun hres => by cases hres⟩
      cases hon
      rw [hs.logical] at hp
      exact hsafe st p hfat (by rw [hrule]; rfl) hne hp
    · cases hm
      refine ⟨fun _ _ hon => (nomatch hon), fun _ x _ hw => hsafe st hfat (by rw [hrule]; rfl) x ?_⟩
      rwa [pausedOn_iff, ← hs.logical]
  | @setup h st status attempt hm hst hrule =>
    obtain ⟨rfl, -⟩ := setupRewrite_eq_some hrule
    -- The store and the resume commute, since the stored entry does not wait.
    rw [Ledger.put_resumeOn rfl]
    exact hL.resumeOn_put h rfl
  | retouch hst hstatus => exact hL.retouch hst hstatus

variable [DonePayloadCodec]

/-- **One harmless mutation keeps paused tasks on unresolved prerequisites.** -/
theorem pauseSound_apply (hs : s.Unspilled) (hL : s.logical.PauseSound)
    (hsafe : s.MutationSafe m) : (s.apply m).state.logical.PauseSound := by
  rcases apply_cases hs.consistent hs.legible m with
    ⟨h, status, attempt, hm, hoffer⟩ | ⟨_, _, rfl⟩ | htouched
  · rw [hoffer]
    cases hst : s.logical h with
    | none =>
      rw [Ledger.offer_none hst]
      exact hL
    | some =>
      rw [Ledger.offer_some hst]
      obtain ⟨hwaits, hskip, hsetup⟩ := candidate_ne hm
      exact hL.merge ⟨fun _ _ _ hon => (by cases hwaits.symm.trans hon),
        fun _ hstatus => (hstatus.elim hskip hsetup).elim⟩
  · exact pauseSound_foldl_spawnTask hs hL hsafe
  · exact pauseSound_touched hs hL hsafe htouched

omit [Identifier I] [DonePayloadCodec] in
/-- Merging the entries of a snapshot one after the other. -/
theorem pauseSound_foldl_restoreEntry {outputs : HashMap TaskHash TaskOutputs}
    (acc : ClusterState I × List (TaskInfo I))
    (hs : acc.1.Unspilled) (hL : acc.1.logical.PauseSound)
    (hsafe : RestoreSafe outputs acc.1 order) :
    (order.foldl (restoreEntry outputs) acc).1.logical.PauseSound := by
  induction order generalizing acc with
  | nil => exact hL
  | cons e order ih =>
    refine ih _ (hs.steps (restoreEntry_steps outputs acc e)) ?_ hsafe.2
    have hsame := (registerRestoredDef_same acc.1 e.1 e.2.definition).sameLedger
    have ht := hs.steps hsame.steps
    change ((acc.1.registerRestoredDef e.1 e.2.definition).mergeTaskState e.1 e.2
      (outputs.lookup e.1)).state.logical.PauseSound
    rw [logical_mergeTaskState ht.consistent ht.legible, hsame.logical]
    refine hL.merge ?_
    rw [hs.logical]
    exact hsafe.1

omit [Identifier I] [DonePayloadCodec] in
/-- **Restoring a harmless snapshot keeps paused tasks on unresolved prerequisites.** -/
theorem pauseSound_restore (hs : s.Unspilled) (hL : s.logical.PauseSound)
    {snap : ClusterStateSnapshot I}
    (hsafe : RestoreSafe snap.taskOutputs s.resumeDefAllocFloor order) :
    (s.restoreInOrder snap order).1.logical.PauseSound := by
  have hsame := (resumeDefAllocFloor_same s).sameLedger
  rw [(restoreInOrder_sameLedger).logical]
  exact pauseSound_foldl_restoreEntry (s.resumeDefAllocFloor, []) (hs.steps hsame.steps)
    (hsame.logical ▸ hL) hsafe

/-- The replicas: states reached from the empty one by mutations and by restoring snapshots of
other replicas. -/
inductive Replica : ClusterState I → Prop
  | new : Replica .empty
  | apply {s : ClusterState I} (m : ClusterMutation I) (hs : Replica s) :
      Replica (s.apply m).state
  | restore {s peer : ClusterState I} (hs : Replica s) (hpeer : Replica peer)
      (order : List (TaskHash × TaskState I)) (horder : order.Perm peer.snapshot.taskEntries) :
      Replica (s.restoreInOrder peer.snapshot order).1

/-- The replicas whose own steps are all harmless. The snapshots may come from anywhere. -/
inductive SafeReplica : ClusterState I → Prop
  | new : SafeReplica .empty
  | apply {s : ClusterState I} (m : ClusterMutation I) (hs : SafeReplica s)
      (hsafe : s.MutationSafe m) : SafeReplica (s.apply m).state
  | restore {s : ClusterState I} (hs : SafeReplica s) (snap : ClusterStateSnapshot I)
      (order : List (TaskHash × TaskState I)) (horder : order.Perm snap.taskEntries)
      (hsafe : RestoreSafe snap.taskOutputs s.resumeDefAllocFloor order) :
      SafeReplica (s.restoreInOrder snap order).1

/-- Every safe replica has spilled nothing and has sound pauses. -/
theorem SafeReplica.invariant (hs : SafeReplica s) : s.Unspilled ∧ s.logical.PauseSound := by
  induction hs with
  | new => exact ⟨empty_unspilled, fun _ _ _ hw => by obtain ⟨_, h, _⟩ := hw; cases h⟩
  | apply m _ hsafe ih => exact ⟨ih.1.steps (apply_steps _ m), pauseSound_apply ih.1 ih.2 hsafe⟩
  | restore _ snap order _ hsafe ih =>
    exact ⟨ih.1.steps (restoreInOrder_steps _ snap order), pauseSound_restore ih.1 ih.2 hsafe⟩

/-- **In every run whose steps are harmless, a paused task waits on a prerequisite that has
neither succeeded nor failed for good.** -/
theorem paused_on_unresolved {s : ClusterState I} (hs : SafeReplica s) {x h : TaskHash}
    {st p : TaskState I} (hx : s.tasks.lookup x = some st) (hblocked : st.status = .blocked h)
    (hp : s.tasks.lookup h = some p) :
    p.status.isSuccess = false ∧ p.status.isCascadeTerminal = false := by
  have hunresolved := hs.invariant.2 x h p
    ⟨st, logical_of_fat hx, waitsOn_eq_some.mpr hblocked⟩ (logical_of_fat hp)
  rwa [TaskStatus.resolved, Bool.or_eq_false_iff] at hunresolved

end ClusterState

namespace Sample

/-- A node on which task `"d"` is paused on task `"s"`. -/
def pausedPair : ClusterState String := empty.applyAll
  [.taskAdded "s" (task "s" []) none, .taskAdded "d" (task "d" ["s"]) none, .taskBlocked "d" "s"]

/-- The pause is harmless, and its prerequisite is unresolved. -/
theorem pausedPair_waits_on_unresolved :
    (pausedPair.tasks.lookup "d").map (·.status) = some (.blocked "s") ∧
      ∀ p, pausedPair.tasks.lookup "s" = some p →
        p.status.isSuccess = false ∧ p.status.isCascadeTerminal = false := by
  have hsafe : SafeReplica pausedPair := by
    refine .apply _ (.apply _ (.apply _ .new trivial) trivial) ?_
    intro st p _ _ _ hp
    cases hp
    rfl
  refine ⟨by decide, fun p hp => ?_⟩
  exact paused_on_unresolved hsafe (x := "d") rfl rfl hp

/-- The peer of `pausedPair` on which the prerequisite has completed its setup. -/
def setupDone : ClusterState String := (pausedPair.apply (.setupCompleted "s")).state

/-- `pausedPair` after restoring the snapshot of `setupDone`. -/
def setupMissed : ClusterState String := pausedPair.restore setupDone.snapshot

/-- The sample is a replica. -/
theorem setupMissed_replica : ClusterState.Replica setupMissed := by
  have hpair : ClusterState.Replica pausedPair := .apply _ (.apply _ (.apply _ .new))
  exact .restore hpair (.apply _ hpair) _ (.refl _)

/-- The setup success arrives by snapshot, and the task paused on it is not resumed, although
the peer has resumed it. -/
theorem setupMissed_leaves_task_paused : ClusterState.Replica setupMissed ∧
      (setupDone.tasks.lookup "d").map (·.status) = some (.pending .default) ∧
      (setupMissed.tasks.lookup "d").map (·.status) = some (.blocked "s") ∧
      (setupMissed.tasks.lookup "s").map (·.status) = some .setupCompleted :=
  ⟨setupMissed_replica, by decide, by decide, by decide⟩

end Sample

end DynRunner
