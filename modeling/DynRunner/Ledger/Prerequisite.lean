import DynRunner.Digest.Compute
import DynRunner.Ledger.RestoreConflict

/-!
# Which prerequisite a paused task waits on

The prerequisite of a paused task is no part of its join key, so the digest does not see it, and
a pause never replaces another. Whichever pause reaches a node first stays. A new pause comes
from three places only: a `TaskBlocked`, a spawn that finds an open dependency, and an entry of
a snapshot. When all of them name one prerequisite for each task, no two replicas can disagree.
-/

namespace DynRunner

open ClusterState

variable {I : Type}

namespace Ledger

/-! ## Where a pause comes from -/

variable {L : Ledger I} {h x on : TaskHash} {st : TaskState I}

/-- A write makes at most its own task wait. -/
theorem waits_put (hw : (L.put h st).Waits x on) : L.Waits x on ∨ x = h ∧ st.waitsOn = some on := by
  obtain ⟨e, he, hon⟩ := hw
  rw [put_apply] at he
  split at he
  · rename_i hx
    cases he
    exact .inr ⟨hx, hon⟩
  · exact .inl ⟨e, he, hon⟩

/-- A failure makes nothing wait. -/
theorem waits_failOn (hw : (L.failOn h).Waits x on) : L.Waits x on := by
  obtain ⟨e, he, hon⟩ := hw
  by_cases hx : x ∈ L.doomed h
  · rw [failOn_of_doomed hx, Option.map_eq_some_iff] at he
    obtain ⟨_, _, rfl⟩ := he
    cases hon
  · rw [failOn_of_not_doomed hx] at he
    exact ⟨e, he, hon⟩

/-- A mutation that offers nothing pauses a task only by naming its prerequisite. -/
theorem Touched.waits {L' : Ledger I} {m : ClusterMutation I}
    (h : L.Touched m L') (hw : L'.Waits x on) : L.Waits x on ∨ m = .taskBlocked x on := by
  cases h with
  | same => exact .inl hw
  | insert =>
    rcases waits_put hw with hw | ⟨-, hon⟩
    · exact .inl hw
    · cases hon
  | rewrite hm hst hrule =>
    rcases waits_put hw with hw | ⟨rfl, hon⟩
    · exact .inl hw
    · rcases ClusterMutation.rewriteRule_cases hm hrule with ⟨_, -, rfl, -⟩ | ⟨_, -, rfl, -⟩ |
        ⟨_, -, rfl, -⟩ | ⟨_, rfl, rfl, -⟩ | ⟨-, rfl, -⟩ <;> cases hon
      exact .inr rfl
  | setup hm hst hrule =>
    obtain ⟨rfl, -⟩ := setupRewrite_eq_some hrule
    rcases waits_put (waits_resumeOn hw).1 with hw | ⟨-, hon⟩
    · exact .inl hw
    · cases hon
  | @retouch h st st' hst hstatus hattempt hcore =>
    rcases waits_put hw with hw | ⟨rfl, hon⟩
    · exact .inl hw
    · rw [TaskState.waitsOn, hstatus] at hon
      exact .inl ⟨st, hst, hon⟩

variable [DefaultHasher]

/-- A merge makes at most its own task wait. -/
theorem waits_merge
    (hw : (L.merge h st).Waits x on) : L.Waits x on ∨ x = h ∧ st.waitsOn = some on := by
  rcases merge_cases L h with ⟨_, hm⟩ | ⟨_, _, hm⟩ | ⟨_, _, hm⟩ | ⟨_, _, _, hm⟩ <;> rw [hm] at hw
  · exact .inl hw
  · exact (waits_put hw).imp (fun hw => (waits_resumeOn hw).1) id
  · exact waits_put (waits_failOn hw)
  · exact waits_put hw

/-- An offer that does not wait makes nothing wait. -/
theorem waits_offer {status : TaskStatus} {attempt : ℕ}
    (hstatus : status.blockedOn = none) (hw : (L.offer h status attempt).Waits x on) :
    L.Waits x on := by
  cases hst : L h with
  | none => rwa [offer_none hst] at hw
  | some st =>
    rw [offer_some hst] at hw
    rcases waits_merge hw with hw | ⟨_, hon⟩
    · exact hw
    · have hnone : TaskState.waitsOn { st with status, attempt } = none := hstatus
      rw [hnone] at hon
      cases hon

/-- Merging several entries makes at most those wait that wait themselves. -/
theorem waits_mergeAll {order : List (TaskHash × TaskState I)}
    (hw : (L.mergeAll order).Waits x on) :
    L.Waits x on ∨ ∃ st, (x, st) ∈ order ∧ st.waitsOn = some on := by
  induction order generalizing L with
  | nil => exact .inl hw
  | cons e order ih =>
    rw [mergeAll_cons] at hw
    rcases ih hw with hw | ⟨st, hst, hon⟩
    · rcases waits_merge hw with hw | ⟨rfl, hon⟩
      · exact .inl hw
      · exact .inr ⟨e.2, List.mem_cons_self, hon⟩
    · exact .inr ⟨st, List.mem_cons_of_mem e hst, hon⟩

end Ledger

namespace ClusterState

/-! ## Pauses of one node -/

/-- A dependency that the spawn classification finds in the ledger, neither done nor failed for
good. -/
def OpenDep (s : ClusterState I) (task : TaskInfo I) (on : TaskHash) : Prop :=
  (∃ dep ∈ task.taskDependsOn, s.taskHashForDep dep.phaseId dep.taskId = some on) ∧
    (s.depVerdict on = .unfulfillable ∨ s.depVerdict on = .unresolved)

variable {s : ClusterState I} {on : TaskHash}

section Agreement

variable [DefaultHasher]

/-- The open dependencies of the spawned tasks, each in the state in which it is placed, are
the prerequisites that `root` gives. -/
def SpawnsOn [Identifier I] (root : TaskHash → TaskHash) :
    ApplyResult I → List (TaskInfo I × Option TaskDefId) → Prop
  | _, [] => True
  | acc, spawned :: rest =>
    (∀ on, acc.state.OpenDep spawned.1 on → on = root (computeTaskHash spawned.1)) ∧
      SpawnsOn root (spawnTask acc spawned) rest

/-- **A mutation that names no other prerequisite than `root`.** -/
def NamesRoot [Identifier I] (root : TaskHash → TaskHash) (s : ClusterState I) :
    ClusterMutation I → Prop
  | .taskBlocked hash on => on = root hash
  | .tasksSpawned tasks defIds => SpawnsOn root ⟨s, .noOp, [], []⟩
      (tasks.zipIdx.map fun t => (t.1, (defIds[t.2]?).join))
  | _ => True

/-- A spill takes entries out of memory and writes none. -/
theorem lookup_commitSpill {receipt : List (WrittenRecord I)}
    (hst : (s.commitSpill receipt).tasks.lookup x = some st) : s.tasks.lookup x = some st := by
  induction receipt generalizing s with
  | nil => exact hst
  | cons w receipt ih =>
    have hone : (s.commitRecord w).tasks.lookup x = some st := ih hst
    unfold commitRecord at hone
    cases hstate : s.tasks.lookup w.hash with
    | none => rwa [hstate] at hone
    | some state =>
      rw [hstate] at hone
      dsimp only at hone
      split at hone
      · exact hone
      · cases hclass : settledClassOf state.status with
        | none => rwa [hclass] at hone
        | some =>
          rw [hclass] at hone
          exact HashMap.lookup_of_erase hone

variable [RecordCodec I]

variable {root : TaskHash → TaskHash} {x h : TaskHash} {st : TaskState I} {v : TaskVersion}

/-- A spawned batch waits on the prerequisites it names. -/
theorem waits_foldl_spawnTask [Identifier I]
    {l : List (TaskInfo I × Option TaskDefId)} {acc : ApplyResult I} (hroot : SpawnsOn root acc l)
    (hw : (l.foldl spawnTask acc).state.logical.Waits x on) :
    acc.state.logical.Waits x on ∨ on = root x := by
  induction l generalizing acc with
  | nil => exact .inl hw
  | cons spawned l ih =>
    rcases ih hroot.2 hw with hw | hon
    · rcases (adds_spawnTask acc spawned).logical with ⟨_, hsame⟩ | ⟨_, _, ⟨_, hsame, _⟩ | hput⟩
      · rw [hsame] at hw
        exact .inl hw
      · rw [hsame] at hw
        exact .inl hw
      · obtain ⟨definition, routing, _, hput, _⟩ := hput
        rw [hput] at hw
        rcases Ledger.waits_put hw with hw | ⟨rfl, hon⟩
        · exact .inl hw
        · refine .inr (hroot.1 on (spawnClass_blockedOn ?_))
          cases hclass : acc.state.spawnClass spawned.1 <;> rw [hclass] at hon <;> cases hon
          rfl
    · exact .inr hon

variable [Identifier I] [DonePayloadCodec]

/-- **What a mutation can pause.** A task that is paused afterwards was paused before on the
same prerequisite, or on the one that `root` gives. -/
theorem waits_apply (hs : s.Consistent) (hlegible : s.Legible)
    {m : ClusterMutation I} (hroot : s.NamesRoot root m)
    (hw : (s.apply m).state.logical.Waits x on) : s.logical.Waits x on ∨ on = root x := by
  rcases apply_cases hs hlegible m with ⟨h, status, attempt, hm, hoffer⟩ | ⟨_, _, rfl⟩ | htouched
  · rw [hoffer] at hw
    exact .inl (Ledger.waits_offer (ClusterMutation.candidate_ne hm).1 hw)
  · exact waits_foldl_spawnTask hroot hw
  · refine (htouched.waits hw).imp_right ?_
    rintro rfl
    exact hroot

/-! ## Pauses of a system of replicas -/

/-- **The replicas of a system in which no pause names another prerequisite than `root`.** They
apply mutations, restore snapshots whose entries are those of other replicas, spill and read back
entries, and adopt each other's settled stores. -/
inductive Rooted (root : TaskHash → TaskHash) : ClusterState I → Prop
  | new : Rooted root .empty
  | apply {s : ClusterState I} (m : ClusterMutation I) (hs : Rooted root s)
      (hroot : s.NamesRoot root m) : Rooted root (s.apply m).state
  | restore {s : ClusterState I} (hs : Rooted root s) (snap : ClusterStateSnapshot I)
      (order : List (TaskHash × TaskState I)) (horder : order.Perm snap.taskEntries)
      (peer : TaskHash → ClusterState I) (hpeer : ∀ x, Rooted root (peer x))
      (hsnap : ∀ x st, snap.tasks.lookup x = some st → (peer x).tasks.lookup x = some st) :
      Rooted root (s.restoreInOrder snap order).1
  | attachSpillSegment {s : ClusterState I} (hs : Rooted root s) :
      Rooted root s.attachSpillSegment
  | commitSpill {s t : ClusterState I} (n : ℕ) (hs : Rooted root s) (ht : Rooted root t) :
      Rooted root (s.commitSpill (writeSpillBatch (t.collectSpillBatch n)))
  | unsettle {s : ClusterState I} (hash : TaskHash) (key : TaskJoinKey) (hs : Rooted root s) :
      Rooted root (s.taskEntryUnsettling hash key).1
  | installSettledBase {s donor : ClusterState I} (hs : Rooted root s)
      (hdonor : Rooted root donor) (hlegal : s.InstallLegal donor.settled) :
      Rooted root (s.installSettledBase donor.settled)

/-- A rooted state can be reached. -/
theorem Rooted.reachable (hs : Rooted root s) : Reachable (fun _ => True) s := by
  induction hs with
  | new => exact .new
  | apply m _ _ ih => exact .apply m ih
  | restore _ snap order horder _ _ _ ih => exact .restore snap order horder ih
  | attachSpillSegment _ ih => exact .attachSpillSegment ih
  | commitSpill n _ _ ih iht => exact .commitSpill n ih iht
  | unsettle hash key _ ih => exact .unsettle hash key ih
  | installSettledBase _ _ hlegal ih ihdonor => exact .installSettledBase ih ihdonor trivial hlegal

/-- In such a system a paused task waits on its root. -/
theorem Rooted.pausedOn (hcodec : RecordCodec.RoundTrips I)
    (hs : Rooted root s) (hx : s.PausedOn x on) : on = root x := by
  have hcons : ∀ {t : ClusterState I}, Rooted root t → t.Consistent :=
    fun ht => ht.reachable.consistent hcodec.keepsState
  have hlegible := fun t : ClusterState I => legible_of_roundTrips hcodec t
  have hwaits : ∀ {t : ClusterState I} {x on}, Rooted root t →
      (t.logical.Waits x on ↔ t.PausedOn x on) := by
    intro t x on ht
    exact Ledger.waits_overlay ((hcons ht).archive_waitsOn (hlegible t).keeps) x on
  induction hs generalizing x on with
  | new =>
    obtain ⟨_, hst, _⟩ := hx
    cases hst
  | @apply s m hs hroot ih =>
    have hw := (hwaits (.apply m hs hroot)).mpr hx
    rcases waits_apply (hcons hs) (hlegible s) hroot hw with hw | hon
    · exact ih ((hwaits hs).mp hw)
    · exact hon
  | @restore s hs snap order horder peer hpeer hsnap ih ihpeer =>
    have hw := (hwaits (.restore hs snap order horder peer hpeer hsnap)).mpr hx
    rw [logical_restoreInOrder (hcons hs) (hlegible s)] at hw
    rcases Ledger.waits_mergeAll hw with hw | ⟨st, hst, hon⟩
    · exact ih ((hwaits hs).mp hw)
    · have hentry := ((snap.enumerates_iff).mpr horder).mem x st
      exact ihpeer x ⟨st, hsnap x st (hentry.mp hst), hon⟩
  | attachSpillSegment _ ih => exact ih hx
  | commitSpill n _ _ ih =>
    obtain ⟨st, hst, hon⟩ := hx
    exact ih ⟨st, lookup_commitSpill hst, hon⟩
  | @unsettle s hash key hs ih =>
    have hw := (hwaits (.unsettle hash key hs)).mpr hx
    rw [(taskEntryUnsettling_spec (hcons hs) (hlegible s) hash key).1] at hw
    exact ih ((hwaits hs).mp hw)
  | installSettledBase _ _ _ ih => exact ih hx

/-! ## Two pauses of one task -/

variable {on' : TaskHash}

section

variable (hst : s.tasks.lookup h = some st)
include hst

/-- A pause reaches a pending task. -/
theorem apply_taskBlocked_pending (hpending : st.status = .pending v) :
    (s.apply (.taskBlocked h on)).state = s.setTaskState h { st with status := .blocked on } := by
  have hmem : h ∈ s.tasks := HashMap.mem_iff_lookup.mpr ⟨st, hst⟩
  simp only [apply, applyRewrite, hst, blockRewrite, hpending, quiet, rewriteTaskState, hmem,
    if_true]

/-- Of two pauses the first one stays. -/
theorem applyAll_two_pauses (hpending : st.status = .pending v) :
    s.applyAll [.taskBlocked h on, .taskBlocked h on'] =
      s.setTaskState h { st with status := .blocked on } := by
  change ((s.apply (.taskBlocked h on)).state.apply (.taskBlocked h on')).state = _
  rw [apply_taskBlocked_pending hst hpending]
  have hlookup : (s.setTaskState h { st with status := .blocked on }).tasks.lookup h =
      some { st with status := .blocked on } := by
    rw [setTaskState_lookup, if_pos rfl]
  simp only [apply, applyRewrite, hlookup, blockRewrite, quiet]

omit hst in
omit [RecordCodec I] [Identifier I] [DonePayloadCodec] in
/-- The digest sees a written entry through its content term only. -/
theorem digest_setTaskState_congr (h : TaskHash) {st' : TaskState I}
    (hterm : taskDigestTerm h st = taskDigestTerm h st') {other : OtherDigests} :
    (s.setTaskState h st).digest other = (s.setTaskState h st').digest other := by
  have hhash : (s.setTaskState h st).tasksHash = (s.setTaskState h st').tasksHash := by
    change ((s.tasks.erase h).entries.foldl (fun acc e => acc ^^^ taskDigestTerm e.1 e.2)
      (s.settled.tasksHashAcc ^^^ taskDigestTerm h st)) = (s.tasks.erase h).entries.foldl
        (fun acc e => acc ^^^ taskDigestTerm e.1 e.2) (s.settled.tasksHashAcc ^^^
          taskDigestTerm h st')
    rw [hterm]
  have hcount : (s.setTaskState h st).tasksCount = (s.setTaskState h st').tasksCount := rfl
  unfold digest
  rw [hhash, hcount]
  rfl

/-- Two pauses give equal digests in either order. -/
theorem digest_two_pauses (hpending : st.status = .pending v)
    (on on' : TaskHash) (other : OtherDigests) :
    (s.applyAll [.taskBlocked h on, .taskBlocked h on']).digest other =
      (s.applyAll [.taskBlocked h on', .taskBlocked h on]).digest other := by
  rw [applyAll_two_pauses hst hpending, applyAll_two_pauses hst hpending]
  exact digest_setTaskState_congr h rfl

end

/-- **When replicas agree on what a paused task waits on.** In a system in which every pause of
a task names one prerequisite, two replicas on which a task is paused have it wait on the same.
Two pauses of a pending task that reach two replicas in different orders give equal digests, and
the replicas agree only if the pauses name the same prerequisite. -/
theorem paused_prerequisites_agree (hcodec : RecordCodec.RoundTrips I) :
    (∀ (root : TaskHash → TaskHash) (s t : ClusterState I), Rooted root s → Rooted root t →
      ∀ h on on', s.PausedOn h on → t.PausedOn h on' → on = on') ∧
    ∀ (s : ClusterState I) (h : TaskHash) (st : TaskState I) (v : TaskVersion),
      s.tasks.lookup h = some st → st.status = .pending v → ∀ on on' other,
      (s.applyAll [.taskBlocked h on, .taskBlocked h on']).digest other =
          (s.applyAll [.taskBlocked h on', .taskBlocked h on]).digest other ∧
        ((∀ p p', (s.applyAll [.taskBlocked h on, .taskBlocked h on']).PausedOn h p →
          (s.applyAll [.taskBlocked h on', .taskBlocked h on]).PausedOn h p' → p = p') ↔
            on = on') := by
  refine ⟨fun root s t hs ht h on on' hon hon' => ?_, fun s h st v hst hpending on on' other => ?_⟩
  · rw [hs.pausedOn hcodec hon, ht.pausedOn hcodec hon']
  · refine ⟨digest_two_pauses hst hpending on on' other, ?_⟩
    have hpaused : ∀ on p, (s.setTaskState h { st with status := .blocked on }).PausedOn h p ↔
        p = on := by
      intro on p
      rw [PausedOn, setTaskState_lookup, if_pos rfl]
      simp [TaskStatus.blockedOn, eq_comm]
    rw [applyAll_two_pauses hst hpending, applyAll_two_pauses hst hpending]
    simp only [hpaused]
    exact ⟨fun h => h on on' rfl rfl, fun heq p p' hp hp' => hp.trans (heq.trans hp'.symm)⟩

end Agreement

end ClusterState

namespace Sample

/-- A node that knows a task and two tasks it could wait on. -/
def threeTasks : ClusterState String := empty.applyAll
  [.taskAdded "s" (task "s" []) none, .taskAdded "r" (task "r" []) none,
    .taskAdded "d" (task "d" []) none]

/-- Two nodes that hear of one pause, one of them twice and after the prerequisite has been
assigned. Both have the task wait on it. -/
theorem one_pause_agrees :
    let later := pausedPair.applyAll [.taskAssigned "s" "s1" 3 ⟨1, 1⟩ 0, .taskBlocked "d" "s"]
    pausedPair.PausedOn "d" "s" ∧ later.PausedOn "d" "s" ∧
      ∀ on, later.PausedOn "d" on → "s" = on := by
  have hpair : Rooted (fun _ => "s") pausedPair :=
    .apply _ (.apply _ (.apply _ .new trivial) trivial) rfl
  have hlater : Rooted (fun _ => "s")
      (pausedPair.applyAll [.taskAssigned "s" "s1" 3 ⟨1, 1⟩ 0, .taskBlocked "d" "s"]) :=
    .apply _ (.apply _ hpair trivial) rfl
  have hon : pausedPair.PausedOn "d" "s" := ⟨_, rfl, rfl⟩
  refine ⟨hon, ⟨_, rfl, rfl⟩, fun on hon' => ?_⟩
  exact (paused_prerequisites_agree skippingCodec_roundTrips).1 _ _ _ hpair hlater "d" _ _ hon hon'

/-- The first node hears of the pauses in one order, the second in the other. Their digests are
equal, and the completion of one prerequisite resumes the task on the first node only. -/
theorem pauses_in_two_orders :
    ClusterState.Replica (threeTasks.applyAll [.taskBlocked "d" "s", .taskBlocked "d" "r"]) ∧
      ClusterState.Replica (threeTasks.applyAll [.taskBlocked "d" "r", .taskBlocked "d" "s"]) ∧
      (threeTasks.applyAll [.taskBlocked "d" "s", .taskBlocked "d" "r"]).digest noOthers =
        (threeTasks.applyAll [.taskBlocked "d" "r", .taskBlocked "d" "s"]).digest noOthers ∧
      ((threeTasks.applyAll [.taskBlocked "d" "s", .taskBlocked "d" "r"]).tasks.lookup "d").map
        (·.status) = some (.blocked "s") ∧
      ((threeTasks.applyAll [.taskBlocked "d" "r", .taskBlocked "d" "s"]).tasks.lookup "d").map
        (·.status) = some (.blocked "r") ∧
      ((threeTasks.applyAll [.taskBlocked "d" "s", .taskBlocked "d" "r",
        .taskCompleted "s" none 0]).tasks.lookup "d").map (·.status) = some (.pending .default) ∧
      ((threeTasks.applyAll [.taskBlocked "d" "r", .taskBlocked "d" "s",
        .taskCompleted "s" none 0]).tasks.lookup "d").map (·.status) = some (.blocked "r") := by
  have hknown : ClusterState.Replica threeTasks := .apply _ (.apply _ (.apply _ .new))
  refine ⟨.apply _ (.apply _ hknown), .apply _ (.apply _ hknown), ?_, by decide, by decide,
    by decide, by decide⟩
  exact digest_two_pauses (v := .default) rfl rfl "s" "r" noOthers

end Sample

end DynRunner
