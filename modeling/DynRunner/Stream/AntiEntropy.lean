import DynRunner.Digest.Ranges
import DynRunner.Stream.Coverage
import DynRunner.Stream.Delivery

/-!
# Anti-entropy by ranges converges

A node that is behind asks another one for the ranges in which their digests differ, and an empty
set of ranges stands for all of them. A range is judged in one direction only, so one pull may leave
a difference behind: where the requester has more tasks it does not ask for those that it lacks. Two
more pulls, in the other direction and back, remove it. All of this rests on digests that are those
of the ledgers; a node that has adopted a settled base has another one.
-/

namespace DynRunner

open SnapshotStreamPlan

variable {I : Type}

namespace ClusterState

open BucketSync

variable [DefaultHasher] [RecordCodec I] [StreamCodec I]

/-- A node pulls its divergent ranges from another one, and the stream is delivered completely. -/
def PullsFrom (budget : PackageBudget) (requester target requester' : ClusterState I) : Prop :=
  Delivered budget target
    (.new target none (requester.divergentRangesForPull target)) requester requester'

variable [Identifier I] [DonePayloadCodec] {budget : PackageBudget}
  {adopt : SettledStore I → Prop} {s t s' : ClusterState I}

/-- A pull takes the greater join key of every task in the ranges that were asked for. -/
theorem PullsFrom.pulls (hcodec : RecordCodec.RoundTrips I) (hstream : StreamCodec.RoundTrips I)
    (hs : Reachable adopt s) (ht : Reachable adopt t) (hno : s.logical.NonePaused)
    (hno' : t.logical.NonePaused) (h : PullsFrom budget s t s') :
    s'.logical.NonePaused ∧ Pulls rangeIndex s.joinKeyOf t.joinKeyOf
      (fun r => s.divergentRangesForPull t = [] ∨ (r : ℕ) ∈ s.divergentRangesForPull t)
      s'.joinKeyOf := by
  obtain ⟨hlast, hpulled, hother⟩ := Delivered.joinKeyOf hcodec hstream ht hno' h hs hno
  have hrest : ∀ k, k ∈ (new t none (s.divergentRangesForPull t)).rest ↔ t.containsTask k = true ∧
        inRange (s.divergentRangesForPull t) k = true := by
    intro k
    have hmem : k ∈ (new t none (s.divergentRangesForPull t)).keys ↔ _ := mem_new_keys
    simpa [rest, new] using hmem
  have hrange : ∀ k, inRange (s.divergentRangesForPull t) k = true ↔
      s.divergentRangesForPull t = [] ∨ (rangeIndex k : ℕ) ∈ s.divergentRangesForPull t := by
    intro k
    simp [inRange]
  refine ⟨hlast, fun k hwanted => ?_, fun k hwanted => ?_⟩
  · by_cases hknown : t.containsTask k = true
    · exact hpulled k ((hrest k).mpr ⟨hknown, (hrange k).mpr hwanted⟩)
    · have hnone : t.joinKeyOf k = none := by
        refine joinKeyOf_eq_none fun hmem => hknown ?_
        simpa [knownKeys, containsTask, settledContains, AList.mem_keys] using hmem
      rw [hother k fun hmem => hknown ((hrest k).mp hmem).1, hnone]
      exact Option.max_none_right.symm
  · exact hother k fun hmem => hwanted ((hrange k).mp ((hrest k).mp hmem).2)

/-- **Anti-entropy by ranges converges.** Let two nodes without paused tasks have adopted no settled
entry, and let no fold collide. If the task digest of the first is behind that of the second, it
finds a range to pull; and after it has pulled from the second, the second from it and it from the
second again, both hold equal join keys for every task. -/
theorem anti_entropy_converges (hcodec : RecordCodec.RoundTrips I)
    (hstream : StreamCodec.RoundTrips I) {a b : ClusterState I}
    (ha : Reachable (fun base => base.index = ∅) a) (hb : Reachable (fun base => base.index = ∅) b)
    (hpaused : ∀ x on, ¬a.PausedOn x on) (hpaused' : ∀ x on, ¬b.PausedOn x on)
    (hfaithful : a.FoldsFaithful b) :
    (∀ other other', (a.digest other).tasks.behind (b.digest other').tasks = true →
      a.divergentRangesForPull b ≠ []) ∧
    ∀ a₁ b₁ a₂ : ClusterState I, a.PullsFrom budget b a₁ → b.PullsFrom budget a₁ b₁ →
      a₁.PullsFrom budget b₁ a₂ → b.FoldsFaithful a₁ → a₁.FoldsFaithful b₁ →
        ∀ h, a₂.joinKeyOf h = b₁.joinKeyOf h := by
  have hconsistent := fun {u : ClusterState I} (hu : Reachable (fun base => base.index = ∅) u) =>
    hu.consistent hcodec.keepsState
  have hmemo := fun {u : ClusterState I} (hu : Reachable (fun base => base.index = ∅) u) =>
    hu.memoAgrees hcodec.keepsState
  have hnone := fun {u : ClusterState I} (hu : Reachable (fun base => base.index = ∅) u) =>
    nonePaused_logical (hconsistent hu) (legible_of_roundTrips hcodec u)
  refine ⟨fun other other' hbehind => ?_,
    fun a₁ b₁ a₂ hfirst hsecond hthird hfaithful₁ hfaithful₂ => ?_⟩
  · exact divergentRanges_ne_nil (hconsistent ha) (hconsistent hb) (hmemo ha) (hmemo hb) hfaithful
      hbehind
  · have ha₁ := hfirst.reachable ha
    have hb₁ := hsecond.reachable hb
    obtain ⟨hno₁, hpull⟩ := hfirst.pulls hcodec hstream ha hb (hnone ha hpaused) (hnone hb hpaused')
    obtain ⟨hno₂, hpull₁⟩ := hsecond.pulls hcodec hstream hb ha₁ (hnone hb hpaused') hno₁
    obtain ⟨-, hpull₂⟩ := hthird.pulls hcodec hstream ha₁ hb₁ hno₁ hno₂
    have hcovers := fun {u v : ClusterState I} (hu : Reachable (fun base => base.index = ∅) u)
        (hv : Reachable (fun base => base.index = ∅) v) =>
      covers_divergentRanges (hconsistent hu) (hconsistent hv) (hmemo hu) (hmemo hv)
    exact converges (finite_keysIn (hconsistent hb)) (finite_keysIn (hconsistent ha₁))
      (finite_keysIn (hconsistent hb₁)) hpull hpull₁ hpull₂ (hcovers ha hb hfaithful)
      (hcovers hb ha₁ hfaithful₁) (hcovers ha₁ hb₁ hfaithful₂)

end ClusterState

end DynRunner

namespace DynRunner.Sample

/-- A pull with at most five packages. -/
def pull (requester target : ClusterState String) : Option (ClusterState String) :=
  SnapshotStreamPlan.deliverAll packageBudget target 5
    (.new target none (requester.divergentRangesForPull target)) requester

/-- The first node pulls from the second, the second from it, and it from the second again. -/
def threePulls (a b : ClusterState String) :
    Option (ClusterState String × ClusterState String × ClusterState String) := do
  let a₁ ← pull a b
  let b₁ ← pull b a₁
  let a₂ ← pull a₁ b₁
  return (a₁, b₁, a₂)

/-- The sample pulls are pulls. -/
theorem pullsFrom_of_threePulls {a b a₁ b₁ a₂ : ClusterState String}
    (h : threePulls a b = some (a₁, b₁, a₂)) :
    a.PullsFrom packageBudget b a₁ ∧ b.PullsFrom packageBudget a₁ b₁ ∧
      a₁.PullsFrom packageBudget b₁ a₂ := by
  simp only [threePulls, Option.bind_eq_bind, Option.bind_eq_some_iff, Option.pure_def,
    Option.some.injEq, Prod.mk.injEq] at h
  obtain ⟨_, hfirst, _, hsecond, _, hthird, rfl, rfl, rfl⟩ := h
  exact ⟨SnapshotStreamPlan.delivered_of_deliverAll 5 hfirst,
    SnapshotStreamPlan.delivered_of_deliverAll 5 hsecond,
    SnapshotStreamPlan.delivered_of_deliverAll 5 hthird⟩

/-- A node that has added tasks with the given keys. -/
def added (keys : List TaskHash) (s : ClusterState String) : ClusterState String :=
  s.applyAll (keys.map fun key => .taskAdded key (task key []) none)

/-- Two tasks of one range. -/
def twoInRange : ClusterState String := added ["az", "b["] .empty

/-- A third task of that range, and one of another. -/
def oneInRange : ClusterState String := added ["c<", "k"] .empty

/-- The same tasks on a node that has adopted the settled task `"a"`. -/
def oneBesideBase : ClusterState String := added ["c<", "k"] promoted

variable {s : ClusterState String}

/-- Nothing is paused if no entry waits. -/
theorem not_pausedOn_of_entries
    (h : ∀ e ∈ s.tasks.entries, e.2.waitsOn = none) (x on : TaskHash) : ¬s.PausedOn x on := by
  rintro ⟨st, hst, hwaits⟩
  have hnone : st.waitsOn = none := h ⟨x, st⟩ (HashMap.mem_entries_iff.mpr hst)
  exact absurd (hnone.symm.trans hwaits) (by simp)

/-- The sample states can be reached. -/
theorem added_reachable {adopt : SettledStore String → Prop}
    (hs : ClusterState.Reachable adopt s) (keys : List TaskHash) :
    ClusterState.Reachable adopt (added keys s) := by
  induction keys generalizing s with
  | nil => exact hs
  | cons key keys ih => exact ih (.apply _ hs)

/-- **An adopted base is not pulled.** A node that has adopted a settled task is ahead of an empty
one, and no range of their digests differs. When it holds other tasks as well, three pulls leave the
other node without the adopted one. -/
theorem adopted_base_not_pulled : (ClusterState.Reachable (fun _ => True) promoted ∧
      ((ClusterState.empty : ClusterState String).digest noOthers).tasks.behind
        (promoted.digest noOthers).tasks = true ∧
      (ClusterState.empty : ClusterState String).divergentRangesForPull promoted = []) ∧
    ClusterState.Reachable (fun _ => True) twoInRange ∧
      ClusterState.Reachable (fun _ => True) oneBesideBase ∧
      (threePulls twoInRange oneBesideBase).map
        (fun e => (e.2.2.joinKeyOf "a", e.2.1.joinKeyOf "a")) =
          some (none, some (keyCompleted 0)) :=
  ⟨⟨promoted_reachable, by decide +kernel, by decide +kernel⟩, added_reachable .new _,
    added_reachable promoted_reachable _, by decide +kernel⟩

/-- No fold of two nodes collides, as far as the tasks that one of them knows tell. -/
def noCollision (s t : ClusterState String) : Bool :=
  (s.knownKeys ++ t.knownKeys).all fun h =>
    decide (s.freshTasksRangeDigest.counts (rangeIndex h) =
      t.freshTasksRangeDigest.counts (rangeIndex h) →
    s.freshTasksRangeDigest.folds (rangeIndex h) = t.freshTasksRangeDigest.folds (rangeIndex h) →
      s.joinKeyOf h = t.joinKeyOf h)

/-- Without collisions the folds tell the states apart. -/
theorem foldsFaithful_of_noCollision {t : ClusterState String} (h : noCollision s t = true) :
    s.FoldsFaithful t :=
  ClusterState.foldsFaithful_of_knownKeys fun key hkey =>
    of_decide_eq_true (List.all_eq_true.mp h key hkey)

/-- After three pulls the two nodes hold the four tasks of both. -/
theorem three_pulls_converge : twoInRange.divergentRangesForPull oneInRange ≠ [] ∧
    ∃ a₁ b₁ a₂ : ClusterState String, twoInRange.PullsFrom packageBudget oneInRange a₁ ∧
      oneInRange.PullsFrom packageBudget a₁ b₁ ∧ a₁.PullsFrom packageBudget b₁ a₂ ∧
      ∀ h, a₂.joinKeyOf h = b₁.joinKeyOf h := by
  have hsome : (threePulls twoInRange oneInRange).any (fun e =>
      noCollision oneInRange e.1 && noCollision e.1 e.2.1) = true := by decide +kernel
  obtain ⟨⟨a₁, b₁, a₂⟩, hpulls, hfaithful⟩ := (Option.any_eq_true _ _).mp hsome
  rw [Bool.and_eq_true] at hfaithful
  obtain ⟨hfirst, hsecond, hthird⟩ := pullsFrom_of_threePulls hpulls
  obtain ⟨hranges, hconverge⟩ := ClusterState.anti_entropy_converges skippingCodec_roundTrips
    plainStream_roundTrips (added_reachable .new _ : ClusterState.Reachable _ twoInRange)
    (added_reachable .new _ : ClusterState.Reachable _ oneInRange)
    (not_pausedOn_of_entries (by decide +kernel)) (not_pausedOn_of_entries (by decide +kernel))
    (foldsFaithful_of_noCollision (by decide +kernel))
  exact ⟨hranges noOthers noOthers (by decide +kernel), a₁, b₁, a₂, hfirst, hsecond, hthird,
    hconverge a₁ b₁ a₂ hfirst hsecond hthird (foldsFaithful_of_noCollision hfaithful.1)
      (foldsFaithful_of_noCollision hfaithful.2)⟩

end DynRunner.Sample
