import DynRunner.ClusterState.Consistency
import DynRunner.Lib.Waiting

/-!
# The logical ledger

What a node's state says about each task, wherever the body of the entry lives: in memory,
or in the record a settled entry points to. On this level a merge is a single operation
with its consequences: the winning entry is stored, a first completion resumes what was
paused on it, and a permanent failure fails everything that waits on it.
-/

namespace DynRunner

open TaskState

variable {I : Type} {st : TaskState I}

/-- The entry of each task. -/
abbrev Ledger (I : Type) := Board TaskHash (TaskState I)

/-- The prerequisite an entry is paused on. -/
def TaskState.waitsOn (st : TaskState I) : Option TaskHash := st.status.blockedOn

@[simp] theorem TaskState.waitsOn_upstreamFailed : st.upstreamFailed.waitsOn = none := rfl

@[simp] theorem TaskState.waitsOn_resumed (st : TaskState I) : st.resumed.waitsOn = none := rfl

/-- A task waits if it is blocked. -/
theorem TaskState.waitsOn_eq_some {on : TaskHash} :
    st.waitsOn = some on ↔ st.status = .blocked on := by
  unfold waitsOn TaskStatus.blockedOn
  split <;> rename_i hstatus
  · rw [hstatus]
    simp
  · constructor
    · intro h
      cases h
    · intro h
      exact (hstatus on h).elim

/-- A status with a property that no blocked one has. -/
theorem TaskState.waitsOn_eq_none {p : TaskStatus → Bool} (hp : ∀ on, p (.blocked on) = false)
    (h : p st.status = true) : st.waitsOn = none := by
  cases hw : st.waitsOn with
  | none => rfl
  | some =>
    rw [waitsOn_eq_some.mp hw, hp] at h
    cases h

namespace Ledger

/-- Task `x` is paused on `on`. -/
def Waits (L : Ledger I) (x on : TaskHash) : Prop := Board.Waits waitsOn L x on

/-- The tasks that fail with `h`. -/
def doomed (L : Ledger I) (h : TaskHash) : Set TaskHash := Board.doomed waitsOn L h

variable (L : Ledger I)

/-- Store an entry. -/
def put (h : TaskHash) (st : TaskState I) : Ledger I :=
  Function.update L h (some st)

/-- Resume every task paused on `h`. -/
def resumeOn (h : TaskHash) : Ledger I := fun x =>
  if (L x).bind waitsOn = some h then (L x).map resumed else L x

open Classical in
/-- Fail every task that waits on `h`, directly or through other paused tasks. -/
noncomputable def failOn (h : TaskHash) : Ledger I := fun x =>
  if x ∈ L.doomed h then (L x).map upstreamFailed else L x

section Merge

variable [DefaultHasher]

/-- A write wins over a missing entry and over one with a smaller key. -/
def Wins (L : Ledger I) (h : TaskHash) (incoming : TaskState I) : Prop :=
  ∀ st, L h = some st → taskJoinKey st < taskJoinKey incoming

/-- The first completion of a task. -/
def FirstCompletion (L : Ledger I) (h : TaskHash) (incoming : TaskState I) : Prop :=
  incoming.status = .completed ∧ ∀ st, L h = some st → st.status ≠ .completed

open Classical in
/-- The merge of one entry, with its consequences for the tasks paused on it. -/
noncomputable def merge (L : Ledger I) (h : TaskHash) (incoming : TaskState I) : Ledger I :=
  if L.Wins h incoming then
    if L.FirstCompletion h incoming then (L.resumeOn h).put h incoming
    else if incoming.status.isCascadeTerminal then (L.put h incoming).failOn h
    else L.put h incoming
  else L

end Merge

@[simp] theorem put_same (L : Ledger I) (h : TaskHash) (st : TaskState I) :
    L.put h st h = some st := Function.update_self ..

variable {x h : TaskHash} {L : Ledger I} {M R : Ledger I}

/-- Another entry stays. -/
theorem put_of_ne (hx : x ≠ h) (L : Ledger I) (st : TaskState I) : L.put h st x = L x :=
    Function.update_of_ne hx _ _

/-- The ledger after one entry is written. -/
theorem put_apply (h : TaskHash) :
    L.put h st x = if x = h then some st else L x := Function.update_apply ..

/-- A resumed ledger, read entry by entry. -/
theorem resumeOn_of_waits (hx : L x = some st)
    (hw : st.waitsOn = some h) : L.resumeOn h x = some st.resumed := by
  rw [resumeOn, hx, Option.bind_some, if_pos hw, Option.map_some]

/-- What does not wait is not resumed. -/
theorem resumeOn_of_not_waits (hw : ¬L.Waits x h) : L.resumeOn h x = L x := by
  rw [resumeOn, if_neg]
  intro hbind
  obtain ⟨st, hst, hon⟩ := Option.bind_eq_some_iff.mp hbind
  exact hw ⟨st, hst, hon⟩

/-- What is doomed fails. -/
theorem failOn_of_doomed (hx : x ∈ L.doomed h) :
    L.failOn h x = (L x).map upstreamFailed := if_pos hx

/-- What is not doomed stays. -/
theorem failOn_of_not_doomed (hx : x ∉ L.doomed h) : L.failOn h x = L x := if_neg hx

/-- A doomed task is paused. -/
theorem exists_waits_of_doomed (hx : x ∈ L.doomed h) : ∃ y, L.Waits x y := by
  induction hx using Relation.TransGen.head_induction_on with
  | single hw => exact ⟨h, hw⟩
  | @head x y hw _ _ => exact ⟨y, hw⟩

section MergeCases

variable [DefaultHasher]

/-- The four outcomes of a merge. -/
theorem merge_cases (L : Ledger I) (h : TaskHash) {incoming : TaskState I} :
    (¬L.Wins h incoming ∧ L.merge h incoming = L) ∨
      (L.Wins h incoming ∧ L.FirstCompletion h incoming ∧
        L.merge h incoming = (L.resumeOn h).put h incoming) ∨
      (L.Wins h incoming ∧ incoming.status.isCascadeTerminal = true ∧
        L.merge h incoming = (L.put h incoming).failOn h) ∨
      (L.Wins h incoming ∧ ¬L.FirstCompletion h incoming ∧
        incoming.status.isCascadeTerminal = false ∧ L.merge h incoming = L.put h incoming) := by
  unfold merge
  split
  case isFalse hlose => exact .inl ⟨hlose, rfl⟩
  case isTrue hwins =>
    split
    case isTrue hfirst => exact .inr (.inl ⟨hwins, hfirst, rfl⟩)
    case isFalse hfirst =>
      split
      case isTrue hcascade => exact .inr (.inr (.inl ⟨hwins, hcascade, rfl⟩))
      case isFalse hcascade =>
        exact .inr (.inr (.inr ⟨hwins, hfirst, by simpa using hcascade, rfl⟩))

end MergeCases

/-- The ledger in which exactly the doomed tasks failed. -/
theorem eq_failOn (hM : Board.FailedExactly upstreamFailed L (L.doomed h) M) : M = L.failOn h := by
  funext x
  by_cases hx : x ∈ L.doomed h
  · rw [(hM x).1 hx, failOn_of_doomed hx]
  · rw [(hM x).2 hx, failOn_of_not_doomed hx]

/-- The entries of `L`, and those of `R` where `L` has none. -/
def overlay (L R : Ledger I) : Ledger I := fun x => (L x).or (R x)

/-- Writing an entry commutes with the archive below. -/
theorem overlay_put (h : TaskHash) : (L.put h st).overlay R = (L.overlay R).put h st := by
  funext x
  by_cases hx : x = h
  · subst hx
    simp [overlay]
  · simp [overlay, put_of_ne hx]

section Overlay

/-! Entries that are not paused can be laid under a ledger before or after its tasks are
resumed or failed. -/

variable (hR : ∀ x st, R x = some st → st.waitsOn = none)
include hR

/-- The archive makes nothing wait. -/
theorem waits_overlay (x y : TaskHash) : (L.overlay R).Waits x y ↔ L.Waits x y := by
  unfold Waits Board.Waits overlay
  cases hx : L x with
  | some => simp
  | none =>
    simp only [Option.none_or, reduceCtorEq, false_and, exists_false, iff_false]
    rintro ⟨st, hst, hw⟩
    rw [hR x st hst] at hw
    cases hw

/-- Resuming commutes with the archive below. -/
theorem overlay_resumeOn (h : TaskHash) : (L.resumeOn h).overlay R = (L.overlay R).resumeOn h := by
  funext x
  by_cases hw : L.Waits x h
  · obtain ⟨st, hst, hon⟩ := hw
    have hover : L.overlay R x = some st := by simp [overlay, hst]
    rw [resumeOn_of_waits hover hon, overlay, resumeOn_of_waits hst hon, Option.some_or]
  · rw [resumeOn_of_not_waits fun h' => hw ((waits_overlay hR x h).mp h'), overlay,
      resumeOn_of_not_waits hw, overlay]

/-- Failing commutes with the archive below. -/
theorem overlay_failOn (h : TaskHash) : (L.failOn h).overlay R = (L.overlay R).failOn h := by
  have hdoomed : (L.overlay R).doomed h = L.doomed h := by
    have hwaits : Board.Waits waitsOn (L.overlay R) = Board.Waits waitsOn L := by
      funext x y
      exact propext (waits_overlay hR x y)
    rw [doomed, doomed, Board.doomed, Board.doomed, hwaits]
  funext x
  by_cases hx : x ∈ L.doomed h
  · obtain ⟨y, st, hst, _⟩ := exists_waits_of_doomed hx
    have hover : L.overlay R x = some st := by simp [overlay, hst]
    rw [failOn_of_doomed (hdoomed ▸ hx), hover, overlay, failOn_of_doomed hx, hst]
    rfl
  · rw [failOn_of_not_doomed (hdoomed ▸ hx), overlay, failOn_of_not_doomed hx, overlay]

end Overlay

end Ledger

namespace ClusterState

/-- The entries in memory. -/
def fat (s : ClusterState I) : Ledger I := fun h => s.tasks.lookup h

/-- The bodies of the settled entries. -/
def archive [RecordCodec I] (s : ClusterState I) : Ledger I := fun h =>
  (s.settledRecord h).map (·.1)

/-- The logical ledger: an entry in memory, or the body of a settled one. -/
def logical [RecordCodec I] (s : ClusterState I) : Ledger I := s.fat.overlay s.archive

/-- Paused entries are the waiting ones in memory. -/
theorem pausedOn_iff {s : ClusterState I} {x on : TaskHash} : s.PausedOn x on ↔ s.fat.Waits x on :=
  Iff.rfl

@[simp] theorem fat_setTaskState [DefaultHasher] {s : ClusterState I} (h : TaskHash)
    {st : TaskState I} : (s.setTaskState h st).fat = s.fat.put h st := by
  funext x
  rw [Ledger.put_apply]
  exact setTaskState_lookup x

end ClusterState

end DynRunner
