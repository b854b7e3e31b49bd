import DynRunner.Cells.Promotion
import DynRunner.Primary.Terminals

/-!
# Imports that have finished

An affine import runs once on each secondary that needs it, and its cell there tells whether it has
finished. A report that it failed or bounced is taken as it comes, unless it is about who holds the
task. Nothing says which dispatch the report belongs to, so a late one undoes the cell of an import
that has finished since.
-/

namespace DynRunner

open List SecondaryCellBitvector

variable {I : Type}

/-- How a dispatch of an import ended. -/
inductive ImportOutcome
  | taskComplete
  | taskFailed (errorMessage : String)
  | illegallyAssigned

/-- What a secondary reports of an import. -/
structure ImportReport where
  secondaryId : String
  taskHash : TaskHash
  outcome : ImportOutcome

namespace ImportOutcome

/-- A report about the holder of the task, which `handle_task_failed` takes before it looks whether
the task is an import. -/
def NamesHolder : ImportOutcome → Prop
  | .taskFailed errorMessage => errorMessage = taskAlreadyHeldWireMessage ∨
      errorMessage = taskSupplantedByLiveHolderWireMessage
  | _ => False

instance : DecidablePred NamesHolder
  | .taskFailed _ => inferInstanceAs (Decidable (_ ∨ _))
  | .taskComplete | .illegallyAssigned => inferInstanceAs (Decidable False)

/-- What a report writes to the cell: `affine_terminal_mutation` for an import that has run, and
`affine_unqueue_mutation` for one that has bounced. A report about the holder writes nothing. -/
def cell (outcome : ImportOutcome) : Option SecondaryCell :=
  if outcome.NamesHolder then none
  else match outcome with
    | .taskComplete => some .done
    | .taskFailed errorMessage =>
      some (if isBackpressureShaped errorMessage then .notDone else .failed)
    | .illegallyAssigned => some .notDone

/-- A completion is the only report that writes `Done`. -/
theorem cell_eq_some_done {outcome : ImportOutcome} :
    outcome.cell = some .done ↔ outcome = .taskComplete := by
  cases outcome with
  | taskComplete => simp [cell, NamesHolder]
  | taskFailed => rw [cell]; split_ifs <;> simp
  | illegallyAssigned => simp [cell, NamesHolder]

/-- Only a report about the holder writes nothing. -/
theorem cell_eq_none {outcome : ImportOutcome} : outcome.cell = none ↔ outcome.NamesHolder := by
  unfold cell
  split_ifs with h
  · exact iff_of_true rfl h
  · cases outcome <;> exact iff_of_false nofun h

end ImportOutcome

/-- What a secondary can do for a task that needs imports. -/
inductive AffineGateOutcome
  | ready
  | inFlightHere
  | strandedHere
  | reroute (secondary : String)
  | unsatisfiable
  deriving DecidableEq

/-- A report about an import on a secondary. -/
def ImportReport.IsOf (report : ImportReport) (s : ClusterState I) (secondary : String)
    (id : SecondaryCellId) : Prop :=
  report.secondaryId = secondary ∧ s.affineIdForHash report.taskHash = some id

namespace Replica

variable (r : Replica I) (secondary : String)

/-- `affine_state`: the cell of an import on the secondary. -/
def affineState (id : SecondaryCellId) : SecondaryCell := r.affine.bitvector.cell secondary id

/-- The walk of `affine_readiness_gate` over imports none of which has failed: the first that has
not finished decides. -/
def firstUnmet : List SecondaryCellId → AffineGateOutcome
  | [] => .ready
  | id :: affineDeps =>
    match r.affineState secondary id with
    | .done => firstUnmet affineDeps
    | .queued => .inFlightHere
    | _ => .strandedHere

/-- `affine_readiness_gate`, for the imports that the primary has given up and the secondary that
`select_secondary` would take instead. -/
def affineReadinessGate (failedTasks : SecondaryCellId → Bool) (selectSecondary : Option String)
    (affineDeps : List SecondaryCellId) : AffineGateOutcome :=
  if affineDeps.any failedTasks then .unsatisfiable
  else if affineDeps.any fun id => r.affineState secondary id = .failed then
    match selectSecondary with
    | some target => .reroute target
    | none => .unsatisfiable
  else r.firstUnmet secondary affineDeps

/-- `dispatch_affine_import_on_demand`: the import that a stranded task has run. -/
def nextImport (failedTasks : SecondaryCellId → Bool) (selectSecondary : Option String)
    (affineDeps : List SecondaryCellId) : Option SecondaryCellId :=
  match r.affineReadinessGate secondary failedTasks selectSecondary affineDeps with
  | .strandedHere => affineDeps.find? fun id => r.affineState secondary id = .notDone
  | _ => none

/-- A mutation of a cell is stamped with a new generation and applied. -/
def originate (id : SecondaryCellId) (cell : SecondaryCell) : Replica I :=
  let (generation, affine) := r.affine.nextCellGeneration
  (applySecondaryCellWrite { r with affine } secondary id cell generation).1

/-- What `handle_task_complete`, `handle_task_failed` and `handle_illegally_assigned` do to the cell
of an import. -/
def handleReport (report : ImportReport) : Replica I :=
  match report.outcome.cell, r.cluster.affineIdForHash report.taskHash with
  | some cell, some id => r.originate report.secondaryId id cell
  | _, _ => r

/-- The generations to come are later than those of the cells, as after a promotion. -/
def Ahead : Prop := ∀ k, r.affine.bitvector.plain k ≤ toLex (r.affine.nextCellGen, .notDone)

variable {r secondary} {id : SecondaryCellId} {report : ImportReport}

/-- A report changes cells only. -/
theorem cluster_handleReport : (r.handleReport report).cluster = r.cluster := by
  unfold handleReport
  split <;> rfl

/-- The write of a report is later than what it overwrites. -/
theorem plain_originate (h : r.Ahead) {cell : SecondaryCell} :
    (r.originate secondary id cell).affine.bitvector.plain =
      Function.update r.affine.bitvector.plain (secondary, id)
        (toLex (r.affine.nextCellGen, cell)) := by
  refine plain_setCell.trans (congrArg _ (sup_eq_right.mpr ((h _).trans ?_)))
  refine Prod.Lex.toLex_le_toLex.mpr (.inr ⟨rfl, ?_⟩)
  change SecondaryCell.notDone ≤ cell
  cases cell <;> decide

/-- The counter stays ahead of the cells. -/
theorem Ahead.handleReport (h : r.Ahead) : (r.handleReport report).Ahead := by
  have hnext : ∀ cell, toLex (r.affine.nextCellGen, cell) ≤
      toLex (r.affine.nextCellGen + 1, SecondaryCell.notDone) :=
    fun _ => Prod.Lex.toLex_le_toLex.mpr (.inl (Nat.lt_succ_self _))
  unfold Replica.handleReport
  split
  · intro k
    rw [plain_originate h, Function.update_apply]
    split_ifs
    · exact hnext _
    · exact (h k).trans (hnext _)
  · exact h

/-- One report leaves a finished import finished if and only if it is about another cell, of a
completion, or about the holder. -/
theorem done_handleReport_iff (h : r.Ahead) (hdone : r.affineState secondary id = .done) :
    (r.handleReport report).affineState secondary id = .done ↔
      (report.IsOf r.cluster secondary id →
        report.outcome = .taskComplete ∨ report.outcome.NamesHolder) := by
  unfold handleReport ImportReport.IsOf
  rw [← ImportOutcome.cell_eq_some_done, ← ImportOutcome.cell_eq_none]
  cases report.outcome.cell with
  | none => simp [hdone]
  | some cell =>
    cases r.cluster.affineIdForHash report.taskHash with
    | none => simp [hdone]
    | some i =>
      dsimp only
      rw [affineState, cell_eq_plain] at hdone ⊢
      rw [plain_originate h, Function.update_apply]
      split_ifs with hkey
      · cases hkey
        simp
      · exact iff_of_true hdone fun ⟨hs, hid⟩ => (hkey (by rw [hs, Option.some.inj hid])).elim

/-- A finished import is passed over by the walk. -/
theorem firstUnmet_filter_ne (hdone : r.affineState secondary id = .done)
    (affineDeps : List SecondaryCellId) :
    r.firstUnmet secondary (affineDeps.filter (· ≠ id)) = r.firstUnmet secondary affineDeps := by
  induction affineDeps with
  | nil => rfl
  | cons i affineDeps ih =>
    by_cases hi : i = id
    · rw [filter_cons_of_neg (by simp [hi]), ih, hi, firstUnmet, hdone]
    · rw [filter_cons_of_pos (by simp [hi]), firstUnmet, firstUnmet, ih]

/-- A task that needs a finished import is decided upon as if it did not need it. -/
theorem affineReadinessGate_filter_ne (hdone : r.affineState secondary id = .done)
    {failedTasks : SecondaryCellId → Bool} (hfailed : failedTasks id = false)
    (selectSecondary : Option String) (affineDeps : List SecondaryCellId) :
    r.affineReadinessGate secondary failedTasks selectSecondary (affineDeps.filter (· ≠ id)) =
      r.affineReadinessGate secondary failedTasks selectSecondary affineDeps := by
  have hany : ∀ p : SecondaryCellId → Bool, p id = false →
      (affineDeps.filter (· ≠ id)).any p = affineDeps.any p := by
    intro p hp
    rw [any_filter]
    refine congrArg (affineDeps.any ·) (funext fun i => ?_)
    by_cases hi : i = id <;> simp [hi, hp]
  unfold affineReadinessGate
  rw [hany _ hfailed, hany _ (by simp [hdone]), firstUnmet_filter_ne hdone]

/-- A finished import is not run. -/
theorem nextImport_ne (hdone : r.affineState secondary id = .done)
    (failedTasks : SecondaryCellId → Bool) (selectSecondary : Option String)
    (affineDeps : List SecondaryCellId) :
    r.nextImport secondary failedTasks selectSecondary affineDeps ≠ some id := by
  unfold nextImport
  split
  · intro hnext
    simpa [hdone] using find?_some hnext
  · nofun

/-- **A finished import stays finished** through a sequence of reports, is not run there again, and
the tasks that need it are decided upon as if they did not, exactly if those of the reports that
are about the import on that secondary are of its completion or of who holds it. -/
theorem finished_import_stays_iff (h : r.Ahead) (hdone : r.affineState secondary id = .done)
    (reports : List ImportReport) :
    (∀ n, ((reports.take n).foldl handleReport r).affineState secondary id = .done ∧
      ∀ failedTasks selectSecondary affineDeps,
        ((reports.take n).foldl handleReport r).nextImport secondary failedTasks selectSecondary
            affineDeps ≠ some id ∧
        (failedTasks id = false →
          ((reports.take n).foldl handleReport r).affineReadinessGate secondary failedTasks
              selectSecondary (affineDeps.filter (· ≠ id)) =
            ((reports.take n).foldl handleReport r).affineReadinessGate secondary failedTasks
              selectSecondary affineDeps)) ↔
      ∀ report ∈ reports, report.IsOf r.cluster secondary id →
        report.outcome = .taskComplete ∨ report.outcome.NamesHolder := by
  have hrerun (x : Replica I) (hx : x.affineState secondary id = .done) :
      ∀ failedTasks selectSecondary affineDeps,
        x.nextImport secondary failedTasks selectSecondary affineDeps ≠ some id ∧
        (failedTasks id = false → x.affineReadinessGate secondary failedTasks selectSecondary
          (affineDeps.filter (· ≠ id)) =
            x.affineReadinessGate secondary failedTasks selectSecondary affineDeps) :=
    fun failedTasks selectSecondary affineDeps => ⟨nextImport_ne hx _ _ _,
      fun hfailed => affineReadinessGate_filter_ne hx hfailed _ _⟩
  induction reports generalizing r with
  | nil =>
    refine iff_of_true (fun n => ?_) (by simp)
    rw [take_nil]
    exact ⟨hdone, hrerun r hdone⟩
  | cons report reports ih =>
    have hahead : (r.handleReport report).Ahead := h.handleReport
    have hnext := ih hahead
    rw [cluster_handleReport] at hnext
    rw [forall_mem_cons, ← done_handleReport_iff h hdone]
    constructor
    · intro hall
      have hfirst := (hall 1).1
      exact ⟨hfirst, (hnext hfirst).mp fun n => hall (n + 1)⟩
    · rintro ⟨hfirst, hrest⟩ (_ | n)
      · exact ⟨hdone, hrerun r hdone⟩
      · exact (hnext hfirst).mpr hrest n

end Replica

namespace Sample

open Replica

/-- A node that knows the import `"a"`. -/
def knownImport : Replica String :=
  let r := (new.apply (.cluster (.taskAdded "a" (task "a" []) none))).1
  (r.apply (.cluster (.secondaryCellRegistered "a" 0))).1

/-- A dispatch of the import to `"s1"` bounces. -/
def bounce : ImportReport := ⟨"s1", "a", .taskFailed "worker pipe broken; respawning"⟩

/-- After the bounce the import is run there. -/
def finishedImport : Replica String :=
  (knownImport.handleReport bounce).handleReport ⟨"s1", "a", .taskComplete⟩

/-- A failure on another secondary, and the refusal of a second assignment there, change nothing. -/
theorem import_stays_finished : finishedImport.affineState "s1" 0 = .done ∧
    ([⟨"s2", "a", .taskFailed ""⟩, ⟨"s1", "a", .taskFailed taskAlreadyHeldWireMessage⟩].foldl
      handleReport finishedImport).affineState "s1" 0 = .done := by
  have hstart : knownImport.Ahead := fun _ => unwritten_le _
  have hdone : finishedImport.affineState "s1" 0 = .done := by decide +kernel
  refine ⟨hdone, ((finished_import_stays_iff hstart.handleReport.handleReport hdone
    [⟨"s2", "a", .taskFailed ""⟩, ⟨"s1", "a", .taskFailed taskAlreadyHeldWireMessage⟩]).mpr
      ?_ 2).1⟩
  simp [ImportReport.IsOf, ImportOutcome.NamesHolder]

/-- **A late report undoes a finished import**: the report of its first dispatch comes again, and
the import is to be run there once more. -/
theorem late_bounce_reruns_import : finishedImport.affineState "s1" 0 = .done ∧
    (finishedImport.handleReport bounce).affineState "s1" 0 = .notDone ∧
    (finishedImport.handleReport bounce).affineReadinessGate "s1" (fun _ => false) none [0] =
      .strandedHere ∧
    (finishedImport.handleReport bounce).nextImport "s1" (fun _ => false) none [0] = some 0 := by
  decide +kernel

end Sample

end DynRunner
