import DynRunner.Primary.Commands

/-!
# Failures that the scheduler commands

Beside the consumer, the primary itself fails tasks for good. A task whose import can run on no
secondary any more is taken out of its bucket first and failed then: by a command if it was about
to be dispatched, or in a batch with all the others.
-/

namespace DynRunner

variable {I : Type}

namespace Coordinator

variable [DefaultHasher] [Identifier I] [RecordCodec I] [DonePayloadCodec] (c : Coordinator I)

/-- `claim_affine_work_for_fail`: take a task out of its bucket, as if it were dispatched. Nothing
happens if no bucket that is scanned has it. -/
def claimAffineWorkForFail (hash : TaskHash) (phaseId : PhaseId) : Option (Coordinator I) :=
  (c.pool.takeFirstMatch fun task => computeTaskHash task = hash).map fun (_, pool) =>
    { c with pool := pool.markInFlight phaseId }

/-- `affine_unsatisfiable_reason`. -/
def affineUnsatisfiableReason (hash : TaskHash) : String :=
  "affine import for work task " ++ hash ++ " FAILED on every eligible secondary — " ++
    "the per-secondary import cannot be satisfied anywhere, " ++
    "so the dependent is permanently unfulfillable"

/-- `fail_unsatisfiable_affine_work`: claim the task and send the command that fails it. If the
command cannot be sent, the count is undone. -/
def failUnsatisfiableAffineWork
    (hash : TaskHash) (phaseId : PhaseId) (sent : Bool) : Coordinator I :=
  match c.claimAffineWorkForFail hash phaseId with
  | none => c
  | some c => if sent then c else { c with pool := c.pool.onItemFinished phaseId none }

/-- The claims of a set of doomed tasks: those that were found, with what they are failed with. -/
def claimDoomed (c : Coordinator I) : List (TaskHash × PhaseId) →
    List (TaskHash × ErrorType × String) × Coordinator I
  | [] => ([], c)
  | (hash, phaseId) :: doomed =>
    match c.claimAffineWorkForFail hash phaseId with
    | none => c.claimDoomed doomed
    | some c =>
      let (claimed, c) := c.claimDoomed doomed
      ((hash, .nonRecoverable, affineUnsatisfiableReason hash) :: claimed, c)

/-- `terminalize_doomed_affine_work`: claim the doomed tasks and fail them in one batch. -/
def terminalizeDoomedAffineWork (doomed : List (TaskHash × PhaseId)) : Coordinator I :=
  let (claimed, c) := c.claimDoomed doomed
  c.applyFailPermanentBatch claimed

end Coordinator

end DynRunner
