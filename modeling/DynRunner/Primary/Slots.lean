import DynRunner.Primary.Model

/-!
# Worker slots and the in-flight ledger

A dispatched task is tracked twice: the in-flight ledger has it under its hash, and the slot of the
worker that runs it holds the hash. A terminal report frees the two together, provided that they
agree. A member that turns out to run a task which the ledger has with another member takes the
entry over.
-/

namespace DynRunner

variable {I : Type}

namespace Coordinator

section Slots

variable (c : Coordinator I)

/-- The secondaries of the worker slots, in their order. -/
def slotOwners : List String := c.workers.map RemoteWorkerState.secondaryId

/-- `worker_idx_for`: the slot of a worker that is known by its number within its secondary. -/
def workerIdxFor (secondary : String) (localWorkerId : ℕ) : Option ℕ :=
  (c.slotOwners.idxsOf secondary)[localWorkerId]?

/-- `local_worker_id_in_secondary`: the inverse of `workerIdxFor`. -/
def localWorkerIdInSecondary (workerIdx : ℕ) (secondary : String) : ℕ :=
  (c.slotOwners.take (workerIdx + 1)).count secondary - 1

/-- The hash that a slot holds. -/
def heldBy (workerIdx : ℕ) : Option TaskHash :=
  c.workers[workerIdx]?.bind fun w => w.state.holds

/-- A slot becomes idle. -/
def vacate (workerIdx : ℕ) : Coordinator I :=
  { c with workers := c.workers.modify workerIdx fun w => { w with state := .idle } }

/-- An entry leaves the in-flight ledger. -/
def dropInFlight (hash : TaskHash) : Coordinator I :=
  { c with inFlight := c.inFlight.erase hash }

/-- `free_slot_on_terminal`: drop the entry of a task and free its slot. Nothing happens if the
slot does not exist or holds another task. -/
def freeSlotOnTerminal (hash : TaskHash) : Option (InFlightEntry I × Coordinator I) :=
  match c.inFlight.lookup hash with
  | none => none
  | some entry =>
    match entry.localWorkerId with
    | none => some (entry, c.dropInFlight hash)
    | some localWorkerId =>
      match c.workerIdxFor entry.secondaryId localWorkerId with
      | none => none
      | some workerIdx =>
        if c.heldBy workerIdx = some hash then some (entry, (c.vacate workerIdx).dropInFlight hash)
        else none

/-- The slot that an entry names. -/
def slotOf (entry : InFlightEntry I) : Option ℕ :=
  entry.localWorkerId.bind (c.workerIdxFor entry.secondaryId)

/-- A slot becomes idle, provided that it holds a task. -/
def vacateHolding (workerIdx : Option ℕ) (hash : TaskHash) : Coordinator I :=
  match workerIdx with
  | some workerIdx => if c.heldBy workerIdx = some hash then c.vacate workerIdx else c
  | none => c

/-- `free_affine_slot_on_terminal`: free the slot that an import ran in, and drop its entry if that
names this slot. -/
def freeAffineSlotOnTerminal (secondary : String) (workerId : ℕ) (hash : TaskHash) :
    Coordinator I :=
  let freed := c.vacateHolding (c.workerIdxFor secondary workerId) hash
  match c.inFlight.lookup hash with
  | some entry =>
    if entry.secondaryId = secondary ∧ entry.localWorkerId = some workerId then
      freed.dropInFlight hash
    else freed
  | none => freed

/-- A running task takes the slot of its worker, if the slot exists and is idle. -/
def seatInherited (hash : TaskHash) (secondary : String) (worker : ℕ)
    (task : TaskInfo I) : Coordinator I :=
  match c.workerIdxFor secondary worker with
  | some workerIdx =>
    { c with workers := c.workers.modify workerIdx fun w => (w.assign hash task .inherited).1 }
  | none => c

/-- The slot of the member that loses a task becomes idle if it holds a task of the same
identifier. -/
def withdrawFrom [DecidableEq I] (entry : InFlightEntry I) : Coordinator I :=
  match c.slotOf entry with
  | some workerIdx =>
    { c with workers := c.workers.modify workerIdx fun w =>
      match w.state with
      | .assigned _ task _ =>
        if task.identifier = entry.task.identifier then { w with state := .idle } else w
      | .idle => w }
  | none => c

/-- `reconcile_authoritative_holder`: the entry of a task moves to the member that runs it, whose
slot is occupied if it is idle. -/
def reconcileAuthoritativeHolder [DecidableEq I] (authoritative : String) (workerId : ℕ)
    (hash : TaskHash) : Coordinator I :=
  match c.inFlight.lookup hash with
  | none => c
  | some entry =>
    if entry.secondaryId = authoritative then c
    else
      let moved := { entry with secondaryId := authoritative, localWorkerId := some workerId }
      let c := c.withdrawFrom entry
      { c with inFlight := c.inFlight.insert hash moved }.seatInherited hash authoritative workerId
        entry.task

/-- `note_task_already_held`: only the entry of another member is moved. -/
def noteTaskAlreadyHeld [DecidableEq I] (secondary : String) (workerId : ℕ)
    (hash : TaskHash) : Coordinator I :=
  c.reconcileAuthoritativeHolder secondary workerId hash

end Slots

end Coordinator

end DynRunner
