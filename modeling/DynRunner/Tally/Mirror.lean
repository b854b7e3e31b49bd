import DynRunner.Stream.Plan
import DynRunner.Tally.Restore

/-!
# A primary and a replica

A primary originates mutations and broadcasts those that it applied. It serves snapshot streams,
each of which may be repositioned and emitted further at any time, and keeps changing meanwhile. A
replica receives the mutations and the packages in any order, any of them more than once or never.
Both may spill.

Beside the state of the code two things are recorded: the states the primary has been in, and for
each stream the keys of which an entry has arrived.
-/

namespace DynRunner

variable {I : Type}

/-- A primary, a replica, and what travels from the one to the other. -/
structure Mirror (I : Type) [StreamCodec I] where
  /-- The ledger of the primary. -/
  primary : ClusterState I
  /-- The ledger of the replica. -/
  replica : ClusterState I
  /-- The earlier ledgers of the primary. -/
  past : List (ClusterState I)
  /-- The mutations that were sent. -/
  sent : List (ClusterMutation I)
  /-- The streams that the primary serves. -/
  streams : List SnapshotStreamPlan
  /-- The packages that were sent, by stream. -/
  packages : List (ℕ × StreamPackage I)
  /-- The keys that have arrived on a stream. -/
  received : ℕ → List TaskHash

/-- What can happen. -/
inductive Mirror.Event (I : Type) [StreamCodec I]
  | originate (m : ClusterMutation I)
  | spillPrimary (receipt : List (WrittenRecord I))
  | spillReplica (receipt : List (WrittenRecord I))
  | openStream (resumeAfter : Option TaskHash) (taskRanges : List ℕ)
  | reposition (i : ℕ) (resumeAfter : Option TaskHash)
  | emit (i : ℕ)
  | deliver (m : ClusterMutation I)
  | receive (i : ℕ) (p : StreamPackage I) (order : List (TaskHash × TaskState I))

namespace Mirror

variable [DefaultHasher] [Identifier I] [RecordCodec I] [DonePayloadCodec] [StreamCodec I]

/-- Two fresh nodes. -/
def start : Mirror I where
  primary := .empty
  replica := .empty
  past := [.empty]
  sent := []
  streams := []
  packages := []
  received := fun _ => []

/-- The primary moves on. -/
def advance (x : Mirror I) (s : ClusterState I) : Mirror I :=
  { x with primary := s, past := s :: x.past }

/-- The primary applies a mutation, and broadcasts it if that changed anything. -/
def originate (x : Mirror I) (m : ClusterMutation I) : Mirror I :=
  let r := x.primary.apply m
  { x.advance r.state with sent := if r.outcome = .applied then m :: x.sent else x.sent }

/-- The primary emits the next package of a stream. A package that cannot be encoded is not
sent. -/
def emit (budget : PackageBudget) (x : Mirror I) (i : ℕ) : Mirror I :=
  match x.streams[i]? with
  | none => x
  | some plan =>
    let (plan, package) := plan.nextPackage budget x.primary
    { x with
      streams := x.streams.set i plan
      packages := match package with
        | some (.ok p) => (i, p) :: x.packages
        | _ => x.packages }

/-- The replica restores a package; one that does not decode counts as lost. -/
def receive (x : Mirror I) (i : ℕ) (p : StreamPackage I) (order : List (TaskHash × TaskState I)) :
    Mirror I :=
  match StreamCodec.decodeStreamPayload p.payload with
  | .error _ => x
  | .ok snap =>
    { x with
      replica := (x.replica.restoreInOrder snap order).1
      received := Function.update x.received i (x.received i ++ snap.tasks.keys) }

/-- One step of the two nodes. -/
def step (budget : PackageBudget) (x : Mirror I) : Event I → Mirror I
  | .originate m => x.originate m
  | .spillPrimary receipt => x.advance (x.primary.commitSpill receipt)
  | .spillReplica receipt => { x with replica := x.replica.commitSpill receipt }
  | .openStream resumeAfter taskRanges =>
    { x with streams := x.streams ++ [.new x.primary resumeAfter taskRanges] }
  | .reposition i resumeAfter =>
    { x with streams := x.streams.modify i fun plan => plan.reposition resumeAfter }
  | .emit i => x.emit budget i
  | .deliver m => { x with replica := (x.replica.apply m).state }
  | .receive i p order => x.receive i p order

/-- A receipt holds sound records, each in the phase of the entry it was captured from. -/
def ReceiptSound (s : ClusterState I) (receipt : List (WrittenRecord I)) : Prop :=
  ∀ w ∈ receipt, ClusterState.WrittenSound w ∧ ∀ st, s.logical w.hash = some st →
    w.record.state.definition.phaseId = st.definition.phaseId

/-- What the surroundings allow: nothing arrives that was not sent. -/
def Allowed (x : Mirror I) : Event I → Prop
  | .spillPrimary receipt => ReceiptSound x.primary receipt
  | .spillReplica receipt => ReceiptSound x.replica receipt
  | .deliver m => m ∈ x.sent
  | .receive i p order => (i, p) ∈ x.packages ∧
      ∀ snap, StreamCodec.decodeStreamPayload p.payload = .ok snap → order.Perm snap.taskEntries
  | _ => True

/-! ## The steps that count nothing twice -/

/-- At some time the primary has held the task in this state and phase. -/
def Held (x : Mirror I) (h : TaskHash) (st : TaskState I) : Prop :=
  ∃ s ∈ x.past, ∃ st', s.logical h = some st' ∧ st'.status = st.status ∧
    st'.attempt = st.attempt ∧ st'.definition.phaseId = st.definition.phaseId

/-- No task is paused on the replica, or by the entries at hand, that a permanent failure of its
prerequisite would fail there and has not failed on the primary. -/
def NoStalePause (x : Mirror I) (order : List (TaskHash × TaskState I)) : Prop :=
  ∀ d st on, x.replica.logical d = some st ∨ (d, st) ∈ order → st.status = .blocked on →
    (∃ s ∈ x.past, ∃ st', s.logical on = some st' ∧ st'.status.isCascadeTerminal = true) →
    x.Held d st.upstreamFailed

/-- The two nodes have a task in the same phase. -/
def SamePhase (x : Mirror I) (h : TaskHash) : Prop :=
  ∀ st st', x.replica.logical h = some st → x.primary.logical h = some st' →
    st.definition.phaseId = st'.definition.phaseId

/-- **The steps that count nothing twice.** Neither node reopens a task in an attempt that is
over. The primary counts every event that it shows: it completes no task again, and spawns none
that fails at once. The replica has the tasks whose outcome it is told in the primary's phases, and
no stale pause when a permanent failure arrives. It restores the tallies of a stream only when an
entry for each key of the stream has arrived. -/
def Safe (x : Mirror I) : Event I → Prop
  | .originate m => ¬x.primary.Reopens m ∧ ¬x.primary.Uncounted m
  | .deliver m => ¬x.replica.Reopens m ∧
      ∀ h status attempt, m.candidate = some (h, status, attempt) → x.SamePhase h ∧
        (status.isCascadeTerminal = true → x.NoStalePause [])
  | .receive i p order => ∀ snap, StreamCodec.decodeStreamPayload p.payload = .ok snap →
      (snap.phaseEventTallies ≠ ∅ → ∀ plan, x.streams[i]? = some plan →
        ∀ k ∈ plan.keys, k ∈ x.received i) ∧
      ((∃ e ∈ order, e.2.status.isCascadeTerminal = true) → x.NoStalePause order)
  | _ => True

/-- What a run whose steps meet `cond` can reach. -/
inductive Reached (budget : PackageBudget) (cond : Mirror I → Event I → Prop) : Mirror I → Prop
  | start : Reached budget cond start
  | step {x : Mirror I} (e : Event I) (hx : Reached budget cond x) (hallowed : x.Allowed e)
      (hcond : cond x e) : Reached budget cond (x.step budget e)

end Mirror

end DynRunner
