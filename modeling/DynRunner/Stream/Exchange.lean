import DynRunner.ClusterState.Consistency
import DynRunner.Stream.Drivers

/-!
# Pulling a snapshot stream

A requester pulls snapshot streams from a responder whose ledger keeps changing. Packages travel
in order and may be lost, and a package that does not decode counts as lost. Requests may arrive
late, more than once or never. The responder drops streams when a send fails and when they idle,
and serves other nodes meanwhile.

Two things are recorded beside the state of the code: which keys have been captured for a stream
and are still asked for, and which keys have arrived. A package remembers the captured keys of
the moment it was emitted.
-/

namespace DynRunner

variable {I : Type}

/-- A `RequestSnapshotStream` of the requester. -/
structure StreamRequest where
  streamId : String
  resumeAfter : Option TaskHash
  taskRanges : List ℕ
  deriving DecidableEq, Repr

/-- A package on its way, with the keys captured for its stream when it was emitted. -/
structure SentPackage (I : Type) [StreamCodec I] where
  frame : SnapshotStreamPackage I
  captured : List TaskHash

/-- A requester and a responder, and what travels between them. -/
structure Exchange (I : Type) [StreamCodec I] where
  /-- The ledger of the responder. -/
  ledger : ClusterState I
  /-- The streams that the responder serves. -/
  responder : SnapshotStreamResponder
  /-- The streams that the requester follows. -/
  tracker : InboundSnapshotStreams
  /-- Whether the requester only observes. -/
  requesterIsObserver : Bool
  /-- The requests that may still arrive. -/
  requests : List StreamRequest
  /-- The packages that may still arrive. -/
  packages : List (SentPackage I)
  /-- The keys that a stream has promised. -/
  captured : String → List TaskHash
  /-- The keys that have arrived on a stream. -/
  received : String → List TaskHash

/-- How a node's own ledger moves while it serves streams. -/
inductive LedgerMove [DefaultHasher] [RecordCodec I] : ClusterState I → ClusterState I → Prop
  | steps {s t : ClusterState I} (h : ClusterState.LedgerSteps s t) : LedgerMove s t
  | attachSpillSegment (s : ClusterState I) : LedgerMove s s.attachSpillSegment
  | commitSpill (s : ClusterState I) (receipt : List (WrittenRecord I)) :
      LedgerMove s (s.commitSpill receipt)
  | installSettledBase {s : ClusterState I} {base : SettledStore I}
      (hlegal : s.InstallLegal base) : LedgerMove s (s.installSettledBase base)

/-- What can happen. -/
inductive Exchange.Event (I : Type)
  | request (now : ℕ) (taskRanges : List ℕ)
  | accept (now : ℕ) (request : StreamRequest)
  | acceptOther (now : ℕ) (requester : String) (isObserver : Bool) (request : StreamRequest)
  | emit (now : ℕ)
  | abort (streamId : String)
  | deliver (now : ℕ)
  | lose (i : ℕ)
  | requestElsewhere (responder : String) (now : ℕ)
  | noteElsewhere (responder streamId : String) (cursor : Option TaskHash) (done : Bool) (now : ℕ)
  | move (ledger : ClusterState I)

namespace Exchange

section Model

variable [DefaultHasher] [RecordCodec I] [StreamCodec I]

/-- Nothing has been asked for. -/
def start (ledger : ClusterState I) (responderId requesterId : String)
    (requesterIsObserver : Bool) : Exchange I where
  ledger := ledger
  responder := .new responderId
  tracker := .new requesterId
  requesterIsObserver := requesterIsObserver
  requests := []
  packages := []
  captured := fun _ => []
  received := fun _ => []

/-- The requester asks for a stream, or asks again. -/
def request (x : Exchange I) (now : ℕ) (taskRanges : List ℕ) : Exchange I :=
  let (tracker, streamId, resumeAfter) := x.tracker.requestParams x.responder.nodeId now
  { x with tracker := tracker, requests := ⟨streamId, resumeAfter, taskRanges⟩ :: x.requests }

/-- Whether a request opens a plan. -/
def opens (x : Exchange I) (now : ℕ) (streamId : String) : Bool :=
  let r := x.responder.expireIdle now
  (r.streams.lookup streamId).isNone && decide (r.streams.keys.length < maxActiveStreams)

/-- A request reaches the responder. When it opens a plan, the keys of the plan are captured,
and of the earlier ones those that are still asked for stay captured. -/
def accept (x : Exchange I) (now : ℕ) (q : StreamRequest) : Exchange I :=
  { x with
    responder := x.responder.acceptRequest x.ledger now x.tracker.nodeId x.requesterIsObserver
      q.streamId q.resumeAfter q.taskRanges
    captured := if x.opens now q.streamId then
      Function.update x.captured q.streamId
        ((x.captured q.streamId).filter (fun k => SnapshotStreamPlan.inRange q.taskRanges k) ++
          (SnapshotStreamPlan.new x.ledger q.resumeAfter q.taskRanges).keys)
      else x.captured }

/-- The request of another node reaches the responder. -/
def acceptOther (x : Exchange I) (now : ℕ) (requester : String) (isObserver : Bool)
    (q : StreamRequest) : Exchange I :=
  { x with
    responder := x.responder.acceptRequest x.ledger now requester isObserver q.streamId
      q.resumeAfter q.taskRanges }

/-- The responder takes a wake token and emits the next package of the stream. -/
def emit (budget : PackageBudget) (x : Exchange I) (now : ℕ) : Exchange I :=
  match x.responder.nextWake with
  | none => x
  | some (streamId, responder) =>
    match responder.emitNext budget streamId x.ledger now with
    | (responder, none) => { x with responder := responder }
    | (responder, some (dst, frame)) =>
      { x with
        responder := responder
        packages := if dst.peer = x.tracker.nodeId then
          x.packages ++ [⟨frame, x.captured streamId⟩] else x.packages }

/-- The responder drops a stream whose package could not be sent. -/
def abort (x : Exchange I) (streamId : String) : Exchange I :=
  { x with responder := (x.responder.abortStream streamId).1 }

/-- The oldest package reaches the requester. -/
def deliver (x : Exchange I) (now : ℕ) : Exchange I :=
  match x.packages with
  | [] => x
  | p :: packages =>
    match StreamCodec.decodeStreamPayload p.frame.payload with
    | .error _ => { x with packages := packages }
    | .ok snap =>
      { x with
        packages := packages
        tracker := x.tracker.notePackage p.frame.senderId p.frame.streamId p.frame.cursor
          p.frame.done now
        received := Function.update x.received p.frame.streamId
          (x.received p.frame.streamId ++ snap.tasks.keys) }

/-- A package is lost. -/
def lose (x : Exchange I) (i : ℕ) : Exchange I := { x with packages := x.packages.eraseIdx i }

/-- One step of the exchange. -/
def step (budget : PackageBudget) (x : Exchange I) : Event I → Exchange I
  | .request now taskRanges => x.request now taskRanges
  | .accept now q => x.accept now q
  | .acceptOther now requester isObserver q => x.acceptOther now requester isObserver q
  | .emit now => x.emit budget now
  | .abort streamId => x.abort streamId
  | .deliver now => x.deliver now
  | .lose i => x.lose i
  | .requestElsewhere responder now =>
    { x with tracker := (x.tracker.requestParams responder now).1 }
  | .noteElsewhere responder streamId cursor done now =>
    { x with tracker := x.tracker.notePackage responder streamId cursor done now }
  | .move ledger => { x with ledger := ledger }

/-- What the surroundings allow. Only the requester's own requests carry ids that it mints. -/
def Allowed (x : Exchange I) : Event I → Prop
  | .accept _ q => q ∈ x.requests
  | .acceptOther _ _ _ q => ∀ n, q.streamId ≠ InboundSnapshotStreams.mintedId x.tracker.nodeId n
  | .requestElsewhere responder _ | .noteElsewhere responder _ _ _ _ =>
    responder ≠ x.responder.nodeId
  | .move ledger => LedgerMove x.ledger ledger
  | _ => True

/-- **The steps that leave no gap.** A package with keys is lost only when nothing of its stream
follows it: no later package is under way, and the responder has dropped the stream. A plan is
opened only when nothing of its stream is under way, and for the cursor that the requester
holds. -/
def Harmless (x : Exchange I) : Event I → Prop
  | .lose i => ∀ p, x.packages[i]? = some p → p.frame.cursor = none ∨
      (∀ p' ∈ x.packages.drop (i + 1), p'.frame.streamId ≠ p.frame.streamId) ∧
        x.responder.streams.lookup p.frame.streamId = none
  | .accept now q => x.opens now q.streamId = true →
      (∀ p ∈ x.packages, p.frame.streamId ≠ q.streamId) ∧
        ∀ t, x.tracker.byResponder.lookup x.responder.nodeId = some t → t.streamId = q.streamId →
          t.cursor = q.resumeAfter
  | _ => True

/-- The exchanges that a run whose steps meet `cond` can reach. -/
inductive Reached (budget : PackageBudget) (cond : Exchange I → Event I → Prop) : Exchange I → Prop
  | start (ledger : ClusterState I) (responderId requesterId : String)
      (requesterIsObserver : Bool) :
      Reached budget cond (start ledger responderId requesterId requesterIsObserver)
  | step {x : Exchange I} (e : Event I) (hx : Reached budget cond x) (hallowed : x.Allowed e)
      (hcond : cond x e) : Reached budget cond (x.step budget e)

end Model

end Exchange

end DynRunner
