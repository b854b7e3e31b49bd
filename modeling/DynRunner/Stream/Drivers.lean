import DynRunner.Stream.Plan

/-!
# Snapshot stream drivers

The two ends of a snapshot stream. The responder holds a plan for each stream it serves and
builds one package for each wake token. The requester tracks, for each responder, the stream
it asked for, the greatest cursor it has seen and whether the final package has come.
-/

namespace DynRunner

variable {I : Type}

/-- The role-typed address of a reply. -/
inductive Destination
  | secondary (id : String)
  | observer (id : String)
  deriving DecidableEq, Repr

/-- `role_destination`. -/
def roleDestination (id : String) (isObserver : Bool) : Destination :=
  if isObserver then .observer id else .secondary id

/-- The peer a reply goes to. -/
def Destination.peer : Destination → String
  | .secondary id | .observer id => id

/-- A `SnapshotStreamPackage` frame. -/
structure SnapshotStreamPackage (I : Type) [StreamCodec I] where
  senderId : String
  streamId : String
  seq : ℕ
  cursor : Option TaskHash
  payload : StreamCodec.Payload I
  done : Bool

/-- `MAX_ACTIVE_STREAMS`. -/
def maxActiveStreams : ℕ := 16

/-- `STREAM_IDLE_TTL`, in seconds. -/
def streamIdleTtl : ℕ := 120

/-- A stream the responder serves. -/
structure OutboundStream where
  /-- Who has asked. -/
  requester : String
  /-- Whether the requester only observes. -/
  requesterIsObserver : Bool
  /-- What is sent, and how far it has come. -/
  plan : SnapshotStreamPlan
  /-- The number of the next package. -/
  seq : ℕ
  /-- When the requester was last heard of. -/
  lastActivity : ℕ

/-- The responder: its streams, and the wake tokens that are waiting. -/
structure SnapshotStreamResponder where
  nodeId : String
  streams : HashMap String OutboundStream
  wake : List String

namespace SnapshotStreamResponder

/-- `SnapshotStreamResponder::new`. -/
def new (nodeId : String) : SnapshotStreamResponder := ⟨nodeId, ∅, []⟩

/-- `expire_idle`: drop the streams without recent activity. -/
def expireIdle (r : SnapshotStreamResponder) (now : ℕ) : SnapshotStreamResponder :=
  { r with streams := r.streams.retain fun _ s => decide (now - s.lastActivity < streamIdleTtl) }

/-- `accept_request`: open a plan, or reposition the one that is still alive. -/
def acceptRequest [DefaultHasher] (r : SnapshotStreamResponder) (state : ClusterState I) (now : ℕ)
    (requester : String) (requesterIsObserver : Bool) (streamId : String)
    (resumeAfter : Option TaskHash) (taskRanges : List ℕ) : SnapshotStreamResponder :=
  let r := r.expireIdle now
  match r.streams.lookup streamId with
  | some existing =>
    { r with
      streams := r.streams.insert streamId
        { existing with plan := existing.plan.reposition resumeAfter, lastActivity := now }
      wake := r.wake ++ [streamId] }
  | none =>
    if maxActiveStreams ≤ r.streams.keys.length then r
    else
      { r with
        streams := r.streams.insert streamId
          ⟨requester, requesterIsObserver, .new state resumeAfter taskRanges, 0, now⟩
        wake := r.wake ++ [streamId] }

/-- `next_wake`: take the next token. -/
def nextWake (r : SnapshotStreamResponder) : Option (String × SnapshotStreamResponder) :=
  match r.wake with
  | [] => none
  | streamId :: wake => some (streamId, { r with wake := wake })

/-- `abort_stream`: drop a stream whose package could not be sent. -/
def abortStream (r : SnapshotStreamResponder) (streamId : String) :
    SnapshotStreamResponder × Option (String × Bool) :=
  match r.streams.lookup streamId with
  | none => (r, none)
  | some s => ({ r with streams := r.streams.erase streamId },
      some (s.requester, s.requesterIsObserver))

/-- An expired stream is gone; the others are as they were. -/
theorem lookup_expireIdle (r : SnapshotStreamResponder) (now : ℕ) (streamId : String) :
    (r.expireIdle now).streams.lookup streamId = r.streams.lookup streamId ∨
      (r.expireIdle now).streams.lookup streamId = none := by
  rw [expireIdle, HashMap.lookup_retain]
  cases r.streams.lookup streamId with
  | none => exact .inl rfl
  | some =>
    rw [Option.filter_some]
    split
    · exact .inl rfl
    · exact .inr rfl

section

variable [DefaultHasher] {r r' : SnapshotStreamResponder} {state : ClusterState I} {now : ℕ}
  {requester streamId : String} {requesterIsObserver : Bool} {resumeAfter : Option TaskHash}
  {taskRanges : List ℕ} (hr : r.acceptRequest state now requester requesterIsObserver streamId
    resumeAfter taskRanges = r')
include hr

/-- The three outcomes of a request. -/
theorem acceptRequest_cases : r'.nodeId = r.nodeId ∧ ((∃ s, r.streams.lookup streamId = some s ∧
          (r.expireIdle now).streams.lookup streamId = some s ∧
          r'.streams = (r.expireIdle now).streams.insert streamId
            { s with plan := s.plan.reposition resumeAfter, lastActivity := now }) ∨
        ((r.expireIdle now).streams.lookup streamId = none ∧
          maxActiveStreams ≤ (r.expireIdle now).streams.keys.length ∧
          r'.streams = (r.expireIdle now).streams) ∨
        ((r.expireIdle now).streams.lookup streamId = none ∧
          (r.expireIdle now).streams.keys.length < maxActiveStreams ∧
          r'.streams = (r.expireIdle now).streams.insert streamId
            ⟨requester, requesterIsObserver, .new state resumeAfter taskRanges, 0, now⟩)) := by
  subst hr
  unfold acceptRequest
  dsimp only
  cases hlookup : (r.expireIdle now).streams.lookup streamId with
  | some s =>
    refine ⟨rfl, .inl ⟨s, ?_, rfl, rfl⟩⟩
    rcases lookup_expireIdle r now streamId with hsame | hnone
    · exact hsame.symm.trans hlookup
    · cases hnone.symm.trans hlookup
  | none =>
    dsimp only
    split_ifs with hfull
    · exact ⟨rfl, .inr (.inl ⟨rfl, hfull, rfl⟩)⟩
    · exact ⟨rfl, .inr (.inr ⟨rfl, Nat.lt_of_not_le hfull, rfl⟩)⟩

/-- A request leaves the other streams as they were, or finds them expired. -/
theorem lookup_acceptRequest_of_ne {other : String} (hne : other ≠ streamId) :
    r'.streams.lookup other = r.streams.lookup other ∨ r'.streams.lookup other = none := by
  have hexpire := lookup_expireIdle r now other
  obtain ⟨_, ⟨s, _, _, hstreams⟩ | ⟨_, _, hstreams⟩ | ⟨_, _, hstreams⟩⟩ := acceptRequest_cases hr
  · rwa [hstreams, HashMap.lookup_insert_eq, if_neg hne]
  · rwa [hstreams]
  · rwa [hstreams, HashMap.lookup_insert_eq, if_neg hne]

end

variable [RecordCodec I] [StreamCodec I]

/-- `emit_next`: build the next package of a woken stream. A stream that is complete or fails
to encode is dropped. -/
def emitNext (budget : PackageBudget) (r : SnapshotStreamResponder) (streamId : String)
    (state : ClusterState I) (now : ℕ) :
    SnapshotStreamResponder × Option (Destination × SnapshotStreamPackage I) :=
  match r.streams.lookup streamId with
  | none => (r, none)
  | some stream =>
    match stream.plan.nextPackage budget state with
    | (_, none) => ({ r with streams := r.streams.erase streamId }, none)
    | (_, some (.error _)) => ({ r with streams := r.streams.erase streamId }, none)
    | (plan, some (.ok built)) =>
      let frame : SnapshotStreamPackage I :=
        ⟨r.nodeId, streamId, stream.seq, built.cursor, built.payload, built.done⟩
      let dst := roleDestination stream.requester stream.requesterIsObserver
      if built.done then ({ r with streams := r.streams.erase streamId }, some (dst, frame))
      else
        ({ r with
          streams := r.streams.insert streamId
            { stream with plan := plan, seq := stream.seq + 1, lastActivity := now }
          wake := r.wake ++ [streamId] }, some (dst, frame))

/-! ## What the responder does to a stream -/

/-- The outcomes of a wake token: no package, or one that is built from the plan. -/
theorem emitNext_cases (budget : PackageBudget) (r : SnapshotStreamResponder) (streamId : String)
    (state : ClusterState I) (now : ℕ) :
    let out := r.emitNext budget streamId state now
    out.1.nodeId = r.nodeId ∧
      ((out.2 = none ∧ ∀ id, out.1.streams.lookup id = r.streams.lookup id ∨
          out.1.streams.lookup id = none) ∨
        ∃ s plan built, r.streams.lookup streamId = some s ∧
          SnapshotStreamPlan.Built state s.plan built plan ∧
          out.2 = some (roleDestination s.requester s.requesterIsObserver,
            ⟨r.nodeId, streamId, s.seq, built.cursor, built.payload, built.done⟩) ∧
          (∀ id ≠ streamId, out.1.streams.lookup id = r.streams.lookup id) ∧
          (out.1.streams.lookup streamId = none ∨ out.1.streams.lookup streamId =
            some { s with plan := plan, seq := s.seq + 1, lastActivity := now })) := by
  intro out
  simp only [out, emitNext]
  cases r.streams.lookup streamId with
  | none => exact ⟨rfl, .inl ⟨rfl, fun _ => .inl rfl⟩⟩
  | some s =>
    have herased (id : String) : (r.streams.erase streamId).lookup id = r.streams.lookup id ∨
        (r.streams.erase streamId).lookup id = none := by
      rw [HashMap.lookup_erase_eq]
      split
      · exact .inr rfl
      · exact .inl rfl
    dsimp only
    split
    · exact ⟨rfl, .inl ⟨rfl, herased⟩⟩
    · exact ⟨rfl, .inl ⟨rfl, herased⟩⟩
    · rename_i plan built hnext
      have hbuilt := SnapshotStreamPlan.nextPackage_built hnext
      cases hdone : built.done with
      | true =>
        exact ⟨rfl, .inr ⟨s, plan, built, rfl, hbuilt, by rw [hdone]; rfl,
          fun _ => AList.lookup_erase_ne, .inl (AList.lookup_erase _ _)⟩⟩
      | false =>
        exact ⟨rfl, .inr ⟨s, plan, built, rfl, hbuilt, by rw [hdone]; rfl,
          fun _ => AList.lookup_insert_ne, .inr (AList.lookup_insert _)⟩⟩

/-- Aborting concerns one stream. -/
theorem lookup_abortStream {r : SnapshotStreamResponder} {aborted streamId : String} :
    (r.abortStream aborted).1.streams.lookup streamId =
      if streamId = aborted then none else r.streams.lookup streamId := by
  unfold abortStream
  cases hlookup : r.streams.lookup aborted with
  | none =>
    by_cases h : streamId = aborted
    · rw [if_pos h, h]
      exact hlookup
    · rw [if_neg h]
  | some => exact HashMap.lookup_erase_eq

end SnapshotStreamResponder

/-- What the requester knows of one responder's stream. -/
structure InboundProgress where
  /-- The stream. -/
  streamId : String
  /-- How far it has come. -/
  cursor : Option TaskHash
  /-- Whether its last package has arrived. -/
  done : Bool
  /-- How many packages have arrived. -/
  received : ℕ
  /-- When the last one did. -/
  lastProgress : ℕ
  deriving DecidableEq, Repr

/-- The requester's progress by responder, and the counter of the stream ids it mints. -/
structure InboundSnapshotStreams where
  nodeId : String
  mint : ℕ
  byResponder : HashMap String InboundProgress

namespace InboundSnapshotStreams

/-- `InboundSnapshotStreams::new`. -/
def new (nodeId : String) : InboundSnapshotStreams := ⟨nodeId, 0, ∅⟩

/-- The id of a minted stream. -/
def mintedId (nodeId : String) (mint : ℕ) : String := nodeId ++ "/" ++ toString mint

/-- `request_params`: resume the incomplete stream of a responder, or mint a new one. -/
def requestParams (t : InboundSnapshotStreams) (responder : String) (now : ℕ) :
    InboundSnapshotStreams × String × Option TaskHash :=
  let fresh :=
    let streamId := mintedId t.nodeId t.mint
    ({ t with
      mint := t.mint + 1
      byResponder := t.byResponder.insert responder ⟨streamId, none, false, 0, now⟩ },
      streamId, none)
  match t.byResponder.lookup responder with
  | some p => if p.done then fresh else (t, p.streamId, p.cursor)
  | none => fresh

/-- Record the cursor and the done mark of a package. -/
def InboundProgress.note (p : InboundProgress) (cursor : Option TaskHash) (done : Bool)
    (now : ℕ) : InboundProgress :=
  { p with
    cursor := match cursor, p.cursor with
      | some c, some prev => if prev < c then some c else some prev
      | some c, none => some c
      | none, prev => prev
    done := p.done || done
    received := p.received + 1
    lastProgress := now }

/-- `note_package`: record a package of the tracked stream; others carry no progress. -/
def notePackage (t : InboundSnapshotStreams) (responder streamId : String)
    (cursor : Option TaskHash) (done : Bool) (now : ℕ) : InboundSnapshotStreams :=
  match t.byResponder.lookup responder with
  | some p =>
    if p.streamId = streamId then
      { t with
        byResponder := t.byResponder.insert responder (InboundProgress.note p cursor done now) }
    else t
  | none => t

/-- The two outcomes of `request_params`. -/
theorem requestParams_cases {t : InboundSnapshotStreams} {responder : String} {now : ℕ} :
    (∃ p, t.byResponder.lookup responder = some p ∧
        t.requestParams responder now = (t, p.streamId, p.cursor)) ∨
      t.requestParams responder now = ({ t with
        mint := t.mint + 1
        byResponder := t.byResponder.insert responder
          ⟨mintedId t.nodeId t.mint, none, false, 0, now⟩ }, mintedId t.nodeId t.mint, none) := by
  unfold requestParams
  cases t.byResponder.lookup responder with
  | none => exact .inr rfl
  | some p =>
    cases hdone : p.done with
    | true => exact .inr (by simp [hdone])
    | false => exact .inl ⟨p, rfl, by simp [hdone]⟩

/-- A package moves the progress of its own responder and stream only. -/
theorem notePackage_cases (t : InboundSnapshotStreams) (responder streamId : String)
    (cursor : Option TaskHash) (done : Bool) (now : ℕ) :
    (∃ p, t.byResponder.lookup responder = some p ∧ p.streamId = streamId ∧
        t.notePackage responder streamId cursor done now = { t with
          byResponder := t.byResponder.insert responder
            (InboundProgress.note p cursor done now) }) ∨
      ((∀ p, t.byResponder.lookup responder = some p → p.streamId ≠ streamId) ∧
        t.notePackage responder streamId cursor done now = t) := by
  unfold notePackage
  cases hlookup : t.byResponder.lookup responder with
  | none => exact .inr ⟨fun _ h => (Option.some_ne_none _ h.symm).elim, rfl⟩
  | some p =>
    by_cases hid : p.streamId = streamId
    · exact .inl ⟨p, rfl, hid, if_pos hid⟩
    · refine .inr ⟨?_, if_neg hid⟩
      rintro _ ⟨⟩
      exact hid

/-- The numbers that a node mints give different stream ids. -/
theorem mintedId_injective {nodeId : String} : Function.Injective (mintedId nodeId) := by
  intro m n h
  have hdigits : Nat.toDigits 10 m = Nat.toDigits 10 n :=
    String.ofList_injective ((String.append_right_inj _).mp h)
  rw [← Nat.ofDigitChars_ten_toDigits (n := m), hdigits, Nat.ofDigitChars_ten_toDigits]

end InboundSnapshotStreams

end DynRunner
