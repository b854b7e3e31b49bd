import DynRunner.Consensus.Primary

/-!
# The consensus about dead peers, on the side of a secondary

A secondary that hears of suspected peers dials each of them every five seconds, and tells the
primary about every one that answers. When the primary asks for a confirmation, the secondary names
the candidates that have answered since, and confirms the others. The machine keeps the highest
epoch of a primary that it has seen, drops the frames of older primaries, and forgets its round at
the first frame of a newer one. The frames of one call are a set: no receiver reads their order.
-/

namespace DynRunner

namespace Consensus

/-- The time between two probes of a suspect, in milliseconds, before the jitter. -/
def probeBasePeriod : ℕ := 5000

/-- How long a secondary goes on probing after it has confirmed, in milliseconds. -/
def awaitingRoundEndTimeout : ℕ := 60000

/-- The round of a secondary: whom it probes and when next, and who has answered. -/
structure ProbeRound where
  consensusId : ℕ
  primaryEpoch : ℕ
  memberGen : ℕ
  suspects : Finset String
  nextFire : String → ℕ
  resolved : Finset String

end Consensus

open Consensus

/-- The state of the machine. -/
inductive SecondaryConsensusState
  | idle
  | probingFor (round : ProbeRound)
  | awaitingRoundEnd (round : ProbeRound) (deadline : ℕ)

/-- `SecondaryConsensusFsm`. -/
structure SecondaryConsensusFsm where
  state : SecondaryConsensusState
  selfId : String
  currentKnownPrimaryEpoch : ℕ

namespace SecondaryConsensusFsm

/-- A fresh machine. -/
def new (selfId : String) : SecondaryConsensusFsm := ⟨.idle, selfId, 0⟩

variable (fsm : SecondaryConsensusFsm)

/-- `observe_primary_epoch`. -/
def observePrimaryEpoch (epoch : ℕ) : SecondaryConsensusFsm :=
  if fsm.currentKnownPrimaryEpoch < epoch then
    { fsm with currentKnownPrimaryEpoch := epoch, state := .idle }
  else fsm

/-- When a suspect that is probed now is probed next. A jitter below zero that reaches back behind
the clock is dropped. -/
def nextProbe (now : ℕ) (jitterMs : ℤ) : ℕ :=
  if 0 ≤ jitterMs then now + probeBasePeriod + jitterMs.toNat
  else if (-jitterMs).toNat ≤ now + probeBasePeriod then
    now + probeBasePeriod - (-jitterMs).toNat
  else now + probeBasePeriod

/-- The probes of a round that are due, and the round with their next times. -/
def fireProbes (round : ProbeRound) (now : ℕ) (jitter : String → ℤ) :
    ProbeRound × Finset ConsensusFrame :=
  let due := round.suspects.filter (round.nextFire · ≤ now)
  ({ round with
      nextFire := fun id => if id ∈ due then nextProbe now (jitter id) else round.nextFire id },
    due.image (.peerProbe round.consensusId))

/-- `poll`. The jitter is what the source draws for each suspect. -/
def poll (now : ℕ) (jitter : String → ℤ) : SecondaryConsensusFsm × Finset ConsensusFrame :=
  match fsm.state with
  | .idle => (fsm, ∅)
  | .probingFor round =>
    ({ fsm with state := .probingFor (fireProbes round now jitter).1 },
      (fireProbes round now jitter).2)
  | .awaitingRoundEnd round deadline =>
    if deadline ≤ now then ({ fsm with state := .idle }, ∅)
    else
      ({ fsm with state := .awaitingRoundEnd (fireProbes round now jitter).1 deadline },
        (fireProbes round now jitter).2)

/-- `apply_suspect_peers`. -/
def applySuspectPeers (consensusId primaryEpoch memberGen : ℕ)
    (suspected : Finset String) (now : ℕ) (jitter : String → ℤ) :
    SecondaryConsensusFsm × Finset ConsensusFrame :=
  if primaryEpoch < fsm.currentKnownPrimaryEpoch then (fsm, ∅)
  else
    let fsm := fsm.observePrimaryEpoch primaryEpoch
    let suspects := suspected.erase fsm.selfId
    if suspects = ∅ then (fsm, ∅)
    else
      { fsm with
        state := .probingFor
          ⟨consensusId, primaryEpoch, memberGen, suspects, fun _ => now, ∅⟩ }.poll now jitter

/-- The evidence of the round that is open: the suspects with their times, and the resolved. -/
def evidence : Option (Finset String × (String → ℕ) × Finset String) :=
  match fsm.state with
  | .idle => none
  | .probingFor round | .awaitingRoundEnd round _ =>
    some (round.suspects, round.nextFire, round.resolved)

/-- `apply_restart_request`. Without a round everything is confirmed. -/
def applyRestartRequest (consensusId primaryEpoch memberGen : ℕ)
    (candidates : Finset String) (now : ℕ) : SecondaryConsensusFsm × Finset ConsensusFrame :=
  if primaryEpoch < fsm.currentKnownPrimaryEpoch then (fsm, ∅)
  else
    let fsm := fsm.observePrimaryEpoch primaryEpoch
    let asked := candidates.erase fsm.selfId
    let (suspects, nextFire, resolved) := fsm.evidence.getD (asked, fun _ => now, ∅)
    let still := asked \ resolved
    -- A candidate that was not probed before is due at once.
    let round : ProbeRound :=
      { consensusId, primaryEpoch, memberGen
        suspects := (suspects ∩ candidates) \ resolved ∪ still
        nextFire := fun id => if id ∈ suspects then nextFire id else now
        resolved := resolved ∩ candidates }
    ({ fsm with state := .awaitingRoundEnd round (now + awaitingRoundEndTimeout) },
      {.restartConfirm consensusId fsm.selfId still (asked ∩ resolved)})

/-- The suspect answered: it moves from the suspects to the resolved. -/
def resolve (round : ProbeRound) (sender : String) : ProbeRound :=
  { round with
    suspects := round.suspects.erase sender
    resolved := insert sender round.resolved }

/-- `apply_probe_ack`. -/
def applyProbeAck (frameSenderId : String) (frameConsensusId : ℕ) :
    SecondaryConsensusFsm × Finset ConsensusFrame :=
  match fsm.state with
  | .idle => (fsm, ∅)
  | .probingFor round =>
    if round.consensusId = frameConsensusId ∧ frameSenderId ∉ round.resolved ∧
        frameSenderId ∈ round.suspects then
      ({ fsm with state := .probingFor (resolve round frameSenderId) },
        {.resolvedPeer round.consensusId fsm.selfId frameSenderId})
    else (fsm, ∅)
  | .awaitingRoundEnd round deadline =>
    if round.consensusId = frameConsensusId ∧ frameSenderId ∉ round.resolved ∧
        frameSenderId ∈ round.suspects then
      ({ fsm with state := .awaitingRoundEnd (resolve round frameSenderId) deadline },
        {.resolvedPeer round.consensusId fsm.selfId frameSenderId})
    else (fsm, ∅)

/-- `apply_probe_request`: whoever is probed answers, whatever its own state. -/
def applyProbeRequest (frameSenderId : String)
    (frameConsensusId : ℕ) (frameProbedId : String) : Finset ConsensusFrame :=
  if frameProbedId = fsm.selfId then {.peerProbeAck frameConsensusId frameSenderId} else ∅

/-- The consensus arms of the router. The other frames are for a primary. -/
def receive (senderId : String) (frame : ConsensusFrame) (now : ℕ)
    (jitter : String → ℤ) : SecondaryConsensusFsm × Finset ConsensusFrame :=
  match frame with
  | .suspectPeers consensusId primaryEpoch memberGen suspected =>
    (fsm.observePrimaryEpoch primaryEpoch).applySuspectPeers consensusId primaryEpoch memberGen
      suspected now jitter
  | .restartRequest consensusId primaryEpoch memberGen candidates =>
    (fsm.observePrimaryEpoch primaryEpoch).applyRestartRequest consensusId primaryEpoch memberGen
      candidates now
  | .peerProbe consensusId probedId =>
    (fsm, fsm.applyProbeRequest senderId consensusId probedId)
  | .peerProbeAck consensusId _ => fsm.applyProbeAck senderId consensusId
  | .resolvedPeer _ _ _ | .restartConfirm _ _ _ _ => (fsm, ∅)

section Lemmas

variable (fsm : SecondaryConsensusFsm)

@[simp] theorem observePrimaryEpoch_selfId {epoch : ℕ} :
    (fsm.observePrimaryEpoch epoch).selfId = fsm.selfId := by
  unfold observePrimaryEpoch
  split_ifs <;> rfl

@[simp] theorem poll_selfId (now : ℕ) (jitter : String → ℤ) :
    (fsm.poll now jitter).1.selfId = fsm.selfId := by
  unfold poll
  split
  · rfl
  · rfl
  · split_ifs <;> rfl

variable {now : ℕ} {jitter : String → ℤ} {frame : ConsensusFrame}

/-- A poll sends probes only. -/
theorem mem_poll (h : frame ∈ (fsm.poll now jitter).2) :
    ∃ consensusId probedId, frame = .peerProbe consensusId probedId := by
  have hfire : ∀ round : ProbeRound, frame ∈ (fireProbes round now jitter).2 →
      ∃ consensusId probedId, frame = .peerProbe consensusId probedId := by
    intro round hmem
    obtain ⟨id, -, rfl⟩ := Finset.mem_image.mp hmem
    exact ⟨_, id, rfl⟩
  unfold poll at h
  split at h
  · simp at h
  · exact hfire _ h
  · split_ifs at h
    · simp at h
    · exact hfire _ h

@[simp] theorem receive_selfId (senderId : String) (frame : ConsensusFrame) (now : ℕ)
    (jitter : String → ℤ) : (fsm.receive senderId frame now jitter).1.selfId = fsm.selfId := by
  cases frame with
  | suspectPeers =>
    simp only [receive, applySuspectPeers]
    split_ifs <;> simp
  | restartRequest =>
    simp only [receive, applyRestartRequest]
    split_ifs <;> simp
  | peerProbeAck =>
    simp only [receive, applyProbeAck]
    split
    · rfl
    all_goals split_ifs <;> rfl
  | _ => rfl

/-- What a secondary sends when a frame arrives: a confirmation answers a request, under the id of
the request and in the secondary's own name, and there are no requests. -/
theorem mem_receive {senderId : String}
    {reply : ConsensusFrame} (h : reply ∈ (fsm.receive senderId frame now jitter).2) :
    (∃ consensusId primaryEpoch memberGen candidates stillSuspicious resolvedSince,
        frame = .restartRequest consensusId primaryEpoch memberGen candidates ∧
        reply = .restartConfirm consensusId fsm.selfId stillSuspicious resolvedSince) ∨
      (∃ consensusId probedId, reply = .peerProbe consensusId probedId) ∨
      (∃ consensusId proberId, reply = .peerProbeAck consensusId proberId) ∨
      ∃ consensusId resolved, reply = .resolvedPeer consensusId fsm.selfId resolved := by
  cases frame with
  | suspectPeers =>
    simp only [receive, applySuspectPeers] at h
    split_ifs at h
    · simp at h
    · simp at h
    · exact .inr (.inl (mem_poll _ h))
  | restartRequest =>
    simp only [receive, applyRestartRequest] at h
    split_ifs at h
    · simp at h
    · rw [Finset.mem_singleton, observePrimaryEpoch_selfId, observePrimaryEpoch_selfId] at h
      exact .inl ⟨_, _, _, _, _, _, rfl, h⟩
  | peerProbe =>
    simp only [receive, applyProbeRequest] at h
    split_ifs at h
    · exact .inr (.inr (.inl ⟨_, _, Finset.mem_singleton.mp h⟩))
    · simp at h
  | peerProbeAck =>
    simp only [receive, applyProbeAck] at h
    split at h
    · simp at h
    all_goals
      split_ifs at h
      · exact .inr (.inr (.inr ⟨_, _, Finset.mem_singleton.mp h⟩))
      · simp at h
  | resolvedPeer => simp [receive] at h
  | restartConfirm => simp [receive] at h

end Lemmas

end SecondaryConsensusFsm

end DynRunner
