import DynRunner.Lib.HashMap
import Mathlib.Data.Finset.Sort
import Mathlib.Data.String.Basic

/-!
# The consensus about dead peers, on the side of the primary

Before a primary restarts secondaries that it has not heard from, it asks the others. In a first
round it names the suspected peers, and whoever hears from one of them answers with a
`ResolvedPeer`. In a second round it asks for a confirmation of the peers that are left, and
commits to the restart of those that every secondary it asked still suspects. The state machine
reads no clock: the caller passes the time and a count of the peers that it sees.
-/

namespace DynRunner

/-- What the side gate reads: the secondaries that are not suspected, and all known members. -/
structure MeshSnapshot where
  livePeerCount : ℕ
  totalKnownMembers : ℕ
  deriving DecidableEq, Repr

/-- One responder's view of the candidates of a `RestartRequest`. -/
structure ConfirmTally where
  stillSuspicious : Finset String
  resolvedSince : Finset String
  deriving DecidableEq

/-- The frames of the protocol. The sender is stamped when a frame is sent. -/
inductive ConsensusFrame
  | suspectPeers (consensusId primaryEpoch memberGen : ℕ) (suspected : Finset String)
  | restartRequest (consensusId primaryEpoch memberGen : ℕ) (candidates : Finset String)
  | resolvedPeer (consensusId : ℕ) (observerId resolved : String)
  | restartConfirm (consensusId : ℕ) (responderId : String)
      (stillSuspicious resolvedSince : Finset String)
  | peerProbe (consensusId : ℕ) (probedId : String)
  | peerProbeAck (consensusId : ℕ) (proberId : String)
  deriving DecidableEq

namespace Consensus

/-- The time for `ResolvedPeer` answers, in milliseconds. -/
def resolutionDeadline : ℕ := 15000

/-- The time for `RestartConfirm` answers, in milliseconds. -/
def confirmationDeadline : ℕ := 5000

/-- How often a `RestartRequest` is repeated in a round. -/
def confirmationMaxRetries : ℕ := 1

/-- `failover_quorum_threshold`. -/
def failoverQuorumThreshold (n : ℕ) : ℕ := (n + 1) / 2 + 1

/-- Why a round was given up. -/
inductive AbortReason
  | sideGate (livePeerCount totalKnownMembers : ℕ)
  | responderTimeout (nonResponders : Finset String)
  deriving DecidableEq

/-- The text of the reason. -/
def AbortReason.text : AbortReason → String
  | .sideGate live total =>
    "side-gate: live_peer_count=" ++ toString live ++ " < failover_quorum_threshold(" ++
      toString total ++ ") = " ++ toString (failoverQuorumThreshold total)
  | .responderTimeout nonResponders =>
    "responder timeout: non_responders=" ++ toString ((nonResponders.sort (· ≤ ·)).map String.quote)

/-- What a round carries from its start to its end. -/
structure Round where
  /-- The id of the round. -/
  consensusId : ℕ
  /-- The peers that are suspected. -/
  set : Finset String
  /-- The epoch of the primary that asks. -/
  primaryEpoch : ℕ
  /-- The generation of the members. -/
  memberGen : ℕ
  /-- The peers whose answers are expected. -/
  expectedResponders : Finset String
  deriving DecidableEq

end Consensus

open Consensus

/-- The state of the machine. The last three are left in the call that enters them. -/
inductive ConsensusState
  | idle
  | schedulingSuspect (set : Finset String)
  | broadcastSuspect (round : Round) (startedAt : ℕ)
  | collectingResolutions (round : Round) (deadline : ℕ) (resolved : Finset String)
  | broadcastRestart (round : Round) (retriesLeft : ℕ)
  | collectingConfirmations (round : Round) (receivedConfirms : HashMap String ConfirmTally)
      (deadline retriesLeft : ℕ)
  | restart (targets : Finset String)
  | dropSuspicion
  | abortRound (reason : AbortReason)

/-- What a poll tells its caller. -/
inductive ConsensusOutput
  | idle
  | emitFrame (frame : ConsensusFrame)
  | dropSuspicion
  | restart (targets : Finset String)
  | abort (reason : AbortReason)
  deriving DecidableEq

/-- `ConsensusFsm`, with the last round id that was minted. -/
structure ConsensusFsm where
  state : ConsensusState
  lastId : ℕ

namespace ConsensusFsm

/-- A fresh machine. -/
def new : ConsensusFsm := ⟨.idle, 0⟩

variable (fsm : ConsensusFsm)

/-- `set_scheduling_suspect`: a round that is open keeps its set. -/
def setSchedulingSuspect (set : Finset String) : ConsensusFsm :=
  match fsm.state with
  | .idle => if set = ∅ then fsm else { fsm with state := .schedulingSuspect set }
  | .schedulingSuspect _ =>
    { fsm with state := if set = ∅ then .idle else .schedulingSuspect set }
  | _ => fsm

/-- `clear_scheduling_suspect_if_present`. -/
def clearSchedulingSuspectIfPresent (peerId : String) : ConsensusFsm :=
  match fsm.state with
  | .schedulingSuspect set =>
    if peerId ∈ set then
      { fsm with
        state := if set.erase peerId = ∅ then .idle else .schedulingSuspect (set.erase peerId) }
    else fsm
  | _ => fsm

/-- `escalate`: the suspects become the set of a new round. -/
def escalate (now primaryEpoch memberGen : ℕ) (expectedResponders : Finset String) : ConsensusFsm :=
  match fsm.state with
  | .schedulingSuspect suspects =>
    if suspects = ∅ then { fsm with state := .idle }
    else
      { state := .broadcastSuspect
          ⟨fsm.lastId + 1, suspects, primaryEpoch, memberGen, expectedResponders⟩ now
        lastId := fsm.lastId + 1 }
  | _ => fsm

/-- `current_consensus_id`. -/
def currentConsensusId : Option ℕ :=
  match fsm.state with
  | .broadcastSuspect round _ | .collectingResolutions round _ _ | .broadcastRestart round _
  | .collectingConfirmations round _ _ _ => some round.consensusId
  | _ => none

/-- `in_flight_suspects`. -/
def inFlightSuspects : Finset String :=
  match fsm.state with
  | .schedulingSuspect set => set
  | .broadcastSuspect round _ | .collectingResolutions round _ _ | .broadcastRestart round _
  | .collectingConfirmations round _ _ _ => round.set
  | _ => ∅

/-- `apply_resolved`. -/
def applyResolved (frameConsensusId : ℕ) (_observerId resolvedPeer : String) : ConsensusFsm :=
  match fsm.state with
  | .collectingResolutions round deadline resolved =>
    if round.consensusId = frameConsensusId then
      if resolvedPeer ∈ round.set then
        { fsm with
          state := .collectingResolutions { round with set := round.set.erase resolvedPeer }
            deadline (insert resolvedPeer resolved) }
      else fsm
    else fsm
  | .collectingConfirmations round receivedConfirms deadline retriesLeft =>
    if round.consensusId = frameConsensusId then
      { fsm with
        state := .collectingConfirmations { round with set := round.set.erase resolvedPeer }
          receivedConfirms deadline retriesLeft }
    else fsm
  | .broadcastRestart round retriesLeft =>
    if round.consensusId = frameConsensusId then
      { fsm with
        state := .broadcastRestart { round with set := round.set.erase resolvedPeer } retriesLeft }
    else fsm
  | _ => fsm

/-- `apply_confirm`. -/
def applyConfirm (frameConsensusId : ℕ) (responderId : String)
    (stillSuspicious resolvedSince : Finset String) : ConsensusFsm :=
  match fsm.state with
  | .collectingConfirmations round receivedConfirms deadline retriesLeft =>
    if round.consensusId = frameConsensusId ∧ responderId ∈ round.expectedResponders then
      { fsm with
        state := .collectingConfirmations { round with set := round.set \ resolvedSince }
          (receivedConfirms.insert responderId ⟨stillSuspicious, resolvedSince⟩) deadline
          retriesLeft }
    else fsm
  | _ => fsm

/-- `finalize_terminal`: leave a terminal state. -/
def finalizeTerminal : ConsensusFsm × ConsensusOutput :=
  match fsm.state with
  | .restart targets => ({ fsm with state := .idle }, .restart targets)
  | .dropSuspicion => ({ fsm with state := .idle }, .dropSuspicion)
  | .abortRound reason => ({ fsm with state := .idle }, .abort reason)
  | _ => (fsm, .idle)

/-- The candidates that every responder still suspects and none has heard from. -/
def restartTargets (round : Round) (receivedConfirms : HashMap String ConfirmTally) :
    Finset String :=
  receivedConfirms.entries.foldl
    (fun targets e => (targets ∩ e.2.stillSuspicious) \ e.2.resolvedSince) round.set

/-- The side gate, and the `RestartRequest` behind it. -/
def pollRestart (round : Round) (retriesLeft now : ℕ) (mesh : MeshSnapshot) :
    ConsensusFsm × ConsensusOutput :=
  if mesh.livePeerCount < failoverQuorumThreshold mesh.totalKnownMembers then
    { fsm with
      state := .abortRound (.sideGate mesh.livePeerCount mesh.totalKnownMembers) }.finalizeTerminal
  else
    ({ fsm with
        state := .collectingConfirmations round ∅ (now + confirmationDeadline) retriesLeft },
      .emitFrame (.restartRequest round.consensusId round.primaryEpoch round.memberGen round.set))

/-- `poll`. -/
def poll (now : ℕ) (mesh : MeshSnapshot) : ConsensusFsm × ConsensusOutput :=
  match fsm.state with
  | .broadcastSuspect round startedAt =>
    ({ fsm with state := .collectingResolutions round (startedAt + resolutionDeadline) ∅ },
      .emitFrame (.suspectPeers round.consensusId round.primaryEpoch round.memberGen round.set))
  | .collectingResolutions round deadline _ =>
    if round.set = ∅ then { fsm with state := .dropSuspicion }.finalizeTerminal
    else if deadline ≤ now then fsm.pollRestart round confirmationMaxRetries now mesh
    else (fsm, .idle)
  | .broadcastRestart round retriesLeft => fsm.pollRestart round retriesLeft now mesh
  | .collectingConfirmations round receivedConfirms deadline retriesLeft =>
    if ∀ id ∈ round.expectedResponders, id ∈ receivedConfirms then
      let targets := restartTargets round receivedConfirms
      { fsm with
        state := if targets = ∅ then .dropSuspicion else .restart targets }.finalizeTerminal
    else if deadline ≤ now then
      if 0 < retriesLeft then
        ({ fsm with
            state := .collectingConfirmations round receivedConfirms (now + confirmationDeadline)
              (retriesLeft - 1) },
          .emitFrame
            (.restartRequest round.consensusId round.primaryEpoch round.memberGen round.set))
      else
        { fsm with
          state := .abortRound (.responderTimeout
            (round.expectedResponders.filter (· ∉ receivedConfirms))) }.finalizeTerminal
    else (fsm, .idle)
  | _ => (fsm, .idle)

end ConsensusFsm

end DynRunner
