import DynRunner.Lib.HashMap
import Mathlib.Data.Finset.Max
import Mathlib.Data.String.Basic

/-!
# The failover election of a secondary

A secondary that finds its primary dead asks its peers whether they agree. When enough of them do,
the peer with the smallest id becomes the candidate and asks for confirmations, the others wait for
it, and a candidate with enough confirmations becomes the primary. The quorum is counted over the
peers that are alive at the moment. What the election reads of its node, the clocks and the views
of the mesh, is a record that the caller passes in. Times and ages are in milliseconds.
-/

namespace DynRunner

/-- `ElectionState`. -/
inductive ElectionState
  | normal
  | suspecting (since : ℕ) (responses : HashMap String (Option ℕ))
  | candidate (round : ℕ) (confirms : Finset String) (started : ℕ)
  | voting (round : ℕ) (candidate : String)
  | promoted

/-- The frames of an election. -/
inductive ElectionFrame
  | timeoutQuery (queryNodeId : String)
  | timeoutResponse (queryNodeId : String) (lastKeepalive : Option ℕ)
  | promotionVote (candidateId : String) (voteRound : ℕ)
  | promotionConfirm (newPrimaryId : String) (voteRound : ℕ)
  deriving DecidableEq

/-- What the election reads of its node. -/
structure ElectionView where
  secondaryId : String
  keepaliveInterval : ℕ
  keepaliveMissThreshold : ℕ
  primarySilenceBackstop : ℕ
  peerKeepalives : HashMap String ℕ
  primaryLastSeen : Option ℕ
  /-- `should_arm_failover` of the link to the primary. -/
  linkDead : Bool
  currentPrimary : Option String
  /-- The peers with a direct connection. -/
  members : Finset String
  /-- The peers that can be reached, by a relay too. -/
  routable : Finset String
  beaconLastSeen : HashMap String ℕ
  /-- The earliest time from which the node's own clock ticks can be trusted. -/
  trustworthySince : Option ℕ
  observers : Finset String
  meshDegraded : Bool
  deposedPrimary : Bool
  runTerminalLatched : Bool
  lastPrimaryChangeAt : Option ℕ

/-- What a tick does: the next state, the frames to broadcast, whether this node has just become
the primary, and why the node must exit. -/
structure ElectionTickActions where
  state : ElectionState
  broadcast : List ElectionFrame
  promoted : Bool
  fatalExit : Option String

namespace Election

/-- `ELECTION_SETTLE_KEEPALIVE_MULTIPLE`. -/
def settleKeepaliveMultiple : ℕ := 3

/-- `failover_quorum`. -/
def failoverQuorum (livePeerCount : ℕ) : ℕ := (livePeerCount + 1) / 2 + 1

/-- `next_round`. -/
def nextRound : ElectionState → ℕ
  | .voting round _ | .candidate round _ _ => round + 1
  | _ => 1

end Election

open Election

namespace ElectionView

variable (v : ElectionView)

/-- The silence after which a node counts as dead. -/
def deadline : ℕ := v.keepaliveInterval * v.keepaliveMissThreshold

/-- `trustworthy_anchor`. -/
def trustworthyAnchor (anchor : ℕ) : ℕ := v.trustworthySince.elim anchor (max anchor)

/-- `node_beacon_fresh`. -/
def nodeBeaconFresh (now : ℕ) (nodeId : String) : Bool :=
  match v.beaconLastSeen.lookup nodeId with
  | some t => now - v.trustworthyAnchor t ≤ v.deadline
  | none => false

/-- `is_mesh_member`. -/
def isMeshMember (id : String) : Bool := id ∈ v.members

/-- `is_mesh_routable`. -/
def isMeshRoutable (id : String) : Bool := id ∈ v.routable

/-- `primary_departed_membership`. -/
def primaryDepartedMembership : Bool :=
  v.primaryLastSeen.isSome &&
    match v.currentPrimary with
    | some id => id ≠ v.secondaryId && !v.isMeshRoutable id
    | none => false

/-- `peer_death_observed`. -/
def peerDeathObserved (now : ℕ) (id : String) : Bool :=
  decide (id ∈ v.peerKeepalives) && id ≠ v.secondaryId && !v.isMeshRoutable id &&
    !v.nodeBeaconFresh now id

/-- `queried_node_liveness_age`. -/
def queriedNodeLivenessAge (now : ℕ) (queryNodeId : String) : Option ℕ :=
  if queryNodeId = v.secondaryId then some 0
  else if v.peerDeathObserved now queryNodeId then none
  else (v.peerKeepalives.lookup queryNodeId).map (now - ·)

/-- `live_peer_ids`. -/
def livePeerIds : Finset String :=
  v.peerKeepalives.keys.toFinset.filter fun id => some id ≠ v.currentPrimary ∧ v.isMeshMember id

/-- `current_primary_in_quorum`. -/
def currentPrimaryInQuorum : Bool :=
  match v.currentPrimary with
  | some id => id ≠ v.secondaryId && v.isMeshMember id
  | none => false

/-- `failover_quorum_peer_count`. -/
def failoverQuorumPeerCount : ℕ :=
  v.livePeerIds.card + if v.currentPrimaryInQuorum then 1 else 0

/-- The smallest of this node and some peers. -/
def lowestWith (peers : Finset String) : String :=
  (insert v.secondaryId peers).min' ⟨v.secondaryId, Finset.mem_insert_self _ _⟩

/-- The patient leg: no frame of the primary for a long time. -/
def primarySilenceExceeded (now : ℕ) : Bool :=
  match v.primaryLastSeen with
  | some t => v.primarySilenceBackstop < now - v.trustworthyAnchor t
  | none => false

/-- A change of the primary is so recent that no new election may start. -/
def withinSettleWindow (now : ℕ) : Bool :=
  match v.lastPrimaryChangeAt with
  | some t => now - v.trustworthyAnchor t < v.keepaliveInterval * settleKeepaliveMultiple
  | none => false

/-- The beacon of the primary is fresh. -/
def primaryBeaconFresh (now : ℕ) : Bool :=
  match v.currentPrimary with
  | some id => v.nodeBeaconFresh now id
  | none => false

/-- Whether the tick of a node in peace starts an election. -/
def needElection (now : ℕ) : Bool :=
  (v.linkDead || v.primarySilenceExceeded now || v.primaryDepartedMembership) &&
    !v.primaryBeaconFresh now && !v.runTerminalLatched && !v.withinSettleWindow now

/-- `push_timeout_query`, on an empty list. -/
def timeoutQuery : List ElectionFrame := (v.currentPrimary.map .timeoutQuery).toList

/-- Why a node without a mesh exits instead of electing itself. -/
def degradedReason (now : ℕ) : String :=
  "peer mesh required for failover but not available: primary death suspected (link_dead=" ++
    toString v.linkDead ++ ", primary_silence_exceeded=" ++
    toString (v.primarySilenceExceeded now) ++ ", primary_left_membership=" ++
    toString v.primaryDepartedMembership ++
    ") and no peers connected to elect a new primary; exiting"

/-- A response that agrees: the peer has not heard from the primary for too long, or ever. -/
def agrees (age : Option ℕ) : Bool :=
  match age with
  | some age => v.deadline < age
  | none => true

/-- The start of an election, from peace or from a vote that is released. -/
def startSuspecting (now : ℕ) : ElectionTickActions :=
  ⟨.suspecting now ∅, v.timeoutQuery, false, none⟩

/-- The tick of a node that has enough agreement: it leads, or it defers. -/
def settleCandidate (round now : ℕ) : ElectionTickActions :=
  let lowestAlive := v.lowestWith (v.livePeerIds \ v.observers)
  if lowestAlive = v.secondaryId then
    if failoverQuorum v.failoverQuorumPeerCount ≤ 1 ∧ v.deposedPrimary = false then
      ⟨.promoted, [], true, none⟩
    else
      ⟨.candidate round {v.secondaryId} now, [.promotionVote v.secondaryId round], false, none⟩
  else ⟨.voting round lowestAlive, [], false, none⟩

variable (state : ElectionState)

/-- `run_election_tick`. -/
def runElectionTick (now : ℕ) : ElectionTickActions :=
  match state with
  | .promoted => ⟨state, [], false, none⟩
  | .normal =>
    if v.needElection now then
      if v.meshDegraded then ⟨state, [], false, some (v.degradedReason now)⟩
      else v.startSuspecting now
    else ⟨state, [], false, none⟩
  | .suspecting since responses =>
    if now - since < v.keepaliveInterval then ⟨state, [], false, none⟩
    else
      let agreeing := (responses.entries.countP fun e => v.agrees e.2) + 1
      if agreeing < failoverQuorum v.failoverQuorumPeerCount then
        ⟨state, v.timeoutQuery, false, none⟩
      else v.settleCandidate (nextRound state) now
  | .candidate round _ started =>
    if v.keepaliveInterval * 5 < now - started then
      ⟨.candidate (round + 1) {v.secondaryId} now,
        [.promotionVote v.secondaryId (round + 1)], false, none⟩
    else ⟨state, [], false, none⟩
  | .voting _ candidate =>
    if v.peerDeathObserved now candidate then v.startSuspecting now
    else ⟨state, [], false, none⟩

/-- `record_timeout_response`. -/
def recordTimeoutResponse (peer : String) (lastKeepalive : Option ℕ) : ElectionState :=
  match state with
  | .suspecting since responses => .suspecting since (responses.insert peer lastKeepalive)
  | _ => state

/-- The node has found its primary dead by itself. -/
def primarySilent (now : ℕ) : Bool :=
  let frameSilent := match v.primaryLastSeen with
    | some t => decide (v.deadline < now - t)
    | none => true
  (frameSilent || v.primaryDepartedMembership) && !v.primaryBeaconFresh now

/-- `record_promotion_vote`: the next state and the confirmation, if the node gives one. -/
def recordPromotionVote (candidate : String) (round now : ℕ) :
    ElectionState × Option ElectionFrame :=
  if !v.primarySilent now then (state, none)
  else if candidate ≠ v.secondaryId ∧ !v.isMeshMember candidate then (state, none)
  else if v.lowestWith v.livePeerIds ≠ candidate then (state, none)
  else (.voting round candidate, some (.promotionConfirm candidate round))

/-- `record_promotion_confirm`: the next state, and whether the node has become the primary. -/
def recordPromotionConfirm (peer target : String) (round : ℕ) : ElectionState × Bool :=
  if target ≠ v.secondaryId then (state, false)
  else
    match state with
    | .candidate r confirms started =>
      if r = round then
        if failoverQuorum v.failoverQuorumPeerCount ≤ (insert peer confirms).card then
          (.promoted, true)
        else (.candidate r (insert peer confirms) started, false)
      else (state, false)
    | _ => (state, false)

/-- `record_primary_message`: a frame of the primary ends the election. -/
def recordPrimaryMessage (now : ℕ) : ElectionView × ElectionState :=
  ({ v with primaryLastSeen := some now, linkDead := false },
    match state with
    | .promoted => .promoted
    | _ => .normal)

/-- The election arms of `handle_peer_message`: the next state and the answer to the sender. -/
def handleElectionFrame (senderId : String) (frame : ElectionFrame)
    (now : ℕ) : ElectionState × Option ElectionFrame :=
  match frame with
  | .timeoutQuery queryNodeId =>
    (state, some (.timeoutResponse queryNodeId (v.queriedNodeLivenessAge now queryNodeId)))
  | .timeoutResponse _ lastKeepalive => (recordTimeoutResponse state senderId lastKeepalive, none)
  | .promotionVote candidateId voteRound => v.recordPromotionVote state candidateId voteRound now
  | .promotionConfirm newPrimaryId voteRound =>
    ((v.recordPromotionConfirm state senderId newPrimaryId voteRound).1, none)

/-- A tick starts an election. -/
def startsElection (now : ℕ) : Bool :=
  match state with
  | .normal => v.needElection now && !v.meshDegraded
  | .voting _ candidate => v.peerDeathObserved now candidate
  | _ => false

/-- What a tick can do: it starts an election, repeats its query or does nothing, decides on the
candidate with the agreement of the peers, or campaigns again. -/
theorem runElectionTick_cases (now : ℕ) :
    (v.startsElection state now = true ∧ v.runElectionTick state now = v.startSuspecting now) ∨
      (v.startsElection state now = false ∧ (v.runElectionTick state now).state = state ∧
        ∀ frame ∈ (v.runElectionTick state now).broadcast,
          (∃ since responses, state = .suspecting since responses) ∧
          ∃ primary, v.currentPrimary = some primary ∧ frame = .timeoutQuery primary) ∨
      (v.startsElection state now = false ∧
        (∃ since responses, state = .suspecting since responses) ∧
        v.runElectionTick state now = v.settleCandidate 1 now) ∨
      ∃ round confirms started, v.startsElection state now = false ∧
        state = .candidate round confirms started ∧
        v.runElectionTick state now = ⟨.candidate (round + 1) {v.secondaryId} now,
          [.promotionVote v.secondaryId (round + 1)], false, none⟩ := by
  cases state with
  | normal =>
    by_cases hneed : v.needElection now = true
    · by_cases hdegraded : v.meshDegraded = true
      · refine .inr (.inl ?_)
        simp [startsElection, runElectionTick, hneed, hdegraded]
      · refine .inl ?_
        simp [startsElection, runElectionTick, hneed, hdegraded]
    · refine .inr (.inl ?_)
      simp [startsElection, runElectionTick, hneed]
  | suspecting =>
    simp only [runElectionTick]
    split_ifs
    · exact .inr (.inl ⟨rfl, rfl, fun frame h => by cases h⟩)
    · refine .inr (.inl ⟨rfl, rfl, fun frame h => ⟨⟨_, _, rfl⟩, ?_⟩⟩)
      obtain ⟨primary, hprimary, rfl⟩ := Option.map_eq_some_iff.mp (Option.mem_toList.mp h)
      exact ⟨primary, hprimary, rfl⟩
    · exact .inr (.inr (.inl ⟨rfl, ⟨_, _, rfl⟩, rfl⟩))
  | candidate round confirms started =>
    simp only [runElectionTick]
    split_ifs
    · exact .inr (.inr (.inr ⟨round, confirms, started, rfl, rfl, rfl⟩))
    · exact .inr (.inl ⟨rfl, rfl, fun frame h => by cases h⟩)
  | voting round candidate =>
    by_cases hdead : v.peerDeathObserved now candidate = true
    · refine .inl ?_
      simp [startsElection, runElectionTick, hdead]
    · refine .inr (.inl ?_)
      simp [startsElection, runElectionTick, hdead]
  | promoted => exact .inr (.inl ⟨rfl, rfl, fun frame h => by cases h⟩)

/-- What a node does with the agreement of its peers. -/
theorem settleCandidate_cases (round now : ℕ) :
    (v.lowestWith (v.livePeerIds \ v.observers) = v.secondaryId ∧
        failoverQuorum v.failoverQuorumPeerCount ≤ 1 ∧
        v.settleCandidate round now = ⟨.promoted, [], true, none⟩) ∨
      (v.lowestWith (v.livePeerIds \ v.observers) = v.secondaryId ∧
        v.settleCandidate round now = ⟨.candidate round {v.secondaryId} now,
          [.promotionVote v.secondaryId round], false, none⟩) ∨
      v.settleCandidate round now =
        ⟨.voting round (v.lowestWith (v.livePeerIds \ v.observers)), [], false, none⟩ := by
  by_cases hleads : v.lowestWith (v.livePeerIds \ v.observers) = v.secondaryId
  · by_cases hquorum : failoverQuorum v.failoverQuorumPeerCount ≤ 1 ∧ v.deposedPrimary = false
    · exact .inl ⟨hleads, hquorum.1, by rw [settleCandidate, if_pos hleads, if_pos hquorum]⟩
    · exact .inr (.inl ⟨hleads, by rw [settleCandidate, if_pos hleads, if_neg hquorum]⟩)
  · exact .inr (.inr (by rw [settleCandidate, if_neg hleads]))

end ElectionView

namespace Sample

/-- A node with some live peers, whose primary has left the mesh. -/
def survivor (name primary : String) (peers : List String) (observers : Finset String) :
    ElectionView where
  secondaryId := name
  keepaliveInterval := 5000
  keepaliveMissThreshold := 3
  primarySilenceBackstop := 120000
  peerKeepalives := peers.foldl (fun m peer => m.insert peer 0) ∅
  primaryLastSeen := some 0
  linkDead := false
  currentPrimary := some primary
  members := peers.toFinset
  routable := peers.toFinset
  beaconLastSeen := ∅
  trustworthySince := none
  observers := observers
  meshDegraded := false
  deposedPrimary := false
  runTerminalLatched := false
  lastPrimaryChangeAt := none

end Sample

end DynRunner
