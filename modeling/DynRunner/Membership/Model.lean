import DynRunner.ClusterState.Apply
import Mathlib.Data.Finset.Card

/-!
# Peers, capabilities and roles

Which peers a node holds alive, what each of them is capable of, and the role table that is
projected from both. A peer that was removed can join again in a later generation. Joins,
removals and capability updates arrive as mutations; the peers another node holds alive, and all
capabilities it knows of, arrive with its snapshot.
-/

namespace DynRunner

/-- Liveness of a peer on this node. -/
inductive PeerState
  | alive
  | dead
  deriving DecidableEq, Repr

/-- What a node knows of a peer. The key and the endpoint, which nothing writes, are left out. -/
structure PeerEntry where
  state : PeerState
  memberGen : ℕ
  deriving DecidableEq, Repr

/-- The replicated role capability of a peer. A tombstone preserves the advertisement that was
current at departure. -/
inductive CapabilityEntry
  | advertised (isObserver canBePrimary : Bool) (capVersion : TaskVersion) (memberGen : ℕ)
  | departed (memberGen : ℕ) (isObserver canBePrimary : Bool) (capVersion : TaskVersion)
  deriving DecidableEq, Repr

/-- Why a peer was removed. -/
inductive RemovalCause
  | keepaliveMiss
  | fatalError (message : String)
  | selfDeparture (reason : String)
  | rosterReemit
  | persistentDialFailure
  deriving DecidableEq, Repr

/-- Whether a peer announces its own clean exit. -/
def RemovalCause.isSelfDeparture : RemovalCause → Bool
  | .selfDeparture _ => true
  | _ => false

/-- The candidate sets of the role table. -/
structure RoleTable where
  observers : Finset String
  canBePrimary : Finset String
  deriving DecidableEq

/-- The membership part of a node's state. -/
structure Membership where
  /-- Whether each peer is alive, and in which generation. -/
  peerState : HashMap String PeerEntry
  /-- What each peer can do. -/
  capabilities : HashMap String CapabilityEntry
  /-- Who has which role, projected from the rest. -/
  roleTable : RoleTable

/-- The membership part of a snapshot. Peers held dead do not travel. -/
structure MembershipSnapshot where
  capabilities : HashMap String CapabilityEntry
  aliveMembers : List String
  memberGenerations : HashMap String ℕ

/-- The mutations that concern a peer. -/
inductive PeerMutation
  | peerJoined (peerId : String) (isObserver canBePrimary : Bool) (capVersion : TaskVersion)
      (memberGen : ℕ)
  | setCanBePrimary (peerId : String) (canBePrimary : Bool) (capVersion : TaskVersion)
  | peerRemoved (id : String) (cause : RemovalCause) (memberGen : ℕ)
  deriving DecidableEq, Repr

/-! ## The capability join -/

namespace CapabilityEntry

/-- `capability_member_gen`. -/
def memberGen : CapabilityEntry → ℕ
  | .advertised _ _ _ memberGen => memberGen
  | .departed memberGen _ _ _ => memberGen

/-- The advertisement that is current, or was at departure. -/
def advertisement : CapabilityEntry → Bool × Bool × TaskVersion
  | .advertised isObserver canBePrimary capVersion _ => (isObserver, canBePrimary, capVersion)
  | .departed _ isObserver canBePrimary capVersion => (isObserver, canBePrimary, capVersion)

/-- Whether a peer is advertised as an observer. -/
def advertisesObserver : CapabilityEntry → Bool
  | .advertised isObserver _ _ _ => isObserver
  | .departed .. => false

/-- Whether a peer is advertised as a possible primary. -/
def advertisesPrimary : CapabilityEntry → Bool
  | .advertised _ canBePrimary _ _ => canBePrimary
  | .departed .. => false

/-- `fold_advertisement`: an observer stays one, and the newer version decides the other bit. -/
def foldAdvertisement (mine incoming : Bool × Bool × TaskVersion) : Bool × Bool × TaskVersion :=
  (mine.1 || incoming.1, if mine.2.2 < incoming.2.2 then incoming.2.1 else mine.2.1,
    max mine.2.2 incoming.2.2)

/-- `merge_capability`: the later generation wins; within one, a departure. -/
def mergeCapability (mine incoming : CapabilityEntry) : CapabilityEntry :=
  if mine.memberGen < incoming.memberGen then incoming
  else if incoming.memberGen < mine.memberGen then mine
  else
    let (isObserver, canBePrimary, capVersion) :=
      foldAdvertisement mine.advertisement incoming.advertisement
    match mine, incoming with
    | .departed memberGen .., .departed .. =>
      .departed memberGen isObserver canBePrimary capVersion
    | .departed .., .advertised .. => mine
    | .advertised .., .departed .. => incoming
    | .advertised _ _ _ memberGen, .advertised .. =>
      .advertised isObserver canBePrimary capVersion memberGen

end CapabilityEntry

/-- Merge one entry into the capabilities, reporting whether the stored entry changed. -/
def mergeIntoCapabilities (capabilities : HashMap String CapabilityEntry) (id : String)
    (incoming : CapabilityEntry) : HashMap String CapabilityEntry × Bool :=
  let merged := match capabilities.lookup id with
    | some mine => mine.mergeCapability incoming
    | none => incoming
  if capabilities.lookup id = some merged then (capabilities, false)
  else (capabilities.insert id merged, true)

namespace Membership

variable (m : Membership)

/-- `is_peer_alive`. -/
def isPeerAlive (id : String) : Bool :=
  match m.peerState.lookup id with
  | some entry => entry.state = .alive
  | none => false

/-- The live peers whose advertisement has the given bit. -/
def candidates (bit : CapabilityEntry → Bool) : Finset String :=
  ((m.capabilities.entries.filter fun e => bit e.2 && m.isPeerAlive e.1).map (·.1)).toFinset

/-- `reproject_roles`. -/
def reprojectRoles : Membership :=
  { m with
    roleTable := ⟨m.candidates (·.advertisesObserver), m.candidates (·.advertisesPrimary)⟩ }

/-- The end of every peer rule: roles are projected again when something changed. -/
def settle (peerState : HashMap String PeerEntry)
    (capabilities : HashMap String CapabilityEntry) (changed : Bool) : Membership × ApplyOutcome :=
  if changed then ({ m with peerState, capabilities }.reprojectRoles, .applied) else (m, .noOp)

/-! ## The peer mutations -/

/-- The liveness part of a join, reporting whether the entry changed. -/
def joinLiveness (peerState : HashMap String PeerEntry) (peerId : String) (memberGen : ℕ) :
    HashMap String PeerEntry × Bool :=
  match peerState.lookup peerId with
  | none => (peerState.insert peerId ⟨.alive, memberGen⟩, true)
  | some ⟨.dead, entryGen⟩ =>
    (peerState.insert peerId ⟨.alive, if entryGen < memberGen then memberGen else entryGen⟩, true)
  | some ⟨.alive, entryGen⟩ =>
    if entryGen < memberGen then (peerState.insert peerId ⟨.alive, memberGen⟩, true)
    else (peerState, false)

variable (authority : String → Bool)

/-- A removed peer is re-admitted in a later generation only, unless the authority vouches for
it. -/
def refusesJoin (m : Membership) (peerId : String) (memberGen : ℕ) : Bool :=
  match m.peerState.lookup peerId with
  | some ⟨.dead, entryGen⟩ => memberGen ≤ entryGen && !authority peerId
  | _ => false

/-- `apply_peer_joined`. -/
def applyPeerJoined (m : Membership) (peerId : String)
    (isObserver canBePrimary : Bool) (capVersion : TaskVersion) (memberGen : ℕ) :
    Membership × ApplyOutcome :=
  if m.refusesJoin authority peerId memberGen then (m, .noOp)
  else
    let (peerState, livenessChanged) := joinLiveness m.peerState peerId memberGen
    let (capabilities, capabilityChanged) := mergeIntoCapabilities m.capabilities peerId
      (.advertised isObserver canBePrimary capVersion memberGen)
    m.settle peerState capabilities (livenessChanged || capabilityChanged)

/-- `apply_set_can_be_primary`: the update targets the current generation of the peer. -/
def applySetCanBePrimary (peerId : String) (canBePrimary : Bool)
    (capVersion : TaskVersion) : Membership × ApplyOutcome :=
  let isObserver := match m.capabilities.lookup peerId with
    | some entry => entry.advertisesObserver
    | none => false
  let memberGen := (((m.capabilities.lookup peerId).map (·.memberGen)).or
    ((m.peerState.lookup peerId).map (·.memberGen))).getD 0
  let (capabilities, changed) := mergeIntoCapabilities m.capabilities peerId
    (.advertised isObserver canBePrimary capVersion memberGen)
  m.settle m.peerState capabilities changed

/-- The tombstone that `merge_departed_tombstone` merges. -/
def tombstone (id : String) (memberGen : ℕ) : CapabilityEntry :=
  match (m.capabilities.lookup id).map (·.advertisement) with
  | some (isObserver, canBePrimary, capVersion) =>
    .departed memberGen isObserver canBePrimary capVersion
  | none => .departed memberGen false false .default

/-- The liveness part of a removal, reporting whether the entry changed. -/
def removeLiveness (peerState : HashMap String PeerEntry) (id : String) (memberGen : ℕ) :
    HashMap String PeerEntry × Bool :=
  match peerState.lookup id with
  | none => (peerState.insert id ⟨.dead, memberGen⟩, true)
  | some entry =>
    (peerState.insert id ⟨.dead, max entry.memberGen memberGen⟩,
      entry.state ≠ .dead || entry.memberGen < memberGen)

/-- A removal of an earlier generation is stale, and one of a generation that is already dead is
repeated. -/
def ignoresRemoval (id : String) (cause : RemovalCause) (memberGen : ℕ) : Bool :=
  match m.peerState.lookup id with
  | some ⟨.dead, entryGen⟩ => !cause.isSelfDeparture && memberGen ≤ entryGen
  | some ⟨.alive, entryGen⟩ => memberGen < entryGen
  | none => false

/-- `apply_peer_removed`. A clean exit leaves the peer alive and only withdraws its
capability. -/
def applyPeerRemoved (id : String) (cause : RemovalCause) (memberGen : ℕ) :
    Membership × ApplyOutcome :=
  if m.ignoresRemoval id cause memberGen then (m, .noOp)
  else
    let (peerState, livenessChanged) :=
      if cause.isSelfDeparture then (m.peerState, false)
      else removeLiveness m.peerState id memberGen
    let (capabilities, capabilityChanged) :=
      mergeIntoCapabilities m.capabilities id (m.tombstone id memberGen)
    m.settle peerState capabilities (livenessChanged || capabilityChanged)

/-- The peer arms of the apply rule. -/
def apply (m : Membership) : PeerMutation → Membership × ApplyOutcome
  | .peerJoined peerId isObserver canBePrimary capVersion memberGen =>
    m.applyPeerJoined authority peerId isObserver canBePrimary capVersion memberGen
  | .setCanBePrimary peerId canBePrimary capVersion =>
    m.applySetCanBePrimary peerId canBePrimary capVersion
  | .peerRemoved id cause memberGen => m.applyPeerRemoved id cause memberGen

/-! ## Snapshots -/

/-- The membership part of `snapshot`. -/
def snapshot : MembershipSnapshot where
  capabilities := m.capabilities
  aliveMembers := (m.peerState.entries.filter fun e => e.2.state = .alive).map (·.1)
  memberGenerations := (HashMap.retain (fun _ e => e.state = .alive) m.peerState).mapValues
    (·.memberGen)

/-- One iteration of the alive-membership loop of a restore. -/
def restoreAlive (memberGenerations : HashMap String ℕ)
    (acc : HashMap String PeerEntry × Bool) (id : String) : HashMap String PeerEntry × Bool :=
  let incomingGen := (memberGenerations.lookup id).getD 0
  match acc.1.lookup id with
  | none => (acc.1.insert id ⟨.alive, incomingGen⟩, true)
  | some entry =>
    if entry.memberGen < incomingGen then (acc.1.insert id ⟨.alive, incomingGen⟩, true) else acc

/-- One iteration of the capability loop of a restore. -/
def restoreCapability (acc : HashMap String CapabilityEntry × Bool)
    (e : Sigma fun _ : String => CapabilityEntry) : HashMap String CapabilityEntry × Bool :=
  let (capabilities, changed) := mergeIntoCapabilities acc.1 e.1 e.2
  (capabilities, acc.2 || changed)

/-- The membership part of `restore_collecting_resumed`. -/
def restore (snap : MembershipSnapshot) : Membership :=
  let (capabilities, capabilitiesChanged) :=
    snap.capabilities.entries.foldl restoreCapability (m.capabilities, false)
  let (peerState, aliveChanged) :=
    snap.aliveMembers.foldl (restoreAlive snap.memberGenerations) (m.peerState, false)
  (m.settle peerState capabilities (capabilitiesChanged || aliveChanged)).1

end Membership

end DynRunner
