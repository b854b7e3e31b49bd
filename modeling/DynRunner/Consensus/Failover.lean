import DynRunner.Consensus.Quorum
import DynRunner.Consensus.Secondary
import DynRunner.Lib.Runs

/-!
# Rounds of several primaries

After a failover the new primary starts with a fresh state machine, whose rounds are numbered from
one again, while frames of the old primary are still under way and the old primary may still be
running. Only the frames of a primary carry its epoch. A `RestartConfirm` carries the number of the
round alone, and it goes to whoever is the primary when it arrives. So a confirmation of the old
primary's round can be counted in the new primary's round of the same number. It cannot when, at
the first `RestartRequest` of a round, no answer to another primary under its number is still under
way, and the secondaries answer no other primary's request under it while it is collected.
-/

namespace DynRunner

open ConsensusFsm Finset

open Consensus

/-- A frame that was sent. `origin` is the primary that sent it or, for a confirmation, the one that
sent the request it answers. It is written down for the proofs, and nobody reads it. -/
structure Flight where
  sender : String
  frame : ConsensusFrame
  origin : Option ℕ
  deriving DecidableEq

/-- The number of the round that a confirmation is for. -/
def ConsensusFrame.confirms : ConsensusFrame → Option ℕ
  | .restartConfirm consensusId _ _ _ => some consensusId
  | _ => none

/-- The primaries in the order of their election, the secondaries, the frames that may still
arrive and the frames that were ever sent. -/
structure MeshWorld where
  /-- The primaries, each with its own machine. -/
  primaries : List ConsensusCoordinator
  /-- The machines of the members. -/
  nodes : String → SecondaryConsensusFsm
  /-- The frames that may still arrive. -/
  inFlight : Finset Flight
  /-- All frames that were ever sent. -/
  sent : Finset Flight

/-- What happens in the mesh. A deposed primary, or one that died, does not go on with its round,
while one that does not know of its successor may. A frame may arrive at any node, late, in any
order, several times or never. -/
inductive MeshEvent
  | promote (secondaries : Finset String)
  | depose (primary : ℕ)
  | act (primary : ℕ) (m : ConsensusMove)
  | deliverToPrimary (primary : ℕ) (flight : Flight)
  | deliverToNode (node : String) (flight : Flight) (now : ℕ) (jitter : String → ℤ)
  | tick (node : String) (now : ℕ) (jitter : String → ℤ)
  | nodeRestarts (node : String)
  | expire (flight : Flight)

namespace ConsensusMove

/-- The steps that a frame causes. -/
def ofFrame : ConsensusFrame → Option ConsensusMove
  | .resolvedPeer consensusId observerId resolved =>
    some (.resolvedPeer consensusId observerId resolved)
  | .restartConfirm consensusId responderId stillSuspicious resolvedSince =>
    some (.restartConfirm consensusId responderId stillSuspicious resolvedSince)
  | _ => none

/-- The steps that a primary makes by itself. -/
def isLocal : ConsensusMove → Bool
  | .resolvedPeer _ _ _ | .restartConfirm _ _ _ _ => false
  | _ => true

end ConsensusMove

namespace ConsensusCoordinator

/-- The frame that a step sends. -/
def emits (c : ConsensusCoordinator) : ConsensusMove → Option ConsensusFrame
  | .poll now =>
    match (c.pollOnce now).2 with
    | .emitFrame frame => some frame
    | _ => none
  | _ => none

end ConsensusCoordinator

namespace MeshWorld

/-- The mesh at the start of a run, before any primary. -/
def start : MeshWorld := ⟨[], SecondaryConsensusFsm.new, ∅, ∅⟩

variable (w : MeshWorld)

/-- Frames are sent. -/
def send (flights : Finset Flight) : MeshWorld :=
  { w with inFlight := w.inFlight ∪ flights, sent := w.sent ∪ flights }

/-- A primary makes a step and sends its frame. -/
def movePrimary (primary : ℕ) (m : ConsensusMove) : MeshWorld :=
  match w.primaries[primary]? with
  | none => w
  | some c =>
    { w with primaries := w.primaries.set primary (c.move m) }.send
      ((c.emits m).elim ∅ fun frame => {Flight.mk "" frame (some primary)})

/-- What happens at an event. -/
def step : MeshEvent → MeshWorld
  | .promote secondaries => { w with primaries := w.primaries ++ [⟨.new, secondaries⟩] }
  | .depose primary =>
    { w with
      primaries := w.primaries.modify primary fun c => { c with fsm := ⟨.idle, c.fsm.lastId⟩ } }
  | .act primary m => if m.isLocal then w.movePrimary primary m else w
  | .deliverToPrimary primary flight =>
    if flight ∈ w.inFlight then
      (ConsensusMove.ofFrame flight.frame).elim w (w.movePrimary primary)
    else w
  | .deliverToNode node flight now jitter =>
    if flight ∈ w.inFlight then
      let (fsm, replies) := (w.nodes node).receive flight.sender flight.frame now jitter
      { w with nodes := Function.update w.nodes node fsm }.send
        (replies.image fun reply => ⟨node, reply, flight.origin⟩)
    else w
  | .tick node now jitter =>
    let (fsm, probes) := (w.nodes node).poll now jitter
    { w with nodes := Function.update w.nodes node fsm }.send
      (probes.image fun probe => ⟨node, probe, none⟩)
  | .nodeRestarts node => { w with nodes := Function.update w.nodes node (.new node) }
  | .expire flight => { w with inFlight := w.inFlight.erase flight }

end MeshWorld

namespace ConsensusFsm

/-- The confirmations that are being collected, with the number of their round. -/
def collecting (fsm : ConsensusFsm) : Option (ℕ × HashMap String ConfirmTally) :=
  match fsm.state with
  | .collectingConfirmations round receivedConfirms _ _ =>
      some (round.consensusId, receivedConfirms)
  | _ => none

/-- The round whose first `RestartRequest` a poll may send. -/
def firstRequest (fsm : ConsensusFsm) (now : ℕ) : Option ℕ :=
  match fsm.state with
  | .collectingResolutions round deadline _ =>
    if deadline ≤ now then some round.consensusId else none
  | .broadcastRestart round _ => some round.consensusId
  | _ => none

variable (fsm : ConsensusFsm)

@[simp] theorem collecting_setSchedulingSuspect (set : Finset String) :
    (fsm.setSchedulingSuspect set).collecting = fsm.collecting := by
  cases hstate : fsm.state with
  | idle | schedulingSuspect =>
    simp only [setSchedulingSuspect, hstate]
    split_ifs <;> simp [collecting, hstate]
  | _ => simp [setSchedulingSuspect, collecting, hstate]

@[simp] theorem collecting_clearSchedulingSuspectIfPresent (peerId : String) :
    (fsm.clearSchedulingSuspectIfPresent peerId).collecting = fsm.collecting := by
  cases hstate : fsm.state with
  | schedulingSuspect =>
    simp only [clearSchedulingSuspectIfPresent, hstate]
    split_ifs <;> simp [collecting, hstate]
  | _ => simp [clearSchedulingSuspectIfPresent, collecting, hstate]

@[simp] theorem collecting_escalate {now primaryEpoch memberGen : ℕ}
    {expectedResponders : Finset String} :
    (fsm.escalate now primaryEpoch memberGen expectedResponders).collecting = fsm.collecting := by
  cases hstate : fsm.state with
  | schedulingSuspect =>
    simp only [escalate, hstate]
    split_ifs <;> simp [collecting, hstate]
  | _ => simp [escalate, collecting, hstate]

@[simp] theorem collecting_applyResolved (consensusId : ℕ) (observerId resolvedPeer : String) :
    (fsm.applyResolved consensusId observerId resolvedPeer).collecting = fsm.collecting := by
  cases hstate : fsm.state with
  | collectingResolutions | broadcastRestart | collectingConfirmations =>
    simp only [applyResolved, hstate]
    split_ifs <;> simp [collecting, hstate]
  | _ => simp [applyResolved, collecting, hstate]

/-- A confirmation is counted under the number of the round or not at all. -/
theorem collecting_applyConfirm (consensusId : ℕ) (responderId : String)
    (stillSuspicious resolvedSince : Finset String) :
    (fsm.applyConfirm consensusId responderId stillSuspicious resolvedSince).collecting =
        fsm.collecting ∨
      ∃ received, fsm.collecting = some (consensusId, received) ∧
        (fsm.applyConfirm consensusId responderId stillSuspicious resolvedSince).collecting =
          some (consensusId, received.insert responderId ⟨stillSuspicious, resolvedSince⟩) := by
  cases hstate : fsm.state with
  | collectingConfirmations round receivedConfirms =>
    simp only [applyConfirm, hstate]
    split_ifs with htakes
    · refine .inr ⟨receivedConfirms, ?_, ?_⟩
      · simp [collecting, hstate, htakes.1]
      · simp [collecting, htakes.1]
    · exact .inl rfl
  | _ => simp [applyConfirm, collecting, hstate]

/-- What a poll does to the confirmations. -/
structure Polled (now : ℕ) (after : ConsensusFsm) (out : ConsensusOutput) : Prop where
  /-- What is collected was collected before, or the first request of its round goes out. -/
  collects : ∀ {consensusId received}, after.collecting = some (consensusId, received) →
    fsm.collecting = some (consensusId, received) ∨
      fsm.firstRequest now = some consensusId ∧ received = ∅ ∧
        ∃ primaryEpoch memberGen candidates,
          out = .emitFrame (.restartRequest consensusId primaryEpoch memberGen candidates)
  /-- A primary does not confirm. -/
  asks : ∀ {frame}, out = .emitFrame frame → frame.confirms = none

/-- Behind the gate the first request goes out. -/
theorem polled_pollRestart {now retriesLeft : ℕ} {mesh : MeshSnapshot} {round : Round}
    (hfirst : fsm.firstRequest now = some round.consensusId) :
    fsm.Polled now (fsm.pollRestart round retriesLeft now mesh).1
      (fsm.pollRestart round retriesLeft now mesh).2 := by
  unfold pollRestart
  split_ifs
  · constructor <;> simp [finalizeTerminal, collecting]
  · constructor <;> simp [collecting, hfirst, ConsensusFrame.confirms]

/-- What a poll can do. -/
theorem polled_poll (now : ℕ) (mesh : MeshSnapshot) :
    fsm.Polled now (fsm.poll now mesh).1 (fsm.poll now mesh).2 := by
  unfold poll
  cases hstate : fsm.state with
  | collectingResolutions =>
    dsimp only
    split_ifs with hempty hdeadline
    · constructor <;> simp [finalizeTerminal, collecting]
    · exact fsm.polled_pollRestart (by simp [firstRequest, hstate, hdeadline])
    · constructor <;> simp [collecting, hstate]
  | broadcastRestart => exact fsm.polled_pollRestart (by simp [firstRequest, hstate])
  | collectingConfirmations =>
    dsimp only
    split_ifs
    all_goals constructor <;> simp [finalizeTerminal, collecting, hstate, ConsensusFrame.confirms]
  | _ => constructor <;> simp [collecting, hstate, ConsensusFrame.confirms]

end ConsensusFsm

namespace ConsensusCoordinator

variable (c : ConsensusCoordinator)

/-- Beside a poll, a primary's own steps leave its confirmations alone and send nothing. -/
theorem move_local {m : ConsensusMove} (hlocal : m.isLocal = true) (hpoll : ∀ now, m ≠ .poll now) :
    (c.move m).fsm.collecting = c.fsm.collecting ∧ c.emits m = none := by
  cases m with
  | secondaryJoined => exact ⟨rfl, rfl⟩
  | secondaryLeft => exact ⟨rfl, rfl⟩
  | keepalive id =>
    refine ⟨?_, rfl⟩
    simp only [move, calls]
    split_ifs
    · exact c.fsm.collecting_clearSchedulingSuspectIfPresent id
    · rfl
  | silentHeldWork suspectIds => exact ⟨c.fsm.collecting_setSchedulingSuspect suspectIds, rfl⟩
  | suspect suspectIds now primaryEpoch memberGen =>
    refine ⟨?_, rfl⟩
    simp only [move, calls]
    split_ifs
    · rfl
    · exact c.fsm.collecting_setSchedulingSuspect suspectIds
    · change ((c.fsm.setSchedulingSuspect suspectIds).escalate now primaryEpoch memberGen
        (c.secondaries \ suspectIds)).collecting = c.fsm.collecting
      rw [collecting_escalate, collecting_setSchedulingSuspect]
  | resolvedPeer => cases hlocal
  | restartConfirm => cases hlocal
  | poll now => exact absurd rfl (hpoll now)

end ConsensusCoordinator

namespace MeshWorld

/-- When the first request of a round goes out, no answer to another primary under its number is
under way, and no secondary answers a request under a number while another primary collects
confirmations under it. A request that the receiver refuses for its epoch is no answer. -/
def FreshRound (w : MeshWorld) : MeshEvent → Prop
  | .act primary (.poll now) =>
    match w.primaries[primary]?.bind (·.fsm.firstRequest now) with
    | none => True
    | some consensusId =>
      ∀ flight ∈ w.inFlight, flight.frame.confirms = some consensusId →
        flight.origin = some primary
  | .deliverToNode node flight now jitter =>
    flight ∈ w.inFlight →
      ∀ reply ∈ ((w.nodes node).receive flight.sender flight.frame now jitter).2,
        ∀ other ∈ w.primaries.zipIdx, reply.confirms ≠ none →
          other.1.fsm.collecting.map Prod.fst = reply.confirms → flight.origin = some other.2
  | _ => True

instance (w : MeshWorld) (event : MeshEvent) : Decidable (w.FreshRound event) := by
  unfold FreshRound
  split
  · split <;> infer_instance
  · infer_instance
  · infer_instance

/-- The meshes of the runs whose events all meet a condition. -/
def Reached (allowed : MeshWorld → MeshEvent → Prop) : MeshWorld → Prop :=
  RunsTo step (· = start) allowed

/-- The start is reached. -/
theorem reached_start {allowed : MeshWorld → MeshEvent → Prop} : Reached allowed start := .start rfl

/-- A primary collects the confirmations of a round. -/
def Collects (w : MeshWorld) (primary consensusId : ℕ) (received : HashMap String ConfirmTally) :
    Prop :=
  ∃ c, w.primaries[primary]? = some c ∧ c.fsm.collecting = some (consensusId, received)

/-- What holds between the primaries that collect confirmations and the frames under way. -/
structure Attributed (w : MeshWorld) : Prop where
  /-- Secondaries speak in their own names. -/
  named : ∀ node, (w.nodes node).selfId = node
  /-- Whatever arrives was sent. -/
  inFlight : w.inFlight ⊆ w.sent
  /-- A confirmation is sent by its responder. -/
  signed : ∀ flight ∈ w.sent, ∀ consensusId responderId stillSuspicious resolvedSince,
    flight.frame = .restartConfirm consensusId responderId stillSuspicious resolvedSince →
    flight.sender = responderId
  /-- A confirmation under way for a round that is collected belongs to its primary. -/
  own : ∀ {i consensusId received}, w.Collects i consensusId received →
    ∀ flight ∈ w.inFlight, flight.frame.confirms = some consensusId → flight.origin = some i
  /-- The request of a round that is collected was sent. -/
  requested : ∀ {i consensusId received}, w.Collects i consensusId received →
    ∃ primaryEpoch memberGen candidates,
      ⟨"", .restartRequest consensusId primaryEpoch memberGen candidates, some i⟩ ∈ w.sent
  /-- What was counted answers a request of the primary that counts it. -/
  counted : ∀ {i consensusId received}, w.Collects i consensusId received →
    ∀ responder tally, received.lookup responder = some tally →
      ⟨responder, .restartConfirm consensusId responder tally.stillSuspicious
        tally.resolvedSince, some i⟩ ∈ w.sent

variable {w : MeshWorld} {primary : ℕ} {m : ConsensusMove} {c : ConsensusCoordinator}

/-- The primaries after a step of one of them. -/
theorem collects_movePrimary (hc : w.primaries[primary]? = some c) {i consensusId : ℕ}
    {received : HashMap String ConfirmTally}
    (h : (w.movePrimary primary m).Collects i consensusId received) :
    (i = primary ∧ (c.move m).fsm.collecting = some (consensusId, received)) ∨
      (i ≠ primary ∧ w.Collects i consensusId received) := by
  obtain ⟨c', hc', hcollecting⟩ := h
  simp only [movePrimary, hc, send] at hc'
  by_cases hi : i = primary
  · subst hi
    have hlt : i < w.primaries.length := (List.getElem?_eq_some_iff.mp hc).1
    rw [List.getElem?_set_self hlt] at hc'
    cases hc'
    exact .inl ⟨rfl, hcollecting⟩
  · rw [List.getElem?_set_ne (Ne.symm hi)] at hc'
    exact .inr ⟨hi, c', hc', hcollecting⟩

section

variable (h : w.Attributed)
include h

/-- Frames that are sent beside the primaries: a confirmation among them is signed and belongs to
whoever collects under its number. -/
theorem Attributed.send {flights : Finset Flight}
    (hown : ∀ flight ∈ flights, ∀ i consensusId received, w.Collects i consensusId received →
      flight.frame.confirms = some consensusId → flight.origin = some i)
    (hsigned : ∀ flight ∈ flights, ∀ consensusId responderId stillSuspicious resolvedSince,
      flight.frame = .restartConfirm consensusId responderId stillSuspicious resolvedSince →
      flight.sender = responderId) : (w.send flights).Attributed where
  named := h.named
  inFlight := union_subset_union_left h.inFlight
  signed := forall_mem_union.mpr ⟨h.signed, hsigned⟩
  own := by
    intro i consensusId received hcollects flight hflight hconfirms
    rcases mem_union.mp hflight with hflight | hflight
    · exact h.own hcollects flight hflight hconfirms
    · exact hown flight hflight i consensusId received hcollects hconfirms
  requested := by
    intro i consensusId received hcollects
    obtain ⟨primaryEpoch, memberGen, candidates, hsent⟩ := h.requested hcollects
    exact ⟨primaryEpoch, memberGen, candidates, mem_union_left _ hsent⟩
  counted := fun hcollects responder tally hlookup =>
    mem_union_left _ (h.counted hcollects responder tally hlookup)

/-- A secondary's machine changes and keeps its name. -/
theorem Attributed.update {node : String} {fsm : SecondaryConsensusFsm}
    (hfsm : fsm.selfId = node) : Attributed { w with nodes := Function.update w.nodes node fsm } :=
  { h with
    named := by
      intro other
      change (Function.update w.nodes node fsm other).selfId = other
      by_cases hother : other = node
      · rw [hother, Function.update_self, hfsm]
      · rw [Function.update_of_ne hother, h.named] }

/-- Primaries that collect less. -/
theorem Attributed.fewer {primaries : List ConsensusCoordinator}
    (hcollects : ∀ {i consensusId received},
      Collects { w with primaries } i consensusId received → w.Collects i consensusId received) :
    Attributed { w with primaries } :=
  ⟨h.named, h.inFlight, h.signed, fun hi => h.own (hcollects hi),
    fun hi => h.requested (hcollects hi), fun hi => h.counted (hcollects hi)⟩

section

variable (hc : w.primaries[primary]? = some c)
include hc

/-- A step of one primary: what it collects afterwards must be its own, and it confirms nothing. -/
theorem Attributed.movePrimary
    (hcollects : ∀ consensusId received, (c.move m).fsm.collecting = some (consensusId, received) →
      (∀ flight ∈ w.inFlight, flight.frame.confirms = some consensusId →
        flight.origin = some primary) ∧
      ((∃ primaryEpoch memberGen candidates,
          ⟨"", .restartRequest consensusId primaryEpoch memberGen candidates, some primary⟩ ∈
            w.sent) ∨
        ∃ primaryEpoch memberGen candidates, c.emits m =
          some (.restartRequest consensusId primaryEpoch memberGen candidates)) ∧
      ∀ responder tally, received.lookup responder = some tally →
        ⟨responder, .restartConfirm consensusId responder tally.stillSuspicious
          tally.resolvedSince, some primary⟩ ∈ w.sent)
    (hemits : ∀ frame, c.emits m = some frame → frame.confirms = none) :
    (w.movePrimary primary m).Attributed := by
  have hsent : w.sent ⊆ (w.movePrimary primary m).sent := by
    simp only [MeshWorld.movePrimary, hc]
    exact subset_union_left
  -- The new frame, if there is one.
  have hnew : ∀ {flights : Finset Flight} {flight : Flight},
      flight ∈ flights ∪ (c.emits m).elim ∅ (fun frame => {Flight.mk "" frame (some primary)}) →
      flight ∈ flights ∨ ∃ frame, c.emits m = some frame ∧ flight = ⟨"", frame, some primary⟩ := by
    intro flights flight hmem
    refine (mem_union.mp hmem).imp_right fun hmem => ?_
    cases hframe : c.emits m with
    | none => simp [hframe] at hmem
    | some frame =>
      rw [hframe] at hmem
      exact ⟨frame, rfl, mem_singleton.mp hmem⟩
  refine ⟨?_, ?_, ?_, ?_, ?_, ?_⟩
  · simp only [MeshWorld.movePrimary, hc]
    exact h.named
  · simp only [MeshWorld.movePrimary, hc]
    exact union_subset_union_left h.inFlight
  · intro flight hflight consensusId responderId stillSuspicious resolvedSince heq
    simp only [MeshWorld.movePrimary, hc] at hflight
    rcases hnew hflight with hflight | ⟨frame, hframe, rfl⟩
    · exact h.signed flight hflight _ _ _ _ heq
    · obtain rfl : frame = _ := heq
      cases hemits _ hframe
  · intro i consensusId received hi flight hflight hconfirms
    simp only [MeshWorld.movePrimary, hc] at hflight
    rcases hnew hflight with hflight | ⟨frame, hframe, rfl⟩
    · rcases collects_movePrimary hc hi with ⟨rfl, hi'⟩ | ⟨-, hi'⟩
      · exact (hcollects _ _ hi').1 flight hflight hconfirms
      · exact h.own hi' flight hflight hconfirms
    · cases (hemits frame hframe).symm.trans hconfirms
  · intro i consensusId received hi
    rcases collects_movePrimary hc hi with ⟨rfl, hi'⟩ | ⟨-, hi'⟩
    · rcases (hcollects _ _ hi').2.1 with ⟨_, _, _, hrequest⟩ | ⟨epoch, gen, candidates, hemitted⟩
      · exact ⟨_, _, _, hsent hrequest⟩
      · refine ⟨epoch, gen, candidates, ?_⟩
        simp only [MeshWorld.movePrimary, hc, hemitted]
        exact mem_union_right _ (mem_singleton_self _)
    · obtain ⟨_, _, _, hrequest⟩ := h.requested hi'
      exact ⟨_, _, _, hsent hrequest⟩
  · intro i consensusId received hi responder tally hlookup
    rcases collects_movePrimary hc hi with ⟨rfl, hi'⟩ | ⟨-, hi'⟩
    · exact hsent ((hcollects _ _ hi').2.2 responder tally hlookup)
    · exact hsent (h.counted hi' responder tally hlookup)

/-- A step that leaves the confirmations of its primary alone and sends nothing. -/
theorem Attributed.still
    (hcollecting : (c.move m).fsm.collecting = c.fsm.collecting) (hemits : c.emits m = none) :
    (w.movePrimary primary m).Attributed := by
  refine h.movePrimary hc (fun consensusId received heq => ?_) (fun frame hframe => ?_)
  · have hold : w.Collects primary consensusId received := ⟨c, hc, hcollecting ▸ heq⟩
    exact ⟨h.own hold, .inl (h.requested hold), h.counted hold⟩
  · rw [hemits] at hframe
    cases hframe

/-- A poll of a primary. -/
theorem Attributed.poll {now : ℕ} (hfresh : w.FreshRound (.act primary (.poll now))) :
    (w.movePrimary primary (.poll now)).Attributed := by
  have hpolled := c.fsm.polled_poll now c.consensusMeshSnapshot
  rw [← (c.pollOnce_eq).2] at hpolled
  refine h.movePrimary hc (fun id received heq => ?_) (fun frame hframe => ?_)
  · rcases hpolled.collects heq with hbefore | ⟨hfirst, rfl, epoch, gen, candidates, hout⟩
    · have hold : w.Collects primary id received := ⟨c, hc, hbefore⟩
      exact ⟨h.own hold, .inl (h.requested hold), h.counted hold⟩
    · -- The first request of a round: nothing is counted yet, and no old answer is under way.
      have hbind : w.primaries[primary]?.bind (·.fsm.firstRequest now) = some id := by
        rw [hc]
        exact hfirst
      simp only [FreshRound, hbind] at hfresh
      refine ⟨hfresh, .inr ⟨epoch, gen, candidates, ?_⟩, fun _ _ hlookup => by cases hlookup⟩
      simp only [ConsensusCoordinator.emits, hout]
  · simp only [ConsensusCoordinator.emits] at hframe
    split at hframe
    · rename_i hout
      cases hframe
      exact hpolled.asks hout
    · cases hframe

end

/-- A frame that arrives at a primary. A confirmation that is counted was under way, so it belongs
to the primary that counts it. -/
theorem Attributed.deliverToPrimary {flight : Flight} (hflight : flight ∈ w.inFlight)
    (hm : ConsensusMove.ofFrame flight.frame = some m) : (w.movePrimary primary m).Attributed := by
  cases hc : w.primaries[primary]? with
  | none =>
    simp only [MeshWorld.movePrimary, hc]
    exact h
  | some c =>
    cases hframe : flight.frame with
    | resolvedPeer consensusId observerId resolved =>
      rw [hframe] at hm
      cases hm
      exact h.still hc (c.fsm.collecting_applyResolved consensusId observerId resolved) rfl
    | restartConfirm consensusId responderId stillSuspicious resolvedSince =>
      rw [hframe] at hm
      cases hm
      rcases c.fsm.collecting_applyConfirm consensusId responderId stillSuspicious
        resolvedSince with
        hsame | ⟨received, hbefore, hafter⟩
      · exact h.still hc hsame rfl
      · have hold : w.Collects primary consensusId received := ⟨c, hc, hbefore⟩
        refine h.movePrimary hc (fun id received' heq => ?_) (fun frame hemits => ?_)
        · change (c.fsm.applyConfirm _ _ _ _).collecting = _ at heq
          rw [hafter] at heq
          cases heq
          refine ⟨h.own hold, .inl (h.requested hold), fun responder tally hlookup => ?_⟩
          by_cases hresponder : responder = responderId
          · rw [hresponder, AList.lookup_insert] at hlookup
            cases hlookup
            have horigin := h.own hold flight hflight (by rw [hframe]; rfl)
            have hsender := h.signed flight (h.inFlight hflight) _ _ _ _ hframe
            have heq : flight = ⟨responderId,
                .restartConfirm consensusId responderId stillSuspicious resolvedSince,
                some primary⟩ := by
              rw [← hframe, ← horigin, ← hsender]
            rw [hresponder, ← heq]
            exact h.inFlight hflight
          · rw [AList.lookup_insert_ne hresponder] at hlookup
            exact h.counted hold responder tally hlookup
        · cases hemits
    | _ =>
      rw [hframe] at hm
      cases hm

/-- What one event preserves. -/
theorem Attributed.step (event : MeshEvent) (hfresh : w.FreshRound event) :
    (w.step event).Attributed := by
  cases event with
  | promote =>
    -- The new primary collects nothing.
    refine h.fewer ?_
    rintro i consensusId received ⟨c, hc, hcollecting⟩
    rcases Nat.lt_or_ge i w.primaries.length with hlt | hge
    · rw [List.getElem?_append_left hlt] at hc
      exact ⟨c, hc, hcollecting⟩
    · rw [List.getElem?_append_right hge] at hc
      rw [List.mem_singleton.mp (List.mem_of_getElem? hc)] at hcollecting
      cases hcollecting
  | depose =>
    refine h.fewer ?_
    rintro i consensusId received ⟨c, hc, hcollecting⟩
    rw [List.getElem?_modify] at hc
    split_ifs at hc with heq
    · obtain ⟨c₀, -, rfl⟩ := Option.map_eq_some_iff.mp hc
      cases hcollecting
    · exact ⟨c, by simpa using hc, hcollecting⟩
  | act primary m =>
    simp only [MeshWorld.step]
    split_ifs with hlocal
    · cases hc : w.primaries[primary]? with
      | none =>
        simp only [MeshWorld.movePrimary, hc]
        exact h
      | some c =>
        by_cases hpoll : ∃ now, m = .poll now
        · obtain ⟨now, rfl⟩ := hpoll
          exact h.poll hc hfresh
        · obtain ⟨hcollecting, hemits⟩ := c.move_local hlocal fun now heq => hpoll ⟨now, heq⟩
          exact h.still hc hcollecting hemits
    · exact h
  | deliverToPrimary primary flight =>
    simp only [MeshWorld.step]
    split_ifs with hflight
    · cases hm : ConsensusMove.ofFrame flight.frame with
      | none => exact h
      | some => exact h.deliverToPrimary hflight hm
    · exact h
  | deliverToNode node flight now jitter =>
    simp only [MeshWorld.step]
    split_ifs with hflight
    · have hname : ((w.nodes node).receive flight.sender flight.frame now jitter).1.selfId = node :=
        ((w.nodes node).receive_selfId _ _ _ _).trans (h.named node)
      refine (h.update hname).send
        (fun reply hreply i consensusId received hcollects hconfirms => ?_)
        (fun reply hreply consensusId responderId stillSuspicious resolvedSince hconfirm => ?_)
      · obtain ⟨frame, hframe, rfl⟩ := mem_image.mp hreply
        obtain ⟨c, hc, hcollecting⟩ := hcollects
        have hzip : (c, i) ∈ w.primaries.zipIdx := List.mem_zipIdx_iff_getElem?.mpr hc
        have hsome : frame.confirms = some consensusId := hconfirms
        exact hfresh hflight frame hframe (c, i) hzip (by simp [hsome])
          (by rw [hcollecting, hsome]; rfl)
      · obtain ⟨frame, hframe, rfl⟩ := mem_image.mp hreply
        rcases (w.nodes node).mem_receive hframe with
          ⟨id, primaryEpoch, memberGen, candidates, still, resolved, hrequest, rfl⟩ | ⟨_, _, rfl⟩ |
          ⟨_, _, rfl⟩ | ⟨_, _, rfl⟩
        · cases hconfirm
          exact (h.named node).symm
        all_goals cases hconfirm
    · exact h
  | tick node now jitter =>
    have hname : ((w.nodes node).poll now jitter).1.selfId = node :=
      ((w.nodes node).poll_selfId now jitter).trans (h.named node)
    refine (h.update hname).send
      (fun probe hprobe i consensusId received hcollects hconfirms => ?_)
      (fun probe hprobe consensusId responderId stillSuspicious resolvedSince hconfirm => ?_)
    all_goals
      obtain ⟨frame, hframe, rfl⟩ := mem_image.mp hprobe
      obtain ⟨_, _, rfl⟩ := (w.nodes node).mem_poll hframe
    · cases hconfirms
    · cases hconfirm
  | nodeRestarts => exact h.update rfl
  | expire =>
    exact
      { h with
        inFlight := (erase_subset _ _).trans h.inFlight
        own := fun hi other hother => h.own hi other (mem_of_mem_erase hother) }

end

/-- At the start nothing needs to be attributed. -/
theorem attributed_start : start.Attributed := by
  have hnone : ∀ {i consensusId received}, ¬start.Collects i consensusId received := by
    rintro i consensusId received ⟨c, hc, -⟩
    simp [start] at hc
  exact ⟨fun _ => rfl, Subset.refl _, fun flight hflight => by simp [start] at hflight,
    fun hi => (hnone hi).elim, fun hi => (hnone hi).elim, fun hi => (hnone hi).elim⟩

/-- In every run each answer belongs to the primary that asked. -/
theorem attributed_of_reached (h : Reached FreshRound w) : w.Attributed :=
  h.invariant (fun _ hstart => hstart ▸ attributed_start) fun _ event hw hfresh =>
    hw.step event hfresh

/-- **The votes of a primary are its own.** In every run in which the first `RestartRequest` of a
round meets no answer to another primary under its number, and none is given while the round is
collected: whatever a primary counts was sent by the responder in answer to a `RestartRequest` that
this primary has sent under the number of its round, and when it commits to a restart, everyone it
asked has confirmed every target in such an answer. -/
theorem confirms_own_round (hreached : Reached FreshRound w) {primary : ℕ}
    {c : ConsensusCoordinator} (hc : w.primaries[primary]? = some c) {round : Round}
    {receivedConfirms : HashMap String ConfirmTally} {deadline retriesLeft : ℕ}
    (hstate : c.fsm.state = .collectingConfirmations round receivedConfirms deadline retriesLeft) :
    (∃ primaryEpoch memberGen candidates,
        ⟨"", .restartRequest round.consensusId primaryEpoch memberGen candidates, some primary⟩ ∈
          w.sent) ∧
      (∀ responder tally, receivedConfirms.lookup responder = some tally →
        ⟨responder, .restartConfirm round.consensusId responder tally.stillSuspicious
          tally.resolvedSince, some primary⟩ ∈ w.sent) ∧
      ∀ now targets, (c.pollOnce now).2 = .restart targets →
        ∀ responder ∈ round.expectedResponders, ∃ tally : ConfirmTally,
          ⟨responder, .restartConfirm round.consensusId responder tally.stillSuspicious
            tally.resolvedSince, some primary⟩ ∈ w.sent ∧ targets ⊆ tally.stillSuspicious := by
  have hcollects : w.Collects primary round.consensusId receivedConfirms :=
    ⟨c, hc, by simp [ConsensusFsm.collecting, hstate]⟩
  have hattributed := attributed_of_reached hreached
  refine ⟨hattributed.requested hcollects, hattributed.counted hcollects,
    fun now targets hcommit responder hresponder => ?_⟩
  rw [(c.pollOnce_eq).2] at hcommit
  obtain ⟨round', received, _, _, hstate', hall, rfl⟩ := poll_eq_restart hcommit
  rw [hstate] at hstate'
  cases hstate'
  obtain ⟨tally, hlookup⟩ := HashMap.mem_iff_lookup.mp (hall responder hresponder)
  refine ⟨tally, hattributed.counted hcollects responder tally hlookup, fun target htarget => ?_⟩
  exact (mem_foldl_targets htarget).2 _ (HashMap.mem_entries_iff.mpr hlookup)

end MeshWorld

namespace Sample

open MeshWorld

/-- The events of a run. -/
def meshAfter (events : List MeshEvent) : MeshWorld := events.foldl MeshWorld.step .start

/-- A primary suspects one of five secondaries and asks the others about it. -/
def asked (primary primaryEpoch now : ℕ) : List MeshEvent :=
  [.promote {"a", "b", "c", "d", "e"}, .act primary (.suspect {"d"} now primaryEpoch 0),
    .act primary (.poll now), .act primary (.poll (now + 15000))]

/-- The request of a first round arrives. -/
def requestArrives (primary primaryEpoch now : ℕ) (node : String) : MeshEvent :=
  .deliverToNode node ⟨"", .restartRequest 1 primaryEpoch 0 {"d"}, some primary⟩ now fun _ => 0

/-- The answer to the request of a primary arrives at a primary. -/
def answerArrives (primary origin : ℕ) (node : String) : MeshEvent :=
  .deliverToPrimary primary ⟨node, .restartConfirm 1 node {"d"} ∅, some origin⟩

/-- The answers to the first primary's request arrive at the second primary. -/
def answeredTooLate : MeshWorld :=
  meshAfter (asked 0 1 0 ++ ["a", "b", "c", "e"].map (requestArrives 0 1 15001) ++
    .depose 0 :: asked 1 2 20000 ++ ["a", "b", "c", "e"].map (answerArrives 1 0))

/-- **A restart on the votes of a deposed primary's round.** The second primary restarts a peer, and
no secondary has answered its request, or even received it. -/
theorem restarted_on_old_votes :
    answeredTooLate.primaries[1]?.map (fun c => (c.pollOnce 35001).2) = some (.restart {"d"}) ∧
      ∀ flight ∈ answeredTooLate.sent, flight.sender ≠ "" → flight.origin = some 0 := by
  decide +kernel

/-- The second primary gets an answer. The first one's request, under the same number, arrives at a
secondary that knows of the second primary, and is refused. -/
def answeredInTime : List MeshEvent :=
  asked 0 1 0 ++ .depose 0 :: asked 1 2 20000 ++
    [requestArrives 1 2 35001 "a", requestArrives 0 1 35002 "a", answerArrives 1 1 "a"]

/-- In the sample the answer is counted by the primary that asked. -/
theorem answeredInTime_own : ∃ c round receivedConfirms deadline retriesLeft,
      (meshAfter answeredInTime).primaries[1]? = some c ∧
      c.fsm.state = .collectingConfirmations round receivedConfirms deadline retriesLeft ∧
      receivedConfirms.lookup "a" = some ⟨{"d"}, ∅⟩ ∧
      ⟨"a", .restartConfirm round.consensusId "a" {"d"} ∅, some 1⟩ ∈
        (meshAfter answeredInTime).sent := by
  have hreached : Reached FreshRound (meshAfter answeredInTime) :=
    RunsTo.foldl reached_start answeredInTime (by decide +kernel)
  have hc : ∃ c, (meshAfter answeredInTime).primaries[1]? = some c := ⟨_, rfl⟩
  obtain ⟨c, hc⟩ := hc
  have hstate : ∃ round receivedConfirms deadline retriesLeft,
      c.fsm.state = .collectingConfirmations round receivedConfirms deadline retriesLeft ∧
      receivedConfirms.lookup "a" = some ⟨{"d"}, ∅⟩ := by
    cases hc
    exact ⟨_, _, _, _, rfl, by decide +kernel⟩
  obtain ⟨round, receivedConfirms, deadline, retriesLeft, hstate, hlookup⟩ := hstate
  exact ⟨c, round, receivedConfirms, deadline, retriesLeft, hc, hstate, hlookup,
    (confirms_own_round hreached hc hstate).2.1 "a" _ hlookup⟩

end Sample

end DynRunner
