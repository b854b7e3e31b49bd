import DynRunner.Consensus.Evidence

/-!
# A restart and the majority behind it

The coordinator of the primary drives the state machine: it escalates the secondaries that have
been silent for too long, passes on the answers, and counts its secondaries for the side gate
whenever it polls. Whom to ask is fixed at the escalation, while the gate counts the secondaries of
a later moment. A secondary that joins in between, or a suspect that was resolved, is counted
without having been asked.
-/

namespace DynRunner

open Consensus ConsensusFsm RoundHistory Finset

/-- The part of the primary that drives the state machine. -/
structure ConsensusCoordinator where
  fsm : ConsensusFsm
  secondaries : Finset String

namespace ConsensusCoordinator

/-- `consensus_mesh_snapshot`. -/
def consensusMeshSnapshot (c : ConsensusCoordinator) : MeshSnapshot :=
  ⟨(c.secondaries \ c.fsm.inFlightSuspects).card, c.secondaries.card + 1⟩

/-- One pass of the drive loop. A committed restart drops its targets from the roster. -/
def pollOnce (c : ConsensusCoordinator) (now : ℕ) : ConsensusCoordinator × ConsensusOutput :=
  match c.fsm.poll now c.consensusMeshSnapshot with
  | (fsm, .restart targets) => (⟨fsm, c.secondaries \ targets⟩, .restart targets)
  | (fsm, output) => ({ c with fsm }, output)

/-- The drive loop, until the machine idles or its budget is used up. -/
def driveLoop (now : ℕ) : ℕ → ConsensusCoordinator → ConsensusCoordinator × List ConsensusOutput
  | 0, c => (c, [])
  | budget + 1, c =>
    match c.pollOnce now with
    | (c, .idle) => (c, [])
    | (c, output) =>
      let (c, outputs) := driveLoop now budget c
      (c, output :: outputs)

variable (c : ConsensusCoordinator)

/-- `drive_consensus_fsm_at`. -/
def driveConsensusFsmAt (now : ℕ) : ConsensusCoordinator × List ConsensusOutput := driveLoop now 8 c

/-- `consensus_escalate_at`. The epoch and the generation are read off the ledger. -/
def consensusEscalateAt (suspectIds : Finset String)
    (now primaryEpoch memberGen : ℕ) : ConsensusCoordinator × List ConsensusOutput :=
  { c with
    fsm := c.fsm.escalate now primaryEpoch memberGen
      (c.secondaries \ suspectIds) }.driveConsensusFsmAt now

/-- The end of `decide_dead_secondaries`: the secondaries that were silent for too long. -/
def hardBackstop (suspectIds : Finset String)
    (now primaryEpoch memberGen : ℕ) : ConsensusCoordinator × List ConsensusOutput :=
  if suspectIds = ∅ then (c, [])
  else
    let alreadyInFlight := c.fsm.currentConsensusId.isSome
    let c := { c with fsm := c.fsm.setSchedulingSuspect suspectIds }
    if alreadyInFlight then (c, [])
    else c.consensusEscalateAt suspectIds now primaryEpoch memberGen

/-- `apply_consensus_resolved`. -/
def applyConsensusResolved (consensusId : ℕ)
    (observerId resolvedPeer : String) (now : ℕ) : ConsensusCoordinator × List ConsensusOutput :=
  { c with fsm := c.fsm.applyResolved consensusId observerId resolvedPeer }.driveConsensusFsmAt now

/-- `apply_consensus_confirm`. -/
def applyConsensusConfirm (consensusId : ℕ) (responderId : String)
    (stillSuspicious resolvedSince : Finset String) (now : ℕ) :
    ConsensusCoordinator × List ConsensusOutput :=
  { c with
    fsm := c.fsm.applyConfirm consensusId responderId stillSuspicious
      resolvedSince }.driveConsensusFsmAt now

end ConsensusCoordinator

/-- What the primary handles. -/
inductive ConsensusEvent
  | secondaryJoined (id : String)
  | secondaryLeft (id : String)
  | keepalive (id : String)
  | silentHeldWork (suspectIds : Finset String)
  | hardBackstop (suspectIds : Finset String) (now primaryEpoch memberGen : ℕ)
  | resolvedPeer (consensusId : ℕ) (observerId resolvedPeer : String) (now : ℕ)
  | restartConfirm (consensusId : ℕ) (responderId : String)
      (stillSuspicious resolvedSince : Finset String) (now : ℕ)
  | heartbeatTick (now : ℕ)

namespace ConsensusCoordinator

/-- The handling of an event, with what the machine put out on the way. -/
def handle (c : ConsensusCoordinator) : ConsensusEvent → ConsensusCoordinator × List ConsensusOutput
  | .secondaryJoined id => ({ c with secondaries := insert id c.secondaries }, [])
  | .secondaryLeft id => ({ c with secondaries := c.secondaries.erase id }, [])
  | .keepalive id =>
    (if id ∈ c.secondaries then { c with fsm := c.fsm.clearSchedulingSuspectIfPresent id } else c,
      [])
  | .silentHeldWork suspectIds => ({ c with fsm := c.fsm.setSchedulingSuspect suspectIds }, [])
  | .hardBackstop suspectIds now primaryEpoch memberGen =>
    c.hardBackstop suspectIds now primaryEpoch memberGen
  | .resolvedPeer consensusId observerId resolvedPeer now =>
    c.applyConsensusResolved consensusId observerId resolvedPeer now
  | .restartConfirm consensusId responderId stillSuspicious resolvedSince now =>
    c.applyConsensusConfirm consensusId responderId stillSuspicious resolvedSince now
  | .heartbeatTick now => c.driveConsensusFsmAt now

end ConsensusCoordinator

/-- The steps into which the handling of an event falls: the drive loop polls several times. -/
inductive ConsensusMove
  | secondaryJoined (id : String)
  | secondaryLeft (id : String)
  | keepalive (id : String)
  | silentHeldWork (suspectIds : Finset String)
  | suspect (suspectIds : Finset String) (now primaryEpoch memberGen : ℕ)
  | resolvedPeer (consensusId : ℕ) (observerId resolvedPeer : String)
  | restartConfirm (consensusId : ℕ) (responderId : String)
      (stillSuspicious resolvedSince : Finset String)
  | poll (now : ℕ)

namespace ConsensusCoordinator

/-- The calls that a step makes. -/
def calls (c : ConsensusCoordinator) : ConsensusMove → List ConsensusCall
  | .secondaryJoined _ | .secondaryLeft _ => []
  | .keepalive id => if id ∈ c.secondaries then [.clearSchedulingSuspectIfPresent id] else []
  | .silentHeldWork suspectIds => [.setSchedulingSuspect suspectIds]
  | .suspect suspectIds now primaryEpoch memberGen =>
    if suspectIds = ∅ then []
    else if c.fsm.currentConsensusId.isSome then [.setSchedulingSuspect suspectIds]
    else [.setSchedulingSuspect suspectIds,
      .escalate now primaryEpoch memberGen (c.secondaries \ suspectIds)]
  | .resolvedPeer consensusId observerId resolvedPeer =>
    [.applyResolved consensusId observerId resolvedPeer]
  | .restartConfirm consensusId responderId stillSuspicious resolvedSince =>
    [.applyConfirm consensusId responderId stillSuspicious resolvedSince]
  | .poll now => [.poll now c.consensusMeshSnapshot]

/-- The roster after a step. -/
def roster (c : ConsensusCoordinator) : ConsensusMove → Finset String
  | .secondaryJoined id => insert id c.secondaries
  | .secondaryLeft id => c.secondaries.erase id
  | .poll now => (c.pollOnce now).1.secondaries
  | _ => c.secondaries

/-- One step. -/
def move (c : ConsensusCoordinator) (m : ConsensusMove) : ConsensusCoordinator :=
  ⟨(c.calls m).foldl step c.fsm, c.roster m⟩

/-- The record of the round, kept through the calls of a step. -/
def recordMove (c : ConsensusCoordinator) (history : RoundHistory) (m : ConsensusMove) :
    RoundHistory :=
  ((c.calls m).foldl (fun (fsm, history) call => (step fsm call,
    record history fsm call)) (c.fsm, history)).2

/-- A pass is a poll of the machine with the snapshot of the moment. -/
theorem pollOnce_eq (c : ConsensusCoordinator) {now : ℕ} :
    (c.pollOnce now).1.fsm = (c.fsm.poll now c.consensusMeshSnapshot).1 ∧
      (c.pollOnce now).2 = (c.fsm.poll now c.consensusMeshSnapshot).2 := by
  unfold pollOnce
  split
  all_goals
    rename_i hpoll
    rw [hpoll]
    exact ⟨rfl, rfl⟩

section Handle

variable (c : ConsensusCoordinator) (now : ℕ)

/-- A poll is one pass of the drive loop. -/
theorem move_poll : c.move (.poll now) = (c.pollOnce now).1 :=
  congrArg (fun fsm => (⟨fsm, (c.pollOnce now).1.secondaries⟩ : ConsensusCoordinator))
    c.pollOnce_eq.1.symm

/-- The drive loop is a sequence of polls. -/
theorem driveLoop_moves (budget : ℕ) :
    ∃ moves : List ConsensusMove, (driveLoop now budget c).1 = moves.foldl move c := by
  induction budget generalizing c with
  | zero => exact ⟨[], rfl⟩
  | succ budget ih =>
    obtain ⟨moves, hmoves⟩ := ih (c.pollOnce now).1
    rw [driveLoop]
    split
    · rename_i c' hpoll
      refine ⟨[.poll now], ?_⟩
      rw [List.foldl_cons, List.foldl_nil, move_poll, hpoll]
    · rename_i c' output _ hpoll
      refine ⟨.poll now :: moves, ?_⟩
      rw [List.foldl_cons, move_poll, ← hmoves, hpoll]

/-- A step, and then the drive loop. -/
theorem driveConsensusFsmAt_moves (m : ConsensusMove) :
    ∃ moves : List ConsensusMove, ((c.move m).driveConsensusFsmAt now).1 = moves.foldl move c := by
  obtain ⟨moves, hmoves⟩ := driveLoop_moves (c.move m) now 8
  exact ⟨m :: moves, hmoves⟩

/-- **The handling of an event is a sequence of steps**, so the runs of steps cover the runs of
events. -/
theorem handle_moves (event : ConsensusEvent) :
    ∃ moves : List ConsensusMove, (c.handle event).1 = moves.foldl move c := by
  cases event with
  | secondaryJoined id => exact ⟨[.secondaryJoined id], rfl⟩
  | secondaryLeft id => exact ⟨[.secondaryLeft id], rfl⟩
  | silentHeldWork suspectIds => exact ⟨[.silentHeldWork suspectIds], rfl⟩
  | keepalive id =>
    refine ⟨[.keepalive id], ?_⟩
    simp only [handle, List.foldl_cons, List.foldl_nil, move, calls, roster]
    split_ifs <;> rfl
  | hardBackstop suspectIds now primaryEpoch memberGen =>
    have hdrive := c.driveConsensusFsmAt_moves now (.suspect suspectIds now primaryEpoch memberGen)
    simp only [handle, hardBackstop]
    split_ifs with hempty hflight
    · exact ⟨[], rfl⟩
    · refine ⟨[.suspect suspectIds now primaryEpoch memberGen], ?_⟩
      simp only [List.foldl_cons, List.foldl_nil, move, calls, roster, hempty, hflight, if_false,
        if_true]
      rfl
    · simp only [move, calls, roster, hempty, hflight, if_false] at hdrive
      exact hdrive
  | resolvedPeer consensusId observerId resolvedPeer now =>
    exact c.driveConsensusFsmAt_moves now (.resolvedPeer consensusId observerId resolvedPeer)
  | restartConfirm consensusId responderId stillSuspicious resolvedSince now =>
    exact c.driveConsensusFsmAt_moves now
      (.restartConfirm consensusId responderId stillSuspicious resolvedSince)
  | heartbeatTick now => exact c.driveLoop_moves now 8

end Handle

/-- The states of the runs whose steps are all allowed, with the records of their rounds. A
primary starts with a fresh machine and any roster. -/
inductive Reached (allowed : ConsensusCoordinator → ConsensusMove → Prop) :
    ConsensusCoordinator → RoundHistory → Prop
  | start (secondaries : Finset String) : Reached allowed ⟨.new, secondaries⟩ {}
  | move {c : ConsensusCoordinator} {history : RoundHistory} (m : ConsensusMove)
      (hreached : Reached allowed c history) (hallowed : allowed c m) :
      Reached allowed (c.move m) (c.recordMove history m)

/-- In a run the machine agrees with the record of its round. -/
theorem Reached.agrees {allowed : ConsensusCoordinator → ConsensusMove → Prop}
    {c : ConsensusCoordinator} {history : RoundHistory} (h : Reached allowed c history) :
    history.Agrees c.fsm.state := by
  induction h with
  | start => trivial
  | @move c history m _ _ ih =>
    have hcalls : ∀ (l : List ConsensusCall) (fsm : ConsensusFsm) (history : RoundHistory),
        history.Agrees fsm.state →
        (l.foldl (fun (fsm, history) call => (step fsm call,
          record history fsm call)) (fsm, history)).2.Agrees (l.foldl step fsm).state := by
      intro l
      induction l with
      | nil => exact fun _ _ hagrees => hagrees
      | cons call l ih => exact fun _ _ hagrees => ih _ _ (hagrees.step call)
    exact hcalls (c.calls m) c.fsm history ih

/-- Everyone whom the gate counts has been asked: at a poll that may send the first
`RestartRequest`, every secondary that is known and not suspected is an expected responder. A round
that has lost all its suspects sends none. -/
def AsksEveryone (c : ConsensusCoordinator) : ConsensusMove → Prop
  | .poll now =>
    match c.fsm.state with
    | .collectingResolutions round deadline _ =>
      round.set ≠ ∅ → deadline ≤ now → c.secondaries \ round.set ⊆ round.expectedResponders
    | .broadcastRestart round _ => c.secondaries \ round.set ⊆ round.expectedResponders
    | _ => True
  | _ => True

instance (c : ConsensusCoordinator) (m : ConsensusMove) : Decidable (c.AsksEveryone m) := by
  unfold AsksEveryone
  split
  · split <;> infer_instance
  · infer_instance

/-- What the record of a round says about the roster. -/
structure Counted (history : RoundHistory) : Prop where
  apart : Disjoint history.responders history.suspects
  asked : ∀ mesh, history.request = some mesh → mesh.livePeerCount ≤ history.responders.card

section Counting

variable {c : ConsensusCoordinator} {history : RoundHistory}
  {consensusId memberGen now primaryEpoch : ℕ}

/-- At the first request, which is sent at the end of the resolutions, the secondaries that are not
suspected have been asked. -/
theorem card_le_of_request {candidates : Finset String} (hagrees : history.Agrees c.fsm.state)
    (hasks : c.AsksEveryone (.poll now)) (hfirst : history.request = none)
    (h : (c.fsm.poll now c.consensusMeshSnapshot).2 =
      .emitFrame (.restartRequest consensusId primaryEpoch memberGen candidates)) :
    (c.secondaries \ c.fsm.inFlightSuspects).card ≤ history.responders.card := by
  cases hstate : c.fsm.state with
  | collectingResolutions =>
    rw [hstate] at hagrees
    simp only [AsksEveryone, hstate] at hasks
    simp only [poll, hstate] at h
    rw [← hagrees.1.responders, inFlightSuspects, hstate]
    split_ifs at h with hempty hdeadline
    · cases h
    · exact card_le_card (hasks hempty hdeadline)
  | broadcastRestart =>
    rw [hstate] at hagrees
    simp only [AsksEveryone, hstate] at hasks
    rw [← hagrees.1.responders, inFlightSuspects, hstate]
    exact card_le_card hasks
  | collectingConfirmations =>
    -- While confirmations are collected the record has a request.
    rw [hstate] at hagrees
    obtain ⟨-, ⟨mesh, hmesh, -⟩, -⟩ := hagrees
    cases hfirst.symm.trans hmesh
  | _ =>
    simp only [poll, hstate] at h
    cases h

/-- A first request counts only secondaries that were asked. -/
theorem Counted.poll (h : Counted history) (hagrees : history.Agrees c.fsm.state)
    (hasks : c.AsksEveryone (.poll now)) : Counted (c.recordMove history (.poll now)) := by
  change Counted (history.record c.fsm (.poll now c.consensusMeshSnapshot))
  simp only [record]
  split
  · rename_i hrequest
    refine ⟨h.apart, fun mesh hmesh => ?_⟩
    cases hold : history.request with
    | some =>
      rw [hold] at hmesh
      exact h.asked mesh (hold.trans hmesh)
    | none =>
      rw [hold] at hmesh
      cases hmesh
      have hasked := card_le_of_request hagrees hasks hold hrequest
      exact hasked
  · exact h

/-- Escalated secondaries are not asked about themselves. -/
theorem Counted.suspect (h : Counted history) (suspectIds : Finset String)
    (now primaryEpoch memberGen : ℕ) :
    Counted (c.recordMove history (.suspect suspectIds now primaryEpoch memberGen)) := by
  simp only [recordMove, calls]
  split_ifs with hempty hflight
  · exact h
  · exact h
  · change Counted (history.record (c.fsm.setSchedulingSuspect suspectIds)
      (.escalate now primaryEpoch memberGen (c.secondaries \ suspectIds)))
    have hnew : Counted
        { suspects := suspectIds, responders := c.secondaries \ suspectIds } :=
      ⟨sdiff_disjoint, fun mesh hmesh => by cases hmesh⟩
    simp only [record, setSchedulingSuspect]
    cases hstate : c.fsm.state with
    | idle | schedulingSuspect => simpa only [hempty, if_false] using hnew
    | broadcastSuspect | collectingResolutions | broadcastRestart | collectingConfirmations =>
      simp [currentConsensusId, hstate] at hflight
    | _ => simpa only [hstate] using h

/-- In every run the answers are counted once. -/
theorem Reached.counted (h : Reached AsksEveryone c history) : Counted history := by
  induction h with
  | start => exact ⟨disjoint_empty_left _, fun mesh hmesh => by cases hmesh⟩
  | @move c history m hreached hallowed ih =>
    cases m with
    | secondaryJoined | secondaryLeft | silentHeldWork => exact ih
    | keepalive =>
      simp only [recordMove, ConsensusCoordinator.calls]
      split_ifs
      · exact ih
      · exact ih
    | suspect suspectIds now primaryEpoch memberGen =>
      exact ih.suspect suspectIds now primaryEpoch memberGen
    | resolvedPeer consensusId observerId resolvedPeer =>
      change Counted (history.record c.fsm (.applyResolved consensusId observerId resolvedPeer))
      simp only [record]
      split_ifs
      · exact ⟨ih.apart, ih.asked⟩
      · exact ih
    | restartConfirm consensusId responderId stillSuspicious resolvedSince =>
      change Counted (history.record c.fsm
        (.applyConfirm consensusId responderId stillSuspicious resolvedSince))
      simp only [record]
      split_ifs
      · exact ⟨ih.apart, ih.asked⟩
      · exact ih
    | poll => exact ih.poll hreached.agrees hallowed

/-- **A restart is backed by a majority.** In every run in which the side gate counts only
secondaries that were asked: when a poll commits a restart, at least as many secondaries as the
failover quorum of the members known at the gate, none of them a target, have answered this round
with every target still suspicious. -/
theorem restart_majority (hreached : Reached AsksEveryone c history) {now : ℕ}
    {targets : Finset String} (hcommit : (c.pollOnce now).2 = .restart targets) :
    ∃ mesh voters, history.request = some mesh ∧
      failoverQuorumThreshold mesh.totalKnownMembers ≤ card voters ∧
      Disjoint voters targets ∧
      ∀ voter ∈ voters, ∃ tally,
        (voter, tally) ∈ history.answers ∧ targets ⊆ tally.stillSuspicious := by
  rw [(c.pollOnce_eq).2] at hcommit
  obtain ⟨hsuspects, hanswers, ⟨mesh, hmesh, hgate⟩, -⟩ := restart_of_agrees hreached.agrees hcommit
  have hcounted := hreached.counted
  refine ⟨mesh, history.responders, hmesh, hgate.trans (hcounted.asked mesh hmesh), ?_, hanswers⟩
  exact hcounted.apart.mono_right hsuspects

end Counting

end ConsensusCoordinator

namespace Sample

open ConsensusCoordinator

/-- The handling of several events by a primary with the given secondaries, with all outputs. -/
def handleAll (secondaries : Finset String) (events : List ConsensusEvent) :
    ConsensusCoordinator × List ConsensusOutput :=
  events.foldl (fun (c, outputs) event =>
    let (c, new) := c.handle event
    (c, outputs ++ new)) (⟨.new, secondaries⟩, [])

/-- One of two secondaries is silent; four others join before the gate. -/
def joinedLate : List ConsensusEvent :=
  [.hardBackstop {"d"} 0 1 0, .secondaryJoined "w", .secondaryJoined "x", .secondaryJoined "y",
    .secondaryJoined "z", .heartbeatTick 15000, .restartConfirm 1 "a" {"d"} ∅ 15001]

/-- Three of five secondaries are silent; two of the three are resolved before the gate. -/
def resolvedEarly : List ConsensusEvent :=
  [.hardBackstop {"d", "e", "f"} 0 1 0, .resolvedPeer 1 "a" "e" 1, .resolvedPeer 1 "a" "f" 2,
    .heartbeatTick 15000, .restartConfirm 1 "a" {"d"} ∅ 15001, .restartConfirm 1 "b" {"d"} ∅ 15002]

/-- How many `RestartConfirm`s arrive. -/
def confirms (events : List ConsensusEvent) : ℕ :=
  events.countP fun event => match event with
    | .restartConfirm _ _ _ _ _ => true
    | _ => false

/-- **A restart without a majority.** In the first run the gate counts six secondaries, so the
quorum is five, and one secondary answers at all; in the second one the gate counts five
secondaries, so the quorum is four, and two answer. -/
theorem restart_without_majority :
    (.restart {"d"} ∈ (handleAll {"a", "d"} joinedLate).2 ∧ confirms joinedLate <
        failoverQuorumThreshold
          ((handleAll {"a", "d"} (joinedLate.take 5)).1.secondaries.card + 1)) ∧
      .restart {"d"} ∈ (handleAll {"a", "b", "d", "e", "f"} resolvedEarly).2 ∧
        confirms resolvedEarly < failoverQuorumThreshold
          ((handleAll {"a", "b", "d", "e", "f"}
            (resolvedEarly.take 3)).1.secondaries.card + 1) := by
  decide +kernel

/-- A run without a change of the roster: four of five secondaries confirm the fifth. -/
def fourConfirm : List ConsensusMove :=
  [.suspect {"d"} 0 1 0, .poll 0, .poll 15000, .poll 15000, .restartConfirm 1 "a" {"d"} ∅,
    .restartConfirm 1 "b" {"d"} ∅, .restartConfirm 1 "c" {"d"} ∅, .restartConfirm 1 "e" {"d"} ∅]

/-- The steps of a run with the record of its round. -/
def replay (secondaries : Finset String) (moves : List ConsensusMove) :
    ConsensusCoordinator × RoundHistory :=
  moves.foldl (fun (c, history) m => (c.move m, c.recordMove history m)) (⟨.new, secondaries⟩, {})

/-- In the sample four of five confirm, which is a majority. -/
theorem fourConfirm_majority :
    ((replay {"a", "b", "c", "d", "e"} fourConfirm).1.pollOnce 15001).2 = .restart {"d"} ∧
      ∃ mesh voters, (replay {"a", "b", "c", "d", "e"} fourConfirm).2.request = some mesh ∧
        failoverQuorumThreshold mesh.totalKnownMembers ≤ card voters ∧
        Disjoint voters {"d"} ∧
        ∀ voter ∈ voters, ∃ tally,
          (voter, tally) ∈ (replay {"a", "b", "c", "d", "e"} fourConfirm).2.answers ∧
            {"d"} ⊆ tally.stillSuspicious := by
  have hcommit :
      ((replay {"a", "b", "c", "d", "e"} fourConfirm).1.pollOnce 15001).2 = .restart {"d"} := by
    decide +kernel
  refine ⟨hcommit, restart_majority ?_ hcommit⟩
  exact .move _ (.move _ (.move _ (.move _ (.move _ (.move _ (.move _ (.move _ (.start _)
    trivial) trivial) (by decide +kernel)) (by decide +kernel)) trivial) trivial) trivial) trivial

end Sample

end DynRunner
