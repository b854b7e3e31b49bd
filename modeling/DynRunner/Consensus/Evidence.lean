import DynRunner.Consensus.Primary

/-!
# A restart is never against the evidence

Beside the state machine runs a record of its round: the suspects that were escalated, the
secondaries that were asked, the snapshot with which the `RestartRequest` was first sent, and every
answer and resolution that was applied since the escalation. The machine itself forgets part of
that, as a second answer replaces the first one of a responder and the resolved peers only leave
the set. What it keeps is enough: a peer that the machine restarts is one that the record has no
word for.
-/

namespace DynRunner

open Consensus ConsensusFsm Finset

/-- The calls of the state machine. -/
inductive ConsensusCall
  | setSchedulingSuspect (set : Finset String)
  | clearSchedulingSuspectIfPresent (peerId : String)
  | escalate (now primaryEpoch memberGen : ℕ) (expectedResponders : Finset String)
  | applyResolved (consensusId : ℕ) (observerId resolvedPeer : String)
  | applyConfirm (consensusId : ℕ) (responderId : String)
      (stillSuspicious resolvedSince : Finset String)
  | poll (now : ℕ) (mesh : MeshSnapshot)

namespace ConsensusState

/-- Whether a `ResolvedPeer` of a round is applied: the round is open and has been announced. -/
def takesResolved (state : ConsensusState) (consensusId : ℕ) : Bool :=
  match state with
  | .collectingResolutions round _ _ | .broadcastRestart round _
  | .collectingConfirmations round _ _ _ => round.consensusId = consensusId
  | _ => false

/-- Whether a `RestartConfirm` of a round is applied: the confirmations are being collected, and
the responder was asked. -/
def takesConfirm (state : ConsensusState) (consensusId : ℕ) (responderId : String) : Bool :=
  match state with
  | .collectingConfirmations round _ _ _ =>
    round.consensusId = consensusId ∧ responderId ∈ round.expectedResponders
  | _ => false

end ConsensusState

namespace ConsensusFsm

/-- The effect of a call on the machine. -/
def step (fsm : ConsensusFsm) : ConsensusCall → ConsensusFsm
  | .setSchedulingSuspect set => fsm.setSchedulingSuspect set
  | .clearSchedulingSuspectIfPresent peerId => fsm.clearSchedulingSuspectIfPresent peerId
  | .escalate now primaryEpoch memberGen expectedResponders =>
    fsm.escalate now primaryEpoch memberGen expectedResponders
  | .applyResolved consensusId observerId resolvedPeer =>
    fsm.applyResolved consensusId observerId resolvedPeer
  | .applyConfirm consensusId responderId stillSuspicious resolvedSince =>
    fsm.applyConfirm consensusId responderId stillSuspicious resolvedSince
  | .poll now mesh => (fsm.poll now mesh).1

end ConsensusFsm

namespace Consensus

/-- What has happened in a round since its escalation. Answers that were replaced stay. -/
structure RoundHistory where
  /-- The peers that the round is about. -/
  suspects : Finset String := ∅
  /-- The peers whose answers are expected. -/
  responders : Finset String := ∅
  /-- The mesh when the confirmations were asked for. -/
  request : Option MeshSnapshot := none
  /-- The answers that have arrived. -/
  answers : List (String × ConfirmTally) := []
  /-- The peers that were reported as resolved. -/
  resolutions : List String := []

namespace RoundHistory

variable (history : RoundHistory)

/-- Write down a call, given the state of the machine in which it was made. -/
def record (fsm : ConsensusFsm) : ConsensusCall → RoundHistory
  | .escalate _ _ _ expectedResponders =>
    match fsm.state with
    | .schedulingSuspect suspects => { suspects, responders := expectedResponders }
    | _ => history
  | .applyResolved consensusId _ resolvedPeer =>
    if fsm.state.takesResolved consensusId then
      { history with resolutions := history.resolutions ++ [resolvedPeer] }
    else history
  | .applyConfirm consensusId responderId stillSuspicious resolvedSince =>
    if fsm.state.takesConfirm consensusId responderId then
      { history with
        answers := history.answers ++ [(responderId, ⟨stillSuspicious, resolvedSince⟩)] }
    else history
  | .poll now mesh =>
    match (fsm.poll now mesh).2 with
    | .emitFrame (.restartRequest ..) => { history with request := history.request.or (some mesh) }
    | _ => history
  | _ => history

/-- No word for a peer has been applied. -/
def Unresolved (peer : String) : Prop :=
  peer ∉ history.resolutions ∧ ∀ answer ∈ history.answers, peer ∉ answer.2.resolvedSince

/-- The set of a round: suspects of the escalation for whom nobody has spoken. -/
structure Backs (history : RoundHistory) (round : Round) : Prop where
  responders : round.expectedResponders = history.responders
  suspects : round.set ⊆ history.suspects
  unresolved : ∀ peer ∈ round.set, history.Unresolved peer

/-- The snapshot of the first `RestartRequest` passed the side gate. -/
def PassedGate : Prop :=
  ∃ mesh, history.request = some mesh ∧
    failoverQuorumThreshold mesh.totalKnownMembers ≤ mesh.livePeerCount

/-- What the machine knows of its round agrees with the record. -/
def Agrees : ConsensusState → Prop
  | .broadcastSuspect round _ | .collectingResolutions round _ _ | .broadcastRestart round _ =>
    history.Backs round ∧ history.request = none
  | .collectingConfirmations round receivedConfirms _ _ =>
    history.Backs round ∧ history.PassedGate ∧
      ∀ responder tally, receivedConfirms.lookup responder = some tally →
        (responder, tally) ∈ history.answers
  | _ => True

section Recording

variable {history : RoundHistory} {round : Round}
  {expectedResponders resolvedSince set stillSuspicious : Finset String}
  {observerId peerId resolvedPeer responder responderId : String}

/-- A peer that is spoken for leaves the set. -/
theorem Backs.resolve (h : history.Backs round) (peer : String) :
    { history with resolutions := history.resolutions ++ [peer] }.Backs
      { round with set := round.set.erase peer } where
  responders := h.responders
  suspects := (erase_subset _ _).trans h.suspects
  unresolved := by
    intro other hother
    obtain ⟨hne, hmem⟩ := mem_erase.mp hother
    obtain ⟨hresolutions, hanswers⟩ := h.unresolved other hmem
    exact ⟨by simpa [hresolutions] using hne, hanswers⟩

/-- So do the peers that an answer speaks for. -/
theorem Backs.answer (h : history.Backs round) {tally : ConfirmTally} :
    { history with answers := history.answers ++ [(responder, tally)] }.Backs
      { round with set := round.set \ tally.resolvedSince } where
  responders := h.responders
  suspects := sdiff_subset.trans h.suspects
  unresolved := by
    intro peer hpeer
    obtain ⟨hmem, hnot⟩ := mem_sdiff.mp hpeer
    obtain ⟨hresolutions, hanswers⟩ := h.unresolved peer hmem
    refine ⟨hresolutions, fun answer hanswer => ?_⟩
    rcases List.mem_append.mp hanswer with hold | hnew
    · exact hanswers answer hold
    · rw [List.mem_singleton.mp hnew]
      exact hnot

variable {mesh : MeshSnapshot} {now consensusId : ℕ}

/-- Polling for the restart: the round goes on behind the gate, or it is over. -/
theorem Agrees.pollRestart (hbacks : history.Backs round) (hnone : history.request = none)
    (fsm : ConsensusFsm) (retriesLeft now : ℕ) :
    (match (fsm.pollRestart round retriesLeft now mesh).2 with
      | .emitFrame (.restartRequest ..) =>
        { history with request := history.request.or (some mesh) }
      | _ => history).Agrees (fsm.pollRestart round retriesLeft now mesh).1.state := by
  unfold ConsensusFsm.pollRestart
  split_ifs with hgate
  · trivial
  · refine ⟨⟨hbacks.responders, hbacks.suspects, hbacks.unresolved⟩, ⟨mesh, ?_, ?_⟩, ?_⟩
    · rw [hnone]
      rfl
    · exact Nat.le_of_not_lt hgate
    · intro responder tally hlookup
      cases hlookup

variable {fsm : ConsensusFsm} (h : history.Agrees fsm.state)
include h

/-- Between rounds nothing is compared. -/
theorem agrees_setSchedulingSuspect : history.Agrees (fsm.setSchedulingSuspect set).state := by
  unfold setSchedulingSuspect
  split
  · split
    · exact h
    · trivial
  · split
    · trivial
    · trivial
  · exact h

/-- Forgetting a suspicion agrees with the history. -/
theorem agrees_clearSchedulingSuspect :
    history.Agrees (fsm.clearSchedulingSuspectIfPresent peerId).state := by
  unfold clearSchedulingSuspectIfPresent
  split
  · split
    · split
      · trivial
      · trivial
    · exact h
  · exact h

/-- A new round starts with an empty record. -/
theorem agrees_escalate {primaryEpoch memberGen : ℕ} :
    (history.record fsm (.escalate now primaryEpoch memberGen expectedResponders)).Agrees
      (fsm.escalate now primaryEpoch memberGen expectedResponders).state := by
  unfold escalate
  cases hstate : fsm.state with
  | schedulingSuspect =>
    simp only [record, hstate]
    split_ifs
    · trivial
    · refine ⟨⟨rfl, subset_rfl, fun peer _ => ⟨List.not_mem_nil, ?_⟩⟩, rfl⟩
      exact fun answer hanswer => by cases hanswer
  | _ => simpa only [record, hstate] using h

/-- A resolved peer agrees with the history that records it. -/
theorem agrees_applyResolved :
    (history.record fsm (.applyResolved consensusId observerId resolvedPeer)).Agrees
      (fsm.applyResolved consensusId observerId resolvedPeer).state := by
  unfold applyResolved
  cases hstate : fsm.state with
  | collectingResolutions =>
    rw [hstate] at h
    have hresolved := h.1.resolve resolvedPeer
    simp only [record, ConsensusState.takesResolved, hstate, decide_eq_true_eq]
    split_ifs with hid hmem
    · exact ⟨hresolved, h.2⟩
    · rw [erase_eq_of_notMem hmem] at hresolved
      rw [hstate]
      exact ⟨hresolved, h.2⟩
    · rwa [hstate]
  | broadcastRestart | collectingConfirmations =>
    rw [hstate] at h
    simp only [record, ConsensusState.takesResolved, hstate, decide_eq_true_eq]
    split_ifs
    · exact ⟨h.1.resolve resolvedPeer, h.2⟩
    · rwa [hstate]
  | _ => simpa [record, ConsensusState.takesResolved, hstate] using h

/-- A confirmation agrees with the history that records it. -/
theorem agrees_applyConfirm : (history.record fsm
        (.applyConfirm consensusId responderId stillSuspicious resolvedSince)).Agrees
      (fsm.applyConfirm consensusId responderId stillSuspicious resolvedSince).state := by
  unfold applyConfirm
  cases hstate : fsm.state with
  | collectingConfirmations =>
    rw [hstate] at h
    obtain ⟨hbacks, hgate, hanswers⟩ := h
    simp only [record, ConsensusState.takesConfirm, hstate, decide_eq_true_eq]
    split_ifs
    · refine ⟨hbacks.answer, hgate, ?_⟩
      intro responder tally hlookup
      rw [HashMap.lookup_insert_eq] at hlookup
      refine List.mem_append.mpr ?_
      split_ifs at hlookup with heq
      · cases hlookup
        rw [heq]
        exact Or.inr (List.mem_singleton_self _)
      · exact Or.inl (hanswers responder tally hlookup)
    · rw [hstate]
      exact ⟨hbacks, hgate, hanswers⟩
  | _ => simpa [record, ConsensusState.takesConfirm, hstate] using h

/-- A poll agrees with the history that records it. -/
theorem agrees_poll : (history.record fsm (.poll now mesh)).Agrees (fsm.poll now mesh).1.state := by
  cases hstate : fsm.state with
  | broadcastSuspect =>
    rw [hstate] at h
    simp only [record, poll, hstate]
    exact h
  | collectingResolutions =>
    rw [hstate] at h
    obtain ⟨hbacks, hnone⟩ := h
    simp only [record, poll, hstate]
    split_ifs
    · trivial
    · exact Agrees.pollRestart hbacks hnone fsm _ now
    · rw [hstate]
      exact ⟨hbacks, hnone⟩
  | broadcastRestart =>
    rw [hstate] at h
    simp only [record, poll, hstate]
    exact Agrees.pollRestart h.1 h.2 fsm _ now
  | collectingConfirmations =>
    rw [hstate] at h
    obtain ⟨hbacks, ⟨mesh₀, hmesh, hgate⟩, hanswers⟩ := h
    simp only [record, poll, hstate]
    split_ifs
    · trivial
    · trivial
    · -- The request is repeated; the record has the first one.
      refine ⟨⟨hbacks.responders, hbacks.suspects, hbacks.unresolved⟩, ⟨mesh₀, ?_, hgate⟩, hanswers⟩
      rw [hmesh]
      rfl
    · trivial
    · rw [hstate]
      exact ⟨hbacks, ⟨mesh₀, hmesh, hgate⟩, hanswers⟩
  | _ => simpa only [record, poll, hstate] using h

/-- One call. -/
theorem Agrees.step (call : ConsensusCall) :
    (history.record fsm call).Agrees (fsm.step call).state := by
  cases call with
  | setSchedulingSuspect => exact agrees_setSchedulingSuspect h
  | clearSchedulingSuspectIfPresent => exact agrees_clearSchedulingSuspect h
  | escalate => exact agrees_escalate h
  | applyResolved => exact agrees_applyResolved h
  | applyConfirm => exact agrees_applyConfirm h
  | poll => exact agrees_poll h

end Recording

end RoundHistory

/-- The machine and the record of its round, after some calls of a fresh machine. -/
def trace (calls : List ConsensusCall) : ConsensusFsm × RoundHistory :=
  calls.foldl (fun (fsm, history) call => (fsm.step call, history.record fsm call)) (.new, {})

/-- After any calls the machine agrees with its history. -/
theorem trace_agrees {calls : List ConsensusCall} :
    (trace calls).2.Agrees (trace calls).1.state := by
  refine List.foldlRecOn (motive := fun acc : ConsensusFsm × RoundHistory =>
    acc.2.Agrees acc.1.state) calls _ trivial ?_
  rintro ⟨fsm, history⟩ h call -
  exact h.step call

end Consensus

namespace ConsensusFsm

/-- What is left of the set after all answers. -/
theorem mem_foldl_targets {entries : List (Sigma fun _ : String => ConfirmTally)}
    {set : Finset String} {target : String} (h : target ∈ entries.foldl
      (fun targets e => (targets ∩ e.2.stillSuspicious) \ e.2.resolvedSince) set) :
    target ∈ set ∧ ∀ e ∈ entries, target ∈ e.2.stillSuspicious := by
  induction entries generalizing set with
  | nil => exact ⟨h, fun _ he => by cases he⟩
  | cons e entries ih =>
    obtain ⟨hset, hentries⟩ := ih h
    obtain ⟨hboth, -⟩ := mem_sdiff.mp hset
    obtain ⟨hset', hstill⟩ := mem_inter.mp hboth
    exact ⟨hset', List.forall_mem_cons.mpr ⟨hstill, hentries⟩⟩

variable {fsm : ConsensusFsm} {now : ℕ} {mesh : MeshSnapshot} {targets : Finset String}

/-- When a poll restarts: every responder has answered, and the targets are what is left. -/
theorem poll_eq_restart (h : (fsm.poll now mesh).2 = .restart targets) :
    ∃ round receivedConfirms deadline retriesLeft,
      fsm.state = .collectingConfirmations round receivedConfirms deadline retriesLeft ∧
      (∀ id ∈ round.expectedResponders, id ∈ receivedConfirms) ∧
      targets = restartTargets round receivedConfirms := by
  have hgate : ∀ (round : Round) (retriesLeft : ℕ),
      (fsm.pollRestart round retriesLeft now mesh).2 ≠ .restart targets := by
    intro round retriesLeft
    unfold pollRestart
    split_ifs <;> simp [finalizeTerminal]
  cases hstate : fsm.state with
  | collectingConfirmations round receivedConfirms deadline retriesLeft =>
    refine ⟨round, receivedConfirms, deadline, retriesLeft, rfl, ?_⟩
    simp only [poll, hstate] at h
    split_ifs at h with hall hempty
    · cases h
    · cases h
      exact ⟨hall, rfl⟩
    · cases h
  | collectingResolutions =>
    simp only [poll, hstate] at h
    split_ifs at h
    · cases h
    · exact (hgate _ _ h).elim
  | broadcastRestart =>
    simp only [poll, hstate] at h
    exact (hgate _ _ h).elim
  | _ =>
    simp only [poll, hstate] at h
    cases h

/-- A machine that agrees with the record of its round restarts only what the record backs. -/
theorem restart_of_agrees {history : RoundHistory} (hagrees : history.Agrees fsm.state)
    (h : (fsm.poll now mesh).2 = .restart targets) : targets ⊆ history.suspects ∧
      (∀ responder ∈ history.responders, ∃ tally,
        (responder, tally) ∈ history.answers ∧ targets ⊆ tally.stillSuspicious) ∧
      history.PassedGate ∧ ∀ target ∈ targets, history.Unresolved target := by
  obtain ⟨round, receivedConfirms, deadline, retriesLeft, hstate, hall, rfl⟩ := poll_eq_restart h
  rw [hstate] at hagrees
  obtain ⟨hbacks, hgate, hanswers⟩ := hagrees
  have hset : restartTargets round receivedConfirms ⊆ round.set :=
    fun target htarget => (mem_foldl_targets htarget).1
  refine ⟨hset.trans hbacks.suspects, fun responder hresponder => ?_, hgate,
    fun target htarget => hbacks.unresolved target (hset htarget)⟩
  rw [← hbacks.responders] at hresponder
  obtain ⟨tally, hlookup⟩ := HashMap.mem_iff_lookup.mp (hall responder hresponder)
  refine ⟨tally, hanswers responder tally hlookup, fun target htarget => ?_⟩
  exact (mem_foldl_targets htarget).2 _ (HashMap.mem_entries_iff.mpr hlookup)

/-- **No restart against the evidence.** Whatever was called before: when a poll restarts, every
target was a suspect of the escalation, everyone who was asked has answered this round with all
targets still suspicious, the side gate held when the `RestartRequest` was first sent, and since
the escalation nothing that was applied, an answer that was replaced later included, has named a
target as resolved. -/
theorem restart_backed (calls : List ConsensusCall) (now : ℕ) (mesh : MeshSnapshot)
    (targets : Finset String) (h : ((trace calls).1.poll now mesh).2 = .restart targets) :
    targets ⊆ (trace calls).2.suspects ∧ (∀ responder ∈ (trace calls).2.responders, ∃ tally,
        (responder, tally) ∈ (trace calls).2.answers ∧ targets ⊆ tally.stillSuspicious) ∧
      (trace calls).2.PassedGate ∧
      ∀ target ∈ targets, (trace calls).2.Unresolved target :=
  restart_of_agrees trace_agrees h

end ConsensusFsm

namespace Sample

/-- A round about the peer `"d"`, in which `"a"`, `"b"` and `"c"` are asked and confirm; `"a"` does
so twice. -/
def confirmedRound : List ConsensusCall :=
  [.setSchedulingSuspect {"d"}, .escalate 0 1 0 {"a", "b", "c"}, .poll 0 ⟨3, 5⟩,
    .poll 15000 ⟨4, 5⟩, .applyConfirm 1 "a" {"d"} ∅, .applyConfirm 1 "b" {"d"} ∅,
    .applyConfirm 1 "a" {"d"} ∅, .applyConfirm 1 "c" {"d"} ∅]

/-- In the sample the restart is backed by every answer. -/
theorem confirmedRound_backed : ((trace confirmedRound).1.poll 15001 ⟨4, 5⟩).2 = .restart {"d"} ∧
      {"d"} ⊆ (trace confirmedRound).2.suspects ∧
      (∀ responder ∈ (trace confirmedRound).2.responders, ∃ tally,
        (responder, tally) ∈ (trace confirmedRound).2.answers ∧ {"d"} ⊆ tally.stillSuspicious) ∧
      (trace confirmedRound).2.PassedGate ∧
      ∀ target ∈ ({"d"} : Finset String), (trace confirmedRound).2.Unresolved target :=
  ⟨by decide +kernel, restart_backed confirmedRound 15001 ⟨4, 5⟩ {"d"} (by decide +kernel)⟩

end Sample

end DynRunner
