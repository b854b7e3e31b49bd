import DynRunner.Consensus.Evidence
import Mathlib.Algebra.BigOperators.Group.Finset.Basic
import Mathlib.Algebra.Order.Monoid.Prod
import Mathlib.Algebra.GroupWithZero.Nat
import Mathlib.Order.OrderIsoNat

/-!
# How a round ends

A round announces its suspects, asks for confirmations at most twice and then ends. Every poll at or
after the deadline of its state brings it one step closer to its end, and frames only take suspects
out of its set. When the set is emptied while confirmations are collected, nothing notices until the
deadline: the request is repeated without a candidate and the round is aborted. It ends as it should
when the set is not empty at a deadline that somebody has missed.
-/

namespace DynRunner

open Consensus ConsensusFsm ConsensusOutput ConsensusState Finset

/-- The frames and polls of a round. -/
def ConsensusCall.InRound : ConsensusCall → Prop
  | .applyResolved .. | .applyConfirm .. | .poll .. => True
  | _ => False

/-- What an output counts as: an announcement of the suspects, a `RestartRequest`, or an end. -/
@[simp] def ConsensusOutput.cost : ConsensusOutput → ℕ × ℕ × ℕ
  | .emitFrame (.suspectPeers ..) => (1, 0, 0)
  | .emitFrame (.restartRequest ..) => (0, 1, 0)
  | .dropSuspicion | .restart _ | .abort _ => (0, 0, 1)
  | _ => 0

/-- The candidates of a `RestartRequest`. -/
@[simp] def ConsensusOutput.candidates : ConsensusOutput → Option (Finset String)
  | .emitFrame (.restartRequest _ _ _ candidates) => some candidates
  | _ => none

namespace ConsensusState

/-- How many outputs of each kind are left to a round. -/
@[simp] def budget : ConsensusState → ℕ × ℕ × ℕ
  | .broadcastSuspect .. => (1, 1 + confirmationMaxRetries, 1)
  | .collectingResolutions .. => (0, 1 + confirmationMaxRetries, 1)
  | .broadcastRestart _ retriesLeft => (0, 1 + retriesLeft, 1)
  | .collectingConfirmations _ _ _ retriesLeft => (0, retriesLeft, 1)
  | _ => 0

/-- The time from which a poll takes the round further. -/
@[simp] def due : ConsensusState → ℕ
  | .collectingResolutions _ deadline _ | .collectingConfirmations _ _ deadline _ => deadline
  | _ => 0

end ConsensusState

namespace ConsensusFsm

variable (fsm : ConsensusFsm)

/-- What a call puts out. -/
def output : ConsensusCall → ConsensusOutput
  | .poll now mesh => (fsm.poll now mesh).2
  | _ => .idle

/-- A poll that asks has somebody to ask about: at a deadline that a responder has missed the set is
not empty. -/
def HasCandidates : ConsensusCall → Prop
  | .poll now _ =>
    match fsm.state with
    | .broadcastRestart round _ => round.set ≠ ∅
    | .collectingConfirmations round receivedConfirms deadline _ =>
      deadline ≤ now → (∀ id ∈ round.expectedResponders, id ∈ receivedConfirms) ∨ round.set ≠ ∅
    | _ => True
  | _ => True

/-- The machine after the first calls of a sequence. -/
def after (fsm : ConsensusFsm) (calls : ℕ → ConsensusCall) : ℕ → ConsensusFsm
  | 0 => fsm
  | n + 1 => (after fsm calls n).step (calls n)

/-- What a call of a sequence puts out. -/
def outputAt (calls : ℕ → ConsensusCall) (n : ℕ) : ConsensusOutput :=
  (fsm.after calls n).output (calls n)

/-- The next state and the output of a call in a round. -/
structure Turn (fsm : ConsensusFsm) (call : ConsensusCall) (next : ConsensusState)
    (out : ConsensusOutput) : Prop where
  /-- An output is paid from the budget. -/
  pays : next.budget + out.cost ≤ fsm.state.budget
  /-- The end is not paid for otherwise. -/
  keeps : next.budget.2.2 + out.cost.2.2 = fsm.state.budget.2.2
  counts : out.cost = 0 → out = .idle
  /-- Without an output nothing is due. -/
  waits : out = .idle → next.due = fsm.state.due ∧
    ∀ now mesh, call = .poll now mesh → fsm.state.due ≤ now → fsm.state.budget = 0
  shrinks : (⟨next, fsm.lastId⟩ : ConsensusFsm).inFlightSuspects ⊆ fsm.inFlightSuspects
  asks : fsm.HasCandidates call → out.candidates ≠ some ∅
  drops : out.cost.2.2 = 1 → fsm.HasCandidates call → fsm.inFlightSuspects = ∅ →
    out = .dropSuspicion

variable {fsm : ConsensusFsm} {call : ConsensusCall}

/-- The poll that asks first. -/
theorem turn_pollRestart {now retriesLeft : ℕ} {mesh : MeshSnapshot} {round : Round}
    (hbudget : fsm.state.budget = (0, 1 + retriesLeft, 1)) (hset : fsm.inFlightSuspects = round.set)
    (hne : fsm.HasCandidates (.poll now mesh) → round.set ≠ ∅) :
    fsm.Turn (.poll now mesh) (fsm.pollRestart round retriesLeft now mesh).1.state
      (fsm.pollRestart round retriesLeft now mesh).2 := by
  unfold pollRestart
  split_ifs
  · constructor <;> simp_all [finalizeTerminal, inFlightSuspects]
  · constructor <;> simp_all [inFlightSuspects, Nat.add_comm]

/-- What a frame or a poll does. -/
theorem turn (hcall : call.InRound) : fsm.Turn call (fsm.step call).state (fsm.output call) := by
  cases call with
  | applyResolved =>
    simp only [step, output, applyResolved]
    cases hstate : fsm.state <;> dsimp only <;> try split_ifs
    all_goals constructor <;> simp [hstate, inFlightSuspects, erase_subset]
  | applyConfirm =>
    simp only [step, output, applyConfirm]
    cases hstate : fsm.state <;> dsimp only <;> try split_ifs
    all_goals constructor <;> simp [hstate, inFlightSuspects, sdiff_subset]
  | poll now mesh =>
    simp only [step, output, poll]
    cases hstate : fsm.state with
    | collectingResolutions round deadline resolved =>
      dsimp only
      split_ifs with hempty hdue
      · constructor <;> simp [hstate, finalizeTerminal, inFlightSuspects]
      · exact turn_pollRestart (by rw [hstate]; rfl) (by rw [inFlightSuspects, hstate])
          fun _ => hempty
      · constructor <;> simp [hstate, inFlightSuspects, not_le.mp hdue]
    | broadcastRestart round retriesLeft =>
      exact turn_pollRestart (by rw [hstate]; rfl) (by rw [inFlightSuspects, hstate])
        (by simp [HasCandidates, hstate])
    | collectingConfirmations round receivedConfirms deadline retriesLeft =>
      have htargets : round.set = ∅ → restartTargets round receivedConfirms = ∅ := fun hempty =>
        subset_empty.mp fun target h => hempty ▸ (mem_foldl_targets h).1
      dsimp only
      split_ifs with hall hempty hdue hretries
      · constructor <;> simp [hstate, finalizeTerminal, inFlightSuspects]
      · constructor <;> simp [hstate, finalizeTerminal, inFlightSuspects, mt htargets hempty]
      · constructor <;> simp [hstate, inFlightSuspects, HasCandidates, hdue, hall,
          Nat.sub_add_cancel hretries]
      · constructor <;> simp [hstate, finalizeTerminal, inFlightSuspects, HasCandidates, hdue, hall]
      · constructor <;> simp [hstate, inFlightSuspects, not_le.mp hdue]
    | _ => constructor <;> simp [hstate, inFlightSuspects]
  | _ => cases hcall

/-- A round that has no end before it is over. -/
theorem budget_eq_zero {state : ConsensusState} (h : state.budget.2.2 = 0) : state.budget = 0 := by
  cases state <;> simp_all

section Run

variable (fsm) {calls : ℕ → ConsensusCall} (hcalls : ∀ n, (calls n).InRound) {n : ℕ}
include hcalls

/-- Every call of a schedule takes a turn. -/
theorem turn_after (n : ℕ) : (fsm.after calls n).Turn (calls n) (fsm.after calls (n + 1)).state
    (fsm.outputAt calls n) := turn (hcalls n)

/-- The budget never grows. -/
theorem antitone_budget : Antitone fun n => (fsm.after calls n).state.budget :=
  antitone_nat_of_succ_le fun n => le_self_add.trans (fsm.turn_after hcalls n).pays

/-- The set only shrinks. -/
theorem antitone_inFlightSuspects : Antitone fun n => (fsm.after calls n).inFlightSuspects :=
  antitone_nat_of_succ_le fun n => (fsm.turn_after hcalls n).shrinks

/-- A call that leaves the budget puts nothing out. -/
theorem outputAt_eq_idle
    (h : (fsm.after calls (n + 1)).state.budget = (fsm.after calls n).state.budget) :
    fsm.outputAt calls n = .idle := by
  have hpays := (fsm.turn_after hcalls n).pays
  rw [h] at hpays
  exact (fsm.turn_after hcalls n).counts (le_antisymm (by simpa using hpays) zero_le)

/-- What was put out was paid from the budget, the end in full. -/
theorem budget_after (n : ℕ) :
    (fsm.after calls n).state.budget + ∑ i ∈ range n, (fsm.outputAt calls i).cost ≤
        fsm.state.budget ∧
      (fsm.after calls n).state.budget.2.2 + ∑ i ∈ range n, (fsm.outputAt calls i).cost.2.2 =
        fsm.state.budget.2.2 := by
  induction n with
  | zero => exact ⟨le_rfl, rfl⟩
  | succ n ih =>
    rw [sum_range_succ_comm, sum_range_succ_comm, ← add_assoc, ← add_assoc,
      (fsm.turn_after hcalls n).keeps]
    exact ⟨(add_le_add_left (fsm.turn_after hcalls n).pays _).trans ih.1, ih.2⟩

/-- If the times of the polls pass every deadline, the round is over some time. -/
theorem exists_over
    (htimes : ∀ time n, ∃ m ≥ n, ∃ now mesh, calls m = .poll now mesh ∧ time ≤ now) :
    ∃ n, (fsm.after calls n).state.budget = 0 := by
  -- From some call on the budget stays the same, so nothing is put out and the deadline stays.
  obtain ⟨n, hn⟩ := WellFoundedLT.antitone_chain_condition (fsm.antitone_budget hcalls)
  have hidle : ∀ m ≥ n, fsm.outputAt calls m = .idle := fun m hm =>
    fsm.outputAt_eq_idle hcalls ((hn (m + 1) (hm.trans m.le_succ)).symm.trans (hn m hm))
  have hdue : ∀ m ≥ n, (fsm.after calls m).state.due = (fsm.after calls n).state.due :=
    Nat.le_induction rfl fun m hm ih =>
      ((fsm.turn_after hcalls m).waits (hidle m hm)).1.trans ih
  obtain ⟨m, hm, now, mesh, hcall, htime⟩ := htimes (fsm.after calls n).state.due n
  exact ⟨m, ((fsm.turn_after hcalls m).waits (hidle m hm)).2 now mesh hcall
    ((hdue m hm).trans_le htime)⟩

end Run

/-- **A round ends once and honestly.** After an escalation, whatever frames arrive, if the times of
the polls pass every deadline and at a deadline that somebody has missed there is still a candidate:
the round has exactly one end, before it at most one `SuspectPeers` and at most
`1 + CONFIRMATION_MAX_RETRIES` requests, each with a candidate, and nothing after it. Its set only
shrinks, and if the set becomes empty, the round ends in a dropped suspicion. -/
theorem round_ends_honestly {suspects : Finset String}
    (hstate : fsm.state = .schedulingSuspect suspects) (hne : suspects ≠ ∅)
    (started primaryEpoch memberGen : ℕ) (responders : Finset String)
    {calls : ℕ → ConsensusCall} (hcalls : ∀ n, (calls n).InRound)
    (htimes : ∀ time n, ∃ m ≥ n, ∃ now mesh, calls m = .poll now mesh ∧ time ≤ now)
    (hhas : ∀ n, ((fsm.escalate started primaryEpoch memberGen responders).after calls
      n).HasCandidates (calls n)) :
    let round := fsm.escalate started primaryEpoch memberGen responders
    (∀ n, ∑ i ∈ range n, (round.outputAt calls i).cost ≤ (1, 1 + confirmationMaxRetries, 1)) ∧
      (∀ n, (round.outputAt calls n).candidates ≠ some ∅) ∧
      (∀ n m, n ≤ m →
        (round.after calls m).inFlightSuspects ⊆ (round.after calls n).inFlightSuspects) ∧
      ∃ last, (round.outputAt calls last).cost.2.2 = 1 ∧
        (∀ n > last, round.outputAt calls n = .idle) ∧
        ∀ n ≤ last, (round.after calls n).inFlightSuspects = ∅ →
          round.outputAt calls last = .dropSuspicion := by
  intro round
  have hbudget : round.state.budget = (1, 1 + confirmationMaxRetries, 1) := by
    simp [round, escalate, hstate, hne]
  have hpaid := round.budget_after hcalls
  have hshrinks := round.antitone_inFlightSuspects hcalls
  rw [hbudget] at hpaid
  -- Once the round is over, an end has been put out.
  obtain ⟨k, hover⟩ := round.exists_over hcalls htimes
  have hends := (hpaid k).2
  rw [hover, Prod.snd_zero, Prod.snd_zero, zero_add] at hends
  obtain ⟨last, -, hlast⟩ := exists_ne_zero_of_sum_ne_zero (hends.trans_ne one_ne_zero)
  have hlater := (hpaid (last + 1)).2
  dsimp only at hlater
  rw [sum_range_succ] at hlater
  have hspent : (round.after calls (last + 1)).state.budget = 0 := budget_eq_zero (by omega)
  have hzero : ∀ m > last, (round.after calls m).state.budget = 0 := fun m hm =>
    le_antisymm ((round.antitone_budget hcalls hm).trans_eq hspent) zero_le
  have hone : (round.outputAt calls last).cost.2.2 = 1 := by omega
  refine ⟨fun n => le_add_self.trans (hpaid n).1,
    fun n => (round.turn_after hcalls n).asks (hhas n), fun _ _ hm => hshrinks hm, last, hone,
    fun n hn => ?_, fun n hn hempty => ?_⟩
  · exact round.outputAt_eq_idle hcalls
      ((hzero _ (hn.trans n.lt_succ_self)).trans (hzero n hn).symm)
  · exact (round.turn_after hcalls last).drops hone (hhas last)
      (subset_empty.mp (hempty ▸ hshrinks hn))

end ConsensusFsm

namespace Sample

/-- A primary that suspects one peer and asks another about it. -/
def suspecting : ConsensusFsm := ConsensusFsm.escalate ⟨.schedulingSuspect {"d"}, 0⟩ 0 1 0 {"a"}

/-- The suspect is resolved at one of many polls. -/
def resolvedAt (k n : ℕ) : ConsensusCall :=
  if n = k then .applyResolved 1 "a" "d" else .poll (n * 15000) ⟨3, 3⟩

/-- In the sample the resolved round ends and stays idle. -/
theorem resolved_early_ends : ∃ last, (suspecting.outputAt (resolvedAt 1) last).cost.2.2 = 1 ∧
    ∀ n > last, suspecting.outputAt (resolvedAt 1) n = .idle := by
  have hcalls : ∀ n, (resolvedAt 1 n).InRound := by
    intro n
    unfold resolvedAt
    split_ifs <;> trivial
  have htimes : ∀ time n, ∃ m ≥ n, ∃ now mesh, resolvedAt 1 m = .poll now mesh ∧ time ≤ now :=
    fun time n => ⟨n + time + 2, by omega, _, _, if_neg (by omega), by omega⟩
  have hhas : ∀ n, (suspecting.after (resolvedAt 1) n).HasCandidates (resolvedAt 1 n) := by
    rintro (_ | _ | _ | n)
    · trivial
    · trivial
    · trivial
    · have hdropped : (suspecting.after (resolvedAt 1) 3).state.budget = 0 := by decide +kernel
      have hover := le_antisymm ((suspecting.antitone_budget hcalls (Nat.le_add_left 3 n)).trans_eq
        hdropped) zero_le
      rw [resolvedAt, if_neg (by omega), HasCandidates]
      cases hstate : (suspecting.after (resolvedAt 1) (n + 3)).state <;> simp_all
  obtain ⟨-, -, -, last, hlast, hafter, -⟩ :=
    round_ends_honestly rfl (by decide) 0 1 0 {"a"} hcalls htimes hhas
  exact ⟨last, hlast, hafter⟩

/-- **A request for nobody.** The suspect is resolved while confirmations are collected: the request
is repeated without a candidate, and the round is aborted. -/
theorem empty_round_aborted : (suspecting.after (resolvedAt 2) 3).inFlightSuspects = ∅ ∧
    (suspecting.outputAt (resolvedAt 2) 3).candidates = some ∅ ∧
    suspecting.outputAt (resolvedAt 2) 4 = .abort (.responderTimeout {"a"}) := by
  decide +kernel

end Sample

end DynRunner
