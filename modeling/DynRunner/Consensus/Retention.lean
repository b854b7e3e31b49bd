import DynRunner.Consensus.Secondary
import DynRunner.Lib.Runs

/-!
# What a secondary remembers of a round

A suspect that answers a probe is credited, and a later confirmation should name it as resolved.
The machine keeps the credit in the set of its open round, and three things empty that set before
the round is over: another `SuspectPeers` of the same round, a `RestartRequest` that leaves the peer
out, and a poll at the end of the time for the round. Where none of them comes between, the credit
is kept. A request costs only the peers that it leaves out their credit.
-/

namespace DynRunner

open Finset

/-- What drives the machine of a secondary in one round. A probe of the secondary itself is answered
in any state and changes nothing. -/
inductive ProbeEvent
  | suspectPeers (memberGen : ℕ) (suspected : Finset String) (now : ℕ) (jitter : String → ℤ)
  | restartRequest (memberGen : ℕ) (candidates : Finset String) (now : ℕ)
  | probeAck (senderId : String) (ackId : ℕ)
  | poll (now : ℕ) (jitter : String → ℤ)

namespace SecondaryConsensusFsm

/-- The epoch of the machine, and the peers that have answered in its open round. -/
def memory (fsm : SecondaryConsensusFsm) : ℕ × Finset String :=
  (fsm.currentKnownPrimaryEpoch, fsm.evidence.elim ∅ (·.2.2))

variable {fsm : SecondaryConsensusFsm} {now primaryEpoch : ℕ} {resolved : Finset String}

/-- An answer resolves its sender or does nothing. -/
theorem memory_applyProbeAck (senderId : String) (ackId : ℕ) :
    fsm.applyProbeAck senderId ackId = (fsm, ∅) ∨ (fsm.applyProbeAck senderId ackId).1.memory =
      (fsm.memory.1, insert senderId fsm.memory.2) := by
  unfold applyProbeAck
  split
  · exact .inl rfl
  all_goals
    rename_i hstate
    split_ifs
    · exact .inr (by simp [memory, evidence, hstate, resolve])
    · exact .inl rfl

/-- A poll before the end of the round keeps what was resolved. -/
theorem memory_poll {jitter : String → ℤ}
    (h : ∀ round deadline, fsm.state = .awaitingRoundEnd round deadline → now < deadline) :
    (fsm.poll now jitter).1.memory = fsm.memory := by
  unfold poll
  split
  · rfl
  · rename_i hstate
    simp [memory, evidence, hstate, fireProbes]
  · rename_i round deadline hstate
    rw [if_neg (not_le.mpr (h round deadline hstate))]
    simp [memory, evidence, hstate, fireProbes]

/-- A request is answered from what was resolved, and what it does not name is dropped. -/
theorem memory_applyRestartRequest (h : fsm.memory = (primaryEpoch, resolved))
    (consensusId memberGen : ℕ) (candidates : Finset String) (now : ℕ) :
    ∃ next, next.memory = (primaryEpoch, resolved ∩ candidates) ∧
      fsm.applyRestartRequest consensusId primaryEpoch memberGen candidates now =
        (next, {.restartConfirm consensusId fsm.selfId (candidates.erase fsm.selfId \ resolved)
          (candidates.erase fsm.selfId ∩ resolved)}) := by
  obtain ⟨rfl, rfl⟩ := Prod.mk.inj h
  rw [applyRestartRequest, if_neg (lt_irrefl _), observePrimaryEpoch, if_neg (lt_irrefl _)]
  dsimp only
  cases fsm.evidence with
  | none =>
    refine ⟨_, ?_, rfl⟩
    simp [memory, evidence]
  | some found => exact ⟨_, rfl, rfl⟩

end SecondaryConsensusFsm

open SecondaryConsensusFsm

/-- The machine in a round, the peers that were credited in it, and those that a request has left
out after they were credited. -/
structure RoundWatch where
  fsm : SecondaryConsensusFsm
  credited : Finset String
  omitted : Finset String

namespace RoundWatch

section

variable (primaryEpoch consensusId : ℕ) (x : RoundWatch)

/-- What happens at an event. An answer is credited when the machine passes it on. -/
def step : ProbeEvent → RoundWatch
  | .suspectPeers memberGen suspected now jitter =>
    { x with
      fsm := (x.fsm.applySuspectPeers consensusId primaryEpoch memberGen suspected now jitter).1 }
  | .restartRequest memberGen candidates now =>
    { x with
      fsm := (x.fsm.applyRestartRequest consensusId primaryEpoch memberGen candidates now).1
      omitted := x.omitted ∪ x.credited \ candidates }
  | .probeAck senderId ackId =>
    { x with
      fsm := (x.fsm.applyProbeAck senderId ackId).1
      credited :=
        if x.fsm.currentKnownPrimaryEpoch = primaryEpoch ∧ ackId = consensusId ∧
            (x.fsm.applyProbeAck senderId ackId).2 ≠ ∅ then insert senderId x.credited
        else x.credited }
  | .poll now jitter => { x with fsm := (x.fsm.poll now jitter).1 }

/-- Once a peer is credited, no `SuspectPeers` opens the round again and no poll ends the round. -/
def Keeps : ProbeEvent → Prop
  | .suspectPeers _ suspected _ _ => x.credited = ∅ ∨ suspected.erase x.fsm.selfId = ∅
  | .restartRequest .. | .probeAck .. => True
  | .poll now _ => x.credited = ∅ ∨
      ∀ round deadline, x.fsm.state = .awaitingRoundEnd round deadline → now < deadline

/-- The states of the runs of a round, which may find the machine in any state. -/
def Reached : RoundWatch → Prop := RunsTo (step primaryEpoch consensusId) (·.credited = ∅) Keeps

/-- Whoever was credited and not left out is resolved, under the epoch of the round. -/
def Remembers : Prop :=
  x.credited = ∅ ∨
    ∃ resolved, x.fsm.memory = (primaryEpoch, resolved) ∧ x.credited \ x.omitted ⊆ resolved

end

variable {primaryEpoch consensusId : ℕ} {x : RoundWatch}

/-- What one event preserves. -/
theorem Remembers.step (h : x.Remembers primaryEpoch) {event : ProbeEvent}
    (hkeeps : x.Keeps event) : (x.step primaryEpoch consensusId event).Remembers primaryEpoch := by
  cases event with
  | suspectPeers =>
    rcases h with hempty | ⟨resolved, hmemory, hsub⟩
    · exact .inl hempty
    · refine hkeeps.imp_right fun hself => ⟨resolved, ?_, hsub⟩
      obtain ⟨rfl, -⟩ := Prod.mk.inj hmemory
      simpa [RoundWatch.step, applySuspectPeers, observePrimaryEpoch, hself] using hmemory
  | restartRequest memberGen candidates now =>
    refine h.imp_right ?_
    rintro ⟨resolved, hmemory, hsub⟩
    obtain ⟨next, hnext, heq⟩ :=
      memory_applyRestartRequest hmemory consensusId memberGen candidates now
    refine ⟨_, (congrArg (·.1.memory) heq).trans hnext, fun peer hpeer => ?_⟩
    -- A credited peer that is still not left out was named by this request.
    obtain ⟨hcredited, hkept⟩ := mem_sdiff.mp hpeer
    obtain ⟨hbefore, hnamed⟩ := not_or.mp (mt mem_union.mpr hkept)
    refine mem_inter.mpr ⟨hsub (mem_sdiff.mpr ⟨hcredited, hbefore⟩), ?_⟩
    by_contra hnot
    exact hnamed (mem_sdiff.mpr ⟨hcredited, hnot⟩)
  | probeAck senderId ackId =>
    rcases x.fsm.memory_applyProbeAck senderId ackId with hsame | hinsert
    · simpa [RoundWatch.step, hsame, Remembers] using h
    · simp only [RoundWatch.step]
      split_ifs with hcredit
      · refine .inr ⟨_, hinsert.trans (Prod.ext hcredit.1 rfl), ?_⟩
        refine subset_trans (fun peer hpeer => ?_) (insert_subset_insert senderId
          (show x.credited \ x.omitted ⊆ x.fsm.memory.2 from ?_))
        · obtain ⟨hcredited, hkept⟩ := mem_sdiff.mp hpeer
          exact (mem_insert.mp hcredited).elim (fun heq => heq ▸ mem_insert_self _ _)
            fun hold => mem_insert_of_mem (mem_sdiff.mpr ⟨hold, hkept⟩)
        rcases h with hempty | ⟨resolved, hmemory, hsub⟩
        · rw [hempty, empty_sdiff]
          exact empty_subset _
        · rwa [hmemory]
      · refine h.imp_right ?_
        rintro ⟨resolved, hmemory, hsub⟩
        rw [hmemory] at hinsert
        exact ⟨_, hinsert, hsub.trans (subset_insert _ _)⟩
  | poll now jitter =>
    rcases h with hempty | ⟨resolved, hmemory, hsub⟩
    · exact .inl hempty
    · exact hkeeps.imp_right fun htime => ⟨resolved, (memory_poll htime).trans hmemory, hsub⟩

/-- **A credited peer stays resolved.** In every run of a round in which no `SuspectPeers` or poll
empties the resolved set after a peer was credited: a confirmation names every credited peer that
it is asked about as resolved, and none of them as suspicious, unless an earlier request has left
the peer out. -/
theorem credited_stays_resolved (h : Reached primaryEpoch consensusId x) {memberGen now : ℕ}
    {candidates still resolvedSince : Finset String}
    (hreply : .restartConfirm consensusId x.fsm.selfId still resolvedSince ∈
      (x.fsm.applyRestartRequest consensusId primaryEpoch memberGen candidates now).2) :
    ∀ peer ∈ x.credited, peer ∉ x.omitted → peer ∈ candidates.erase x.fsm.selfId →
      peer ∈ resolvedSince ∧ peer ∉ still := by
  have hremembers : x.Remembers primaryEpoch :=
    RunsTo.invariant h (fun _ hstart => .inl hstart) fun _ event hx hkeeps => hx.step hkeeps
  intro peer hpeer hkept hasked
  rcases hremembers with hempty | ⟨resolved, hmemory, hsub⟩
  · rw [hempty] at hpeer
    cases hpeer
  · obtain ⟨next, -, heq⟩ :=
      memory_applyRestartRequest hmemory consensusId memberGen candidates now
    rw [heq, mem_singleton] at hreply
    cases hreply
    have hresolved := hsub (mem_sdiff.mpr ⟨hpeer, hkept⟩)
    exact ⟨mem_inter.mpr ⟨hasked, hresolved⟩, fun hstill => (mem_sdiff.mp hstill).2 hresolved⟩

end RoundWatch

namespace Sample

/-- The primary suspects two peers. -/
def suspectTwo : ProbeEvent := .suspectPeers 0 {"p", "q"} 0 fun _ => 0

/-- The events of a round after one of the two has answered. -/
def watchAfter (events : List ProbeEvent) : RoundWatch :=
  (suspectTwo :: .probeAck "p" 1 :: events).foldl (RoundWatch.step 1 1) ⟨.new "s", ∅, ∅⟩

/-- In the sample the peer that answered the probe is not suspected any more. -/
theorem answered_probe_confirmed : "p" ∈ (watchAfter []).credited ∧
    .restartConfirm 1 "s" {"q"} {"p"} ∈
      ((watchAfter []).fsm.applyRestartRequest 1 1 0 {"p", "q"} 15000).2 ∧
    "p" ∈ ({"p"} : Finset String) ∧ "p" ∉ ({"q"} : Finset String) := by
  have hcredited : "p" ∈ (watchAfter []).credited := by decide +kernel
  have hreply : .restartConfirm 1 "s" {"q"} {"p"} ∈
      ((watchAfter []).fsm.applyRestartRequest 1 1 0 {"p", "q"} 15000).2 := by decide +kernel
  have hstart : RoundWatch.Reached 1 1 ⟨.new "s", ∅, ∅⟩ := .start rfl
  have hreached : RoundWatch.Reached 1 1 (watchAfter []) :=
    (hstart.step suspectTwo (.inl rfl)).step (ProbeEvent.probeAck "p" 1) trivial
  exact ⟨hcredited, hreply,
    RoundWatch.credited_stays_resolved hreached hreply "p" hcredited (by decide +kernel)
      (by decide +kernel)⟩

/-- **Credits that are forgotten.** The `SuspectPeers` of the round arrives twice, or a narrower
request of the round overtakes a wider one: the peer that has answered is confirmed as
suspicious. -/
theorem answered_probe_forgotten :
    [[suspectTwo], [.restartRequest 0 {"q"} 20000]].all fun events =>
      "p" ∈ (watchAfter events).credited ∧
        ((watchAfter events).fsm.applyRestartRequest 1 1 0 {"p", "q"} 20001).2 =
          {.restartConfirm 1 "s" {"p", "q"} ∅} := by
  decide +kernel

end Sample

end DynRunner
