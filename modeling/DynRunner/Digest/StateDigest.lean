import DynRunner.ClusterState.Snapshot

/-!
# State digests

The fixed-size fingerprint two nodes exchange to find out whether one of them lacks something the
other has. Most parts of the state are summarised by a count and an order-independent content
hash; the epoch, the latches and the discovery debt are carried as they are. `isBehind` is the
one-directional comparison that decides whether to pull a snapshot.
-/

namespace DynRunner

/-- The summary of one collection. The source has a `_count` and a `_hash` field for each. -/
@[ext]
structure FieldDigest where
  count : ℕ
  hash : UInt64
  deriving DecidableEq, Repr

/-- `field_behind`: the peer has more entries, or as many with another content. -/
def FieldDigest.behind (mine peer : FieldDigest) : Bool :=
  decide (mine.count < peer.count) || (peer.count == mine.count && peer.hash != mine.hash)

/-- `StateDigest`. -/
@[ext]
structure StateDigest where
  tasks : FieldDigest
  secondaryCapacities : FieldDigest
  latestResourceSamples : FieldDigest
  taskOutputs : FieldDigest
  phaseDeps : FieldDigest
  currentPrimaryHash : UInt64
  capabilities : FieldDigest
  primaryEpoch : ℕ
  runComplete : Bool
  runAborted : Bool
  gracefulAbort : Bool
  discoveryDebt : DiscoveryDebt
  phaseEventTallies : FieldDigest
  retryPassesUsed : FieldDigest
  unfulfillableReinjectUsed : FieldDigest
  phasesEnded : FieldDigest
  windDownRequested : FieldDigest
  respawnEvents : FieldDigest
  customMessages : FieldDigest
  customTerminalWatermarks : FieldDigest
  affine : FieldDigest
  deriving DecidableEq, Repr

/-- The primary register of the peer: a higher epoch, or another primary in the same epoch. -/
def StateDigest.primaryBehind (self other : StateDigest) : Bool :=
  decide (self.primaryEpoch < other.primaryEpoch) ||
    (other.primaryEpoch == self.primaryEpoch &&
      other.currentPrimaryHash != self.currentPrimaryHash)

/-- `is_behind`: whether the peer holds something that is missing here. -/
def StateDigest.isBehind (self other : StateDigest) : Bool :=
  self.tasks.behind other.tasks ||
    self.secondaryCapacities.behind other.secondaryCapacities ||
    self.taskOutputs.behind other.taskOutputs ||
    self.latestResourceSamples.behind other.latestResourceSamples ||
    self.phaseDeps.behind other.phaseDeps ||
    self.capabilities.behind other.capabilities ||
    self.primaryBehind other ||
    (other.runComplete && !self.runComplete) ||
    (other.runAborted && !self.runAborted) ||
    (other.gracefulAbort && !self.gracefulAbort) ||
    decide (self.discoveryDebt.rank < other.discoveryDebt.rank) ||
    self.phaseEventTallies.behind other.phaseEventTallies ||
    self.retryPassesUsed.behind other.retryPassesUsed ||
    self.unfulfillableReinjectUsed.behind other.unfulfillableReinjectUsed ||
    self.phasesEnded.behind other.phasesEnded ||
    self.windDownRequested.behind other.windDownRequested ||
    self.respawnEvents.behind other.respawnEvents ||
    self.customMessages.behind other.customMessages ||
    self.customTerminalWatermarks.behind other.customTerminalWatermarks ||
    self.affine.behind other.affine

/-! ## Each part of the comparison -/

@[simp] theorem FieldDigest.behind_self {a : FieldDigest} : a.behind a = false := by simp [behind]

/-- Two summaries of which neither is behind the other are equal. -/
theorem FieldDigest.eq_of_not_behind {a b : FieldDigest} (hab : a.behind b = false)
    (hba : b.behind a = false) : a = b := by
  simp only [behind, Bool.or_eq_false_iff, decide_eq_false_iff_not, not_lt, Bool.and_eq_false_imp,
    beq_iff_eq, bne_eq_false_iff_eq] at hab hba
  have hcount : a.count = b.count := Nat.le_antisymm hba.1 hab.1
  exact FieldDigest.ext hcount (hab.2 hcount.symm).symm

@[simp] theorem StateDigest.primaryBehind_self {a : StateDigest} : a.primaryBehind a = false := by
  simp [primaryBehind]

variable {a b : StateDigest}

/-- Two primary registers of which neither is behind the other are equal. -/
theorem StateDigest.eq_of_not_primaryBehind (hab : a.primaryBehind b = false)
    (hba : b.primaryBehind a = false) :
    a.primaryEpoch = b.primaryEpoch ∧ a.currentPrimaryHash = b.currentPrimaryHash := by
  simp only [primaryBehind, Bool.or_eq_false_iff, decide_eq_false_iff_not, not_lt,
    Bool.and_eq_false_imp, beq_iff_eq, bne_eq_false_iff_eq] at hab hba
  have hepoch : a.primaryEpoch = b.primaryEpoch := Nat.le_antisymm hba.1 hab.1
  exact ⟨hepoch, (hab.2 hepoch.symm).symm⟩

/-- A latch that is set on neither side alone is equal. -/
theorem latch_eq {a b : Bool} (hab : (b && !a) = false) (hba : (a && !b) = false) : a = b := by
  cases a <;> cases b <;> simp_all

/-- Different debts have different ranks. -/
theorem DiscoveryDebt.rank_injective : Function.Injective DiscoveryDebt.rank := by
  intro a b h
  cases a <;> cases b <;> first | rfl | cases h

/-! ## The whole comparison -/

/-- Two digests of which neither is behind the other are equal. -/
theorem StateDigest.eq_of_not_isBehind (hab : a.isBehind b = false)
    (hba : b.isBehind a = false) : a = b := by
  simp only [isBehind, Bool.or_eq_false_iff, decide_eq_false_iff_not, not_lt, and_assoc] at hab hba
  obtain ⟨htasks, hcapacities, houtputs, hsamples, hdeps, hcapabilities, hprimary, hcomplete,
    haborted, hgraceful, hdebt, htallies, hretry, hreinject, hended, hwind, hrespawn, hmessages,
    hmarks, haffine⟩ := hab
  obtain ⟨htasks', hcapacities', houtputs', hsamples', hdeps', hcapabilities', hprimary',
    hcomplete', haborted', hgraceful', hdebt', htallies', hretry', hreinject', hended', hwind',
    hrespawn', hmessages', hmarks', haffine'⟩ := hba
  obtain ⟨hepoch, hhash⟩ := eq_of_not_primaryBehind hprimary hprimary'
  have hrank : a.discoveryDebt = b.discoveryDebt :=
    DiscoveryDebt.rank_injective (Nat.le_antisymm hdebt' hdebt)
  have hfield : ∀ {x y : FieldDigest}, x.behind y = false → y.behind x = false → x = y :=
    FieldDigest.eq_of_not_behind
  exact StateDigest.ext (hfield htasks htasks') (hfield hcapacities hcapacities')
    (hfield hsamples hsamples') (hfield houtputs houtputs') (hfield hdeps hdeps') hhash
    (hfield hcapabilities hcapabilities') hepoch (latch_eq hcomplete hcomplete')
    (latch_eq haborted haborted') (latch_eq hgraceful hgraceful') hrank
    (hfield htallies htallies') (hfield hretry hretry') (hfield hreinject hreinject')
    (hfield hended hended') (hfield hwind hwind') (hfield hrespawn hrespawn')
    (hfield hmessages hmessages') (hfield hmarks hmarks') (hfield haffine haffine')

/-- **A difference is never silent.** Two digests differ exactly when one of the two nodes finds
itself behind the other. -/
theorem StateDigest.ne_iff_isBehind (a b : StateDigest) :
    a ≠ b ↔ a.isBehind b = true ∨ b.isBehind a = true := by
  constructor
  · intro hne
    by_contra hsilent
    rw [not_or, Bool.not_eq_true, Bool.not_eq_true] at hsilent
    exact hne (eq_of_not_isBehind hsilent.1 hsilent.2)
  · rintro hbehind rfl
    simp [isBehind] at hbehind

end DynRunner
