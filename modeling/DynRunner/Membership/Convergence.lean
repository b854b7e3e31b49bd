import DynRunner.Lib.Gossip
import DynRunner.Membership.Model
import Mathlib.Order.WithBot

/-!
# Membership converges

A peer stands where the latest generation that was heard of puts it, and within a generation a
removal outweighs a join. Every rule that touches a peer takes the maximum under this order, so
replicas that have heard the same joins and removals agree on every peer. The role table is
projected again whenever an entry it reads has changed.
-/

namespace DynRunner

open HashMap PeerState List

/-- Dead outweighs alive. -/
def PeerState.rank : PeerState → ℕ
  | .alive => 0
  | .dead => 1

/-- Different states have different ranks. -/
theorem PeerState.rank_injective : Function.Injective rank := by
  intro a b h
  cases a <;> cases b <;> first | rfl | cases h

instance : LinearOrder PeerState := LinearOrder.lift' rank rank_injective

/-- To be alive is the lowest state. -/
theorem PeerState.alive_le (p : PeerState) : alive ≤ p := Nat.zero_le p.rank

/-- To be dead is the highest state. -/
theorem PeerState.le_dead (p : PeerState) : p ≤ dead := by cases p <;> decide

/-- Generation first, then liveness. -/
abbrev Standing := ℕ ×ₗ PeerState

/-- The standing that an entry or a mutation gives a peer. -/
def standing (memberGen : ℕ) (state : PeerState) : Standing := toLex (memberGen, state)

variable {g g' : ℕ} {peerState : HashMap String PeerEntry} {id a : String} {entry : PeerEntry}
  {v : Standing}

variable {p p' : PeerState}

/-- Standings compare by generation, and then by state. -/
theorem standing_le_iff : standing g p ≤ standing g' p' ↔ g < g' ∨ g = g' ∧ p ≤ p' :=
    Prod.Lex.toLex_le_toLex

/-- A later generation stands higher. -/
theorem standing_le_of_lt (h : g < g') : standing g p ≤ standing g' p' :=
    standing_le_iff.mpr (Or.inl h)

/-- To be alive stands lowest in a generation. -/
theorem standing_alive_le (h : g ≤ g') : standing g .alive ≤ standing g' p :=
  standing_le_iff.mpr ((Nat.lt_or_eq_of_le h).imp id fun h => ⟨h, p.alive_le⟩)

/-- To be dead stands highest in a generation. -/
theorem standing_le_dead (h : g ≤ g') : standing g p ≤ standing g' .dead :=
  standing_le_iff.mpr ((Nat.lt_or_eq_of_le h).imp id fun h => ⟨h, p.le_dead⟩)

/-- Where a map of peers puts a peer; one that is unknown is below every standing. -/
def standingIn (peerState : HashMap String PeerEntry) (id : String) : WithBot Standing :=
  match peerState.lookup id with
  | some entry => standing entry.memberGen entry.state
  | none => ⊥

/-- The standing of a known peer. -/
theorem standingIn_of_some (h : peerState.lookup id = some entry) :
    standingIn peerState id = standing entry.memberGen entry.state := by rw [standingIn, h]

/-- An unknown peer has no standing. -/
theorem standingIn_of_none (h : peerState.lookup id = none) :
    standingIn peerState id = ⊥ := by rw [standingIn, h]

/-- The standings after one entry is written. -/
theorem standingIn_insert : standingIn (peerState.insert a entry) id =
      if id = a then ↑(standing entry.memberGen entry.state) else standingIn peerState id := by
  unfold standingIn
  rw [lookup_insert_eq]
  by_cases h : id = a
  · rw [if_pos h, if_pos h]
  · rw [if_neg h, if_neg h]

/-- A rule that leaves every other peer alone and gives one peer a standing. -/
theorem standingIn_insert_max
    (h : ↑(standing entry.memberGen entry.state) = max (standingIn peerState a) v) :
    standingIn (peerState.insert a entry) id =
      if id = a then max (standingIn peerState id) v else standingIn peerState id := by
  rw [standingIn_insert]
  by_cases hid : id = a
  · rw [if_pos hid, if_pos hid, hid, h]
  · rw [if_neg hid, if_neg hid]

/-- A rule that changes nothing, because the standing it gives is not above. -/
theorem standingIn_max_of_le (hentry : peerState.lookup a = some entry)
    (h : v ≤ standing entry.memberGen entry.state) : standingIn peerState id =
      if id = a then max (standingIn peerState id) v else standingIn peerState id := by
  by_cases hid : id = a
  · rw [if_pos hid, hid, standingIn_of_some hentry, max_eq_left (WithBot.coe_le_coe.mpr h)]
  · rw [if_neg hid]

/-- The standing that a mutation gives a peer. -/
def PeerMutation.announces (id : String) : PeerMutation → Option (WithBot Standing)
  | .peerJoined peerId _ _ _ memberGen =>
    if id = peerId then some (standing memberGen .alive) else none
  | .peerRemoved a _ memberGen => if id = a then some (standing memberGen .dead) else none
  | .setCanBePrimary .. => none

/-- Whether a mutation announces a peer's own clean exit. -/
def PeerMutation.isSelfDeparture : PeerMutation → Bool
  | .peerRemoved _ cause _ => cause.isSelfDeparture
  | _ => false

namespace Membership

/-! ## Standing -/

/-- Where a node puts a peer. -/
def standingOf (m : Membership) (id : String) : WithBot Standing := standingIn m.peerState id

variable {m start : Membership} {peerId : String} {memberGen : ℕ} {cause : RemovalCause}
  {ms applied : List PeerMutation}

/-- The end of a rule keeps the standing it has computed, also when it reports no change. -/
theorem standingOf_settle {capabilities : HashMap String CapabilityEntry} {changed : Bool}
    (h : changed = false → peerState = m.peerState) (id : String) :
    (m.settle peerState capabilities changed).1.standingOf id = standingIn peerState id := by
  cases changed with
  | true => rfl
  | false =>
    rw [h rfl]
    rfl

/-- A join that reports no change makes none. -/
theorem joinLiveness_unchanged (h : (joinLiveness peerState peerId memberGen).2 = false) :
    (joinLiveness peerState peerId memberGen).1 = peerState := by
  unfold joinLiveness at h ⊢
  split at h
  · cases h
  · cases h
  · split at h
    · cases h
    · rename_i hgen
      exact congrArg Prod.fst (if_neg hgen)

variable {memberGenerations : HashMap String ℕ} {acc : HashMap String PeerEntry × Bool}

/-- The liveness part of a join takes the maximum with the join's standing, unless the peer is
dead in the same or a later generation. -/
theorem standingIn_joinLiveness
    (hdead : ∀ g, peerState.lookup peerId = some ⟨.dead, g⟩ → g < memberGen) :
    standingIn (joinLiveness peerState peerId memberGen).1 id =
      if id = peerId then max (standingIn peerState id) (standing memberGen .alive)
      else standingIn peerState id := by
  unfold joinLiveness
  cases hentry : peerState.lookup peerId with
  | none =>
    refine standingIn_insert_max ?_
    rw [standingIn_of_none hentry, max_eq_right bot_le]
  | some entry =>
    obtain ⟨state, g⟩ := entry
    cases state with
    | dead =>
      have hlt := hdead g hentry
      refine standingIn_insert_max ?_
      rw [standingIn_of_some hentry, if_pos hlt,
        max_eq_right (WithBot.coe_le_coe.mpr (standing_le_of_lt hlt))]
    | alive =>
      by_cases hlt : g < memberGen
      · simp only [if_pos hlt]
        refine standingIn_insert_max ?_
        rw [standingIn_of_some hentry,
          max_eq_right (WithBot.coe_le_coe.mpr (standing_le_of_lt hlt))]
      · simp only [if_neg hlt]
        exact standingIn_max_of_le hentry (standing_alive_le (not_lt.mp hlt))

/-- A join is refused if the peer is dead in that generation or a later one. -/
theorem refusesJoin_iff : m.refusesJoin (fun _ => false) peerId memberGen = true ↔
      ∃ g, m.peerState.lookup peerId = some ⟨.dead, g⟩ ∧ memberGen ≤ g := by
  unfold refusesJoin
  cases m.peerState.lookup peerId with
  | none => simp
  | some entry =>
    obtain ⟨state, g⟩ := entry
    cases state <;> simp

/-- A join takes the maximum with its standing. -/
theorem standingOf_applyPeerJoined (m : Membership) (peerId : String)
    (isObserver canBePrimary : Bool) (capVersion : TaskVersion) (memberGen : ℕ) (id : String) :
    (m.applyPeerJoined (fun _ => false) peerId isObserver canBePrimary capVersion
      memberGen).1.standingOf id =
      if id = peerId then max (m.standingOf id) (standing memberGen .alive)
      else m.standingOf id := by
  unfold applyPeerJoined
  by_cases hrefused : m.refusesJoin (fun _ => false) peerId memberGen = true
  · obtain ⟨g, hentry, hle⟩ := refusesJoin_iff.mp hrefused
    rw [if_pos hrefused]
    exact standingIn_max_of_le hentry (standing_alive_le hle)
  · rw [if_neg hrefused]
    refine (standingOf_settle (fun h => ?_) id).trans (standingIn_joinLiveness ?_)
    · exact joinLiveness_unchanged (Bool.or_eq_false_iff.mp h).1
    · exact fun g hentry => not_le.mp fun hle => hrefused (refusesJoin_iff.mpr ⟨g, hentry, hle⟩)

/-- The liveness part of a removal that is not stale takes the maximum with its standing. -/
theorem standingIn_removeLiveness (hfresh : ∀ entry, peerState.lookup a = some entry →
      standing entry.memberGen entry.state ≤ standing memberGen .dead) :
    standingIn (removeLiveness peerState a memberGen).1 id =
      if id = a then max (standingIn peerState id) (standing memberGen .dead)
      else standingIn peerState id := by
  unfold removeLiveness
  cases hentry : peerState.lookup a with
  | none =>
    refine standingIn_insert_max ?_
    rw [standingIn_of_none hentry, max_eq_right bot_le]
  | some entry =>
    have hle := hfresh entry hentry
    have hgen : entry.memberGen ≤ memberGen := by
      rcases standing_le_iff.mp hle with hlt | ⟨heq, _⟩
      · exact hlt.le
      · exact heq.le
    refine standingIn_insert_max ?_
    rw [standingIn_of_some hentry, max_eq_right hgen, max_eq_right (WithBot.coe_le_coe.mpr hle)]

/-- A removal that is not stale changes the liveness of its peer. -/
theorem removeLiveness_changed (hfresh : ∀ entry, peerState.lookup a = some entry →
      standing entry.memberGen entry.state < standing memberGen .dead) :
    (removeLiveness peerState a memberGen).2 = true := by
  unfold removeLiveness
  cases hentry : peerState.lookup a with
  | none => rfl
  | some entry =>
    obtain ⟨state, g⟩ := entry
    have hlt : standing g state < standing memberGen .dead := hfresh _ hentry
    cases state with
    | alive => rfl
    | dead =>
      have hgen : ¬memberGen ≤ g := fun hle => (standing_le_dead hle).not_gt hlt
      simpa using hgen

/-- A removal is ignored exactly if the peer stands where it puts it, or higher. -/
theorem ignoresRemoval_iff (hcause : cause.isSelfDeparture = false) :
    m.ignoresRemoval a cause memberGen = true ↔ ∃ entry, m.peerState.lookup a = some entry ∧
      standing memberGen .dead ≤ standing entry.memberGen entry.state := by
  unfold ignoresRemoval
  cases m.peerState.lookup a with
  | none => simp
  | some entry =>
    obtain ⟨state, g⟩ := entry
    have halive : ¬dead ≤ alive := by decide
    cases state with
    | alive => simp [standing_le_iff, halive]
    | dead => simp [standing_le_iff, hcause, Nat.le_iff_lt_or_eq]

/-- A removal takes the maximum with its standing. -/
theorem standingOf_applyPeerRemoved (hcause : cause.isSelfDeparture = false) :
    (m.applyPeerRemoved a cause memberGen).1.standingOf id =
      if id = a then max (m.standingOf id) (standing memberGen .dead) else m.standingOf id := by
  unfold applyPeerRemoved
  by_cases hstale : m.ignoresRemoval a cause memberGen = true
  · obtain ⟨entry, hentry, hle⟩ := (ignoresRemoval_iff hcause).mp hstale
    rw [if_pos hstale]
    exact standingIn_max_of_le hentry hle
  · have hfresh : ∀ entry, m.peerState.lookup a = some entry →
        standing entry.memberGen entry.state < standing memberGen .dead := fun entry hentry =>
      not_le.mp fun hle => hstale ((ignoresRemoval_iff hcause).mpr ⟨entry, hentry, hle⟩)
    rw [if_neg hstale, hcause]
    refine (standingOf_settle (fun h => ?_) id).trans
      (standingIn_removeLiveness (fun entry hentry => (hfresh entry hentry).le))
    have hsame := (Bool.or_eq_false_iff.mp h).1
    cases (removeLiveness_changed hfresh).symm.trans hsame

/-- One peer of a snapshot takes the maximum with the standing the snapshot gives it. -/
theorem standingIn_restoreAlive : standingIn (restoreAlive memberGenerations acc a).1 id =
      if id = a then max (standingIn acc.1 id)
        (standing ((memberGenerations.lookup a).getD 0) .alive)
      else standingIn acc.1 id := by
  unfold restoreAlive
  cases hentry : acc.1.lookup a with
  | none =>
    refine standingIn_insert_max ?_
    rw [standingIn_of_none hentry, max_eq_right bot_le]
  | some entry =>
    dsimp only
    by_cases hlt : entry.memberGen < (memberGenerations.lookup a).getD 0
    · rw [if_pos hlt]
      refine standingIn_insert_max ?_
      rw [standingIn_of_some hentry, max_eq_right (WithBot.coe_le_coe.mpr (standing_le_of_lt hlt))]
    · rw [if_neg hlt]
      exact standingIn_max_of_le hentry (standing_alive_le (not_lt.mp hlt))

/-- The alive-membership loop, peer by peer. -/
theorem standingIn_foldl_restoreAlive {l : List String} :
    standingIn (l.foldl (restoreAlive memberGenerations) acc).1 id =
      if id ∈ l then max (standingIn acc.1 id)
        (standing ((memberGenerations.lookup id).getD 0) .alive)
      else standingIn acc.1 id := by
  induction l generalizing acc with
  | nil => rfl
  | cons a l ih =>
    rw [foldl_cons, ih, standingIn_restoreAlive]
    by_cases ha : id = a
    · subst ha
      by_cases hin : id ∈ l
      · simp [hin]
      · simp [hin]
    · simp [ha]

/-- A loop step that reports no change has made none. -/
theorem foldl_unchanged {S A : Type*} {step : S × Bool → A → S × Bool}
    (hstep : ∀ acc a, (step acc a).2 = false → step acc a = acc) {l : List A} {acc : S × Bool}
    (h : (l.foldl step acc).2 = false) : l.foldl step acc = acc := by
  induction l generalizing acc with
  | nil => rfl
  | cons a l ih =>
    have hrest := ih h
    rw [foldl_cons, hrest]
    refine hstep acc a ?_
    rw [foldl_cons, hrest] at h
    exact h

/-- A restored peer that reports no change makes none. -/
theorem restoreAlive_unchanged (memberGenerations : HashMap String ℕ)
    (acc : HashMap String PeerEntry × Bool) (a : String)
    (h : (restoreAlive memberGenerations acc a).2 = false) :
    restoreAlive memberGenerations acc a = acc := by
  unfold restoreAlive at h ⊢
  dsimp only at h ⊢
  split at h
  · cases h
  · split at h
    · cases h
    · rename_i hgen
      rw [if_neg hgen]

/-- A restore takes the maximum with the standing of every peer that the other node holds
alive. -/
theorem standingOf_restore {peer : Membership} : (m.restore peer.snapshot).standingOf id =
      if peer.isPeerAlive id then max (m.standingOf id) (peer.standingOf id)
      else m.standingOf id := by
  have hmem : id ∈ peer.snapshot.aliveMembers ↔
      ∃ entry, peer.peerState.lookup id = some entry ∧ entry.state = .alive := by
    simp only [snapshot, mem_map, mem_filter, decide_eq_true_eq]
    constructor
    · rintro ⟨⟨x, entry⟩, ⟨hin, halive⟩, rfl⟩
      exact ⟨entry, mem_entries_iff.mp hin, halive⟩
    · rintro ⟨entry, hentry, halive⟩
      exact ⟨⟨id, entry⟩, ⟨mem_entries_iff.mpr hentry, halive⟩, rfl⟩
  have hsettle : (m.restore peer.snapshot).standingOf id = standingIn
      (peer.snapshot.aliveMembers.foldl (restoreAlive peer.snapshot.memberGenerations)
        (m.peerState, false)).1 id := by
    refine standingOf_settle (fun h => ?_) id
    exact congrArg Prod.fst (foldl_unchanged (restoreAlive_unchanged _)
      (Bool.or_eq_false_iff.mp h).2)
  rw [hsettle, standingIn_foldl_restoreAlive]
  cases hentry : peer.peerState.lookup id with
  | none =>
    have hnot : id ∉ peer.snapshot.aliveMembers := by simp [hmem, hentry]
    simp [hnot, isPeerAlive, hentry, standingOf]
  | some entry =>
    obtain ⟨state, g⟩ := entry
    cases state with
    | dead =>
      have hnot : id ∉ peer.snapshot.aliveMembers := by simp [hmem, hentry]
      simp [hnot, isPeerAlive, hentry, standingOf]
    | alive =>
      have hin : id ∈ peer.snapshot.aliveMembers := hmem.mpr ⟨_, hentry, rfl⟩
      have hgen : (peer.snapshot.memberGenerations.lookup id).getD 0 = g := by
        simp [snapshot, lookup_mapValues, lookup_retain, hentry, Option.filter]
      have halive : peer.isPeerAlive id = true := by simp [isPeerAlive, hentry]
      rw [if_pos hin, hgen, if_pos halive]
      exact congrArg (max (m.standingOf id)) (standingIn_of_some hentry).symm

/-! ## Roles -/

/-- **The role table is the projection.** A peer is a candidate for a role exactly if it is
advertised with the matching bit and alive. -/
structure Coherent (m : Membership) : Prop where
  observers : ∀ id, id ∈ m.roleTable.observers ↔
    (∃ canBePrimary version g,
      m.capabilities.lookup id = some (.advertised true canBePrimary version g)) ∧
    ∃ g, m.peerState.lookup id = some ⟨.alive, g⟩
  canBePrimary : ∀ id, id ∈ m.roleTable.canBePrimary ↔
    (∃ isObserver version g,
      m.capabilities.lookup id = some (.advertised isObserver true version g)) ∧
    ∃ g, m.peerState.lookup id = some ⟨.alive, g⟩

/-- A peer is alive if its entry says so. -/
theorem isPeerAlive_iff :
    m.isPeerAlive id = true ↔ ∃ g, m.peerState.lookup id = some ⟨.alive, g⟩ := by
  unfold isPeerAlive
  cases m.peerState.lookup id with
  | none => simp
  | some entry =>
    obtain ⟨state, g⟩ := entry
    cases state <;> simp

/-- The candidates are the living peers with the capability. -/
theorem mem_candidates {bit : CapabilityEntry → Bool} :
    id ∈ m.candidates bit ↔ (∃ entry, m.capabilities.lookup id = some entry ∧ bit entry = true) ∧
      m.isPeerAlive id = true := by
  simp only [candidates, mem_toFinset, mem_map, mem_filter, Bool.and_eq_true]
  constructor
  · rintro ⟨⟨x, entry⟩, ⟨hin, hbit, halive⟩, rfl⟩
    exact ⟨⟨entry, mem_entries_iff.mp hin, hbit⟩, halive⟩
  · rintro ⟨⟨entry, hentry, hbit⟩, halive⟩
    exact ⟨⟨id, entry⟩, ⟨mem_entries_iff.mpr hentry, hbit, halive⟩, rfl⟩

/-- Projecting the roles makes them coherent. -/
theorem coherent_reprojectRoles : m.reprojectRoles.Coherent where
  observers id := by
    refine mem_candidates.trans (and_congr ⟨?_, fun ⟨_, _, _, h⟩ => ⟨_, h, rfl⟩⟩ isPeerAlive_iff)
    rintro ⟨⟨isObserver, canBePrimary, version, g⟩ | _, hentry, hbit⟩
    all_goals cases hbit
    exact ⟨canBePrimary, version, g, hentry⟩
  canBePrimary id := by
    refine mem_candidates.trans (and_congr ⟨?_, fun ⟨_, _, _, h⟩ => ⟨_, h, rfl⟩⟩ isPeerAlive_iff)
    rintro ⟨⟨isObserver, canBePrimary, version, g⟩ | _, hentry, hbit⟩
    all_goals cases hbit
    exact ⟨isObserver, version, g, hentry⟩

/-- Every rule ends in `settle`, which projects the roles or changes nothing. -/
theorem Coherent.settle (hm : m.Coherent) (peerState : HashMap String PeerEntry)
    (capabilities : HashMap String CapabilityEntry) (changed : Bool) :
    (m.settle peerState capabilities changed).1.Coherent := by
  cases changed with
  | true => exact coherent_reprojectRoles
  | false => exact hm

/-- A mutation keeps the role table coherent, whatever its cause and whatever an authority says. -/
theorem Coherent.apply (hm : m.Coherent) (authority : String → Bool)
    (mutation : PeerMutation) : (m.apply authority mutation).1.Coherent := by
  cases mutation with
  | peerJoined peerId isObserver canBePrimary capVersion memberGen =>
    change (m.applyPeerJoined authority peerId isObserver canBePrimary capVersion
      memberGen).1.Coherent
    unfold applyPeerJoined
    split
    · exact hm
    · exact hm.settle _ _ _
  | setCanBePrimary => exact hm.settle _ _ _
  | peerRemoved id cause memberGen =>
    change (m.applyPeerRemoved id cause memberGen).1.Coherent
    unfold applyPeerRemoved
    split
    · exact hm
    · exact hm.settle _ _ _

/-! ## Runs -/

/-- Without an authority, a mutation takes the maximum with what it says. -/
theorem standingOf_apply {mutation : PeerMutation} (hplain : mutation.isSelfDeparture = false) :
    (m.apply (fun _ => false) mutation).1.standingOf id = match mutation.announces id with
      | some v => max (m.standingOf id) v
      | none => m.standingOf id := by
  cases mutation with
  | peerJoined peerId isObserver canBePrimary capVersion memberGen =>
    rw [PeerMutation.announces]
    refine (standingOf_applyPeerJoined m peerId isObserver canBePrimary capVersion memberGen
      id).trans ?_
    split <;> rfl
  | setCanBePrimary peerId canBePrimary capVersion =>
    exact standingOf_settle (fun _ => rfl) id
  | peerRemoved =>
    rw [PeerMutation.announces]
    refine (standingOf_applyPeerRemoved hplain).trans ?_
    split <;> rfl

/-- **The replicas of a system.** All begin with `start`, apply mutations of `ms` in any order
and any number of times, and restore each other's membership. The list is what a replica has
applied. -/
inductive Replica (start : Membership) (ms : List PeerMutation) :
    List PeerMutation → Membership → Prop
  | start : Replica start ms [] start
  | apply {applied : List PeerMutation} {m : Membership} (mutation : PeerMutation)
      (hin : mutation ∈ ms) (h : Replica start ms applied m) :
      Replica start ms (mutation :: applied) (m.apply (fun _ => false) mutation).1
  | restore {applied applied' : List PeerMutation} {m peer : Membership}
      (h : Replica start ms applied m) (hpeer : Replica start ms applied' peer) :
      Replica start ms applied (m.restore peer.snapshot)

/-- For one peer, a replica is one that keeps the greatest standing it has heard of. -/
theorem Replica.heard (hplain : ∀ mutation ∈ ms, mutation.isSelfDeparture = false)
    (h : Replica start ms applied m) :
    Heard (start.standingOf id) (ms.filterMap (·.announces id)) (applied.filterMap (·.announces id))
      (m.standingOf id) := by
  induction h with
  | start => exact .start
  | @apply applied m mutation hin _ ih =>
    rw [standingOf_apply (hplain mutation hin), filterMap_cons]
    cases hsays : mutation.announces id with
    | none => exact ih
    | some v => exact .tell v (mem_filterMap.mpr ⟨mutation, hin, hsays⟩) ih
  | @restore _ _ m peer _ _ ih ihpeer =>
    rw [standingOf_restore]
    split
    · exact .learn ih ihpeer
    · exact ih

/-- Every replica is coherent. -/
theorem Replica.coherent (hstart : start.Coherent) (h : Replica start ms applied m) :
    m.Coherent := by
  induction h with
  | start => exact hstart
  | apply mutation _ _ ih => exact ih.apply _ mutation
  | restore _ _ ih => exact ih.settle _ _ _

/-- **Membership converges.** Whatever a replica has applied and restored, its role table is the
projection of advertised capabilities and liveness. Once it has applied every mutation, in any
order, each peer stands at the maximum of where it began and what the mutations say. -/
theorem membership_converges {start : Membership} (hstart : start.Coherent)
    {ms applied : List PeerMutation} {m : Membership}
    (hplain : ∀ mutation ∈ ms, mutation.isSelfDeparture = false) (h : Replica start ms applied m) :
    m.Coherent ∧ ((∀ mutation ∈ ms, mutation ∈ applied) → ∀ id,
      m.standingOf id = (ms.filterMap (·.announces id)).foldl max (start.standingOf id)) := by
  refine ⟨h.coherent hstart, fun hall id => (h.heard hplain).eq_foldl_max fun v hv => ?_⟩
  obtain ⟨mutation, hin, hsays⟩ := mem_filterMap.mp hv
  exact mem_filterMap.mpr ⟨mutation, hall mutation hin, hsays⟩

end Membership

namespace Sample

/-- A node that knows no peer. -/
def noPeers : Membership := ⟨∅, ∅, ⟨∅, ∅⟩⟩

/-- The empty membership is coherent. -/
theorem noPeers_coherent : noPeers.Coherent :=
  ⟨fun id => by simp [noPeers], fun id => by simp [noPeers]⟩

/-- A peer joins, is removed, and joins again in the next generation. -/
def rejoin : List PeerMutation :=
  [.peerJoined "p" false true ⟨1, 0⟩ 0, .peerRemoved "p" .keepaliveMiss 0,
    .peerJoined "p" false true ⟨1, 1⟩ 1]

/-- A node that has heard of the first join only. -/
def firstJoin : Membership :=
  (noPeers.apply (fun _ => false) (.peerJoined "p" false true ⟨1, 0⟩ 0)).1

/-- A node that hears of the joins and the removal in the reverse order, and in between restores
the membership of the node that knows the first join only. -/
def reversed : Membership :=
  let m := (noPeers.apply (fun _ => false) (.peerJoined "p" false true ⟨1, 1⟩ 1)).1
  let m := (m.apply (fun _ => false) (.peerRemoved "p" .keepaliveMiss 0)).1.restore
    firstJoin.snapshot
  (m.apply (fun _ => false) (.peerJoined "p" false true ⟨1, 0⟩ 0)).1

/-- The peer is alive in its second generation, and a candidate. -/
theorem reversed_rejoin_converges :
    reversed.Coherent ∧ reversed.standingOf "p" = standing 1 .alive ∧
      reversed.roleTable.canBePrimary = {"p"} := by
  have hrun : Membership.Replica noPeers rejoin
      [.peerJoined "p" false true ⟨1, 0⟩ 0, .peerRemoved "p" .keepaliveMiss 0,
        .peerJoined "p" false true ⟨1, 1⟩ 1] reversed :=
    .apply _ (by decide) (.restore (.apply _ (by decide) (.apply _ (by decide) .start))
      (.apply _ (by decide) .start))
  have h := Membership.membership_converges noPeers_coherent (by decide) hrun
  refine ⟨h.1, ?_, by decide⟩
  decide

end Sample

end DynRunner
