import DynRunner.Membership.Model

/-!
# Replacements for removed secondaries

A removal that changes the membership is announced on a channel, and the primary requests a
replacement when it takes the announcement off. For a removal that comes from a committed restart
it also requests one at once. The two requests pass the same gates, so that it is left to the
budget whether the second one is refused.
-/

namespace DynRunner

open HashMap List

/-- An accepted request. -/
structure RespawnEventRecord where
  originalId : String
  cause : RemovalCause
  acceptedAt : ℕ

/-- How often secondaries are replaced. -/
structure RespawnBudget where
  maxPerSecondary : ℕ
  maxTotal : ℕ
  cooldown : ℕ

inductive RespawnDecision
  | accept
  | rejectFamilyBudget
  | rejectTotalBudget
  | rejectCooldown
  deriving DecidableEq

/-- The accepted requests by the number of the new secondary. -/
abbrev RespawnEvents := HashMap ℕ RespawnEventRecord

/-- `format_secondary_id`. -/
def formatSecondaryId (n : ℕ) : String := "secondary-" ++ toString n

/-- One pass over the accepted requests: both ids of a request belong to the same family. -/
def expandFamily (events : RespawnEvents) (ids : Finset String) : Finset String :=
  events.entries.foldl (fun ids e =>
    if e.2.originalId ∈ ids ∨ formatSecondaryId e.1 ∈ ids then
      insert (formatSecondaryId e.1) (insert e.2.originalId ids)
    else ids) ids

/-- All that were replaced for a secondary or replaced by it. Every pass that does not end the
loop adds an id. -/
def familyIds (events : RespawnEvents) (originalId : String) : Finset String :=
  (expandFamily events)^[2 * events.entries.length] {originalId}

/-- `should_respawn`. -/
def RespawnBudget.shouldRespawn (budget : RespawnBudget) (originalId : String)
    (events : RespawnEvents) (now : ℕ) : RespawnDecision :=
  let ids := familyIds events originalId
  let family := events.entries.filter fun e =>
    e.2.originalId ∈ ids ∨ formatSecondaryId e.1 ∈ ids
  if budget.maxTotal ≤ events.entries.length then .rejectTotalBudget
  else if budget.maxPerSecondary ≤ family.length then .rejectFamilyBudget
  else match (family.map (·.2.acceptedAt)).max? with
    | some latest => if now - latest < budget.cooldown then .rejectCooldown else .accept
    | none => .accept

/-- What the primary decides on replacements by. A removal is known by its secondary and how often
that one had been removed; `accepted` has the removals of the accepted requests. -/
structure Respawner where
  /-- How many secondaries there should be. -/
  numSecondaries : ℕ
  /-- How many respawns are allowed, and in which time. -/
  budget : Option RespawnBudget
  /-- The peers as this node sees them. -/
  membership : Membership
  /-- Whether the run is winding down. -/
  gracefulAbortRequested : Bool
  /-- How much work is left, if that is known. -/
  activeOrQueued : Option ℕ
  /-- The present time. -/
  now : ℕ
  /-- The number of the next secondary. -/
  nextSecondaryId : ℕ
  /-- The respawns so far. -/
  respawnEvents : RespawnEvents
  /-- The removals that were announced and not handled yet. -/
  announced : List ((String × ℕ) × RemovalCause)
  /-- The generation in which a peer was last removed. -/
  removed : String → ℕ
  /-- The removals whose respawn was accepted. -/
  accepted : List (String × ℕ)

namespace Respawner

/-- `dispatch_respawn_request`. -/
def dispatchRespawnRequest (r : Respawner) (removal : String × ℕ) (cause : RemovalCause) :
    Respawner :=
  if cause.isSelfDeparture || r.gracefulAbortRequested || r.membership.isPeerAlive removal.1 then r
  else match r.activeOrQueued, r.budget with
    | some current, some budget =>
      if current < r.numSecondaries ∧
          budget.shouldRespawn removal.1 r.respawnEvents r.now = .accept then
        { r with
          nextSecondaryId := r.nextSecondaryId + 1
          respawnEvents := r.respawnEvents.insert r.nextSecondaryId ⟨removal.1, cause, r.now⟩
          accepted := removal :: r.accepted }
      else r
    | _, _ => r

/-- A removal, which is announced if it changes the membership. -/
def peerRemoved (r : Respawner) (id : String) (cause : RemovalCause) (memberGen : ℕ) : Respawner :=
  match r.membership.applyPeerRemoved id cause memberGen with
  | (membership, .applied) =>
    let removal := (id, r.removed id + 1)
    { r with
      membership
      removed := Function.update r.removed id removal.2
      announced := r.announced ++ [(removal, cause)] }
  | _ => r

/-- `commit_consensus_restart`: the current generation of every target is removed, and a
replacement for it is requested. -/
def commitConsensusRestart (r : Respawner) (targets : List String) : Respawner :=
  let declared := targets.foldl (fun r id => r.peerRemoved id .keepaliveMiss
    (((r.membership.peerState.lookup id).map (·.memberGen)).getD 0)) r
  targets.foldl (fun r id => r.dispatchRespawnRequest (id, r.removed id) .keepaliveMiss) declared

/-- `dispatch_respawn_lifecycle`, for the next announcement. -/
def dispatchRespawnLifecycle (r : Respawner) : Respawner :=
  match r.announced with
  | [] => r
  | (removal, cause) :: announced => { r with announced }.dispatchRespawnRequest removal cause

/-- What happens at a primary. The membership and what is known of the jobs may change at any
time. -/
inductive Event
  | peerRemoved (id : String) (cause : RemovalCause) (memberGen : ℕ)
  | commitConsensusRestart (targets : List String)
  | dispatchRespawnLifecycle
  | observed (membership : Membership) (gracefulAbortRequested : Bool) (activeOrQueued : Option ℕ)
      (now : ℕ)

def step (r : Respawner) : Event → Respawner
  | .peerRemoved id cause memberGen => r.peerRemoved id cause memberGen
  | .commitConsensusRestart targets => r.commitConsensusRestart targets
  | .dispatchRespawnLifecycle => r.dispatchRespawnLifecycle
  | .observed membership gracefulAbortRequested activeOrQueued now =>
    { r with membership, gracefulAbortRequested, activeOrQueued, now }

variable {r : Respawner}

/-- What a request does: nothing, or the budget accepts it. -/
theorem dispatchRespawnRequest_cases (r : Respawner) (removal : String × ℕ) (cause : RemovalCause) :
    r.dispatchRespawnRequest removal cause = r ∨ ∃ budget, r.budget = some budget ∧
      budget.shouldRespawn removal.1 r.respawnEvents r.now = .accept ∧
      r.dispatchRespawnRequest removal cause = { r with
        nextSecondaryId := r.nextSecondaryId + 1
        respawnEvents := r.respawnEvents.insert r.nextSecondaryId ⟨removal.1, cause, r.now⟩
        accepted := removal :: r.accepted } := by
  unfold dispatchRespawnRequest
  split
  · exact .inl rfl
  · split
    · rename_i budget _ hbudget
      split_ifs with hgate
      · exact .inr ⟨budget, hbudget, hgate.2, rfl⟩
      · exact .inl rfl
    · exact .inl rfl

/-- A removal is announced under a number of its own, or nothing happens. -/
theorem peerRemoved_cases (r : Respawner) (id : String) (cause : RemovalCause) (memberGen : ℕ) :
    r.peerRemoved id cause memberGen = r ∨ ∃ membership,
      r.peerRemoved id cause memberGen = { r with
        membership
        removed := Function.update r.removed id (r.removed id + 1)
        announced := r.announced ++ [((id, r.removed id + 1), cause)] } := by
  unfold peerRemoved
  split
  · exact .inr ⟨_, rfl⟩
  · exact .inl rfl

/-- No removal is both announced and accepted, or either twice. -/
structure Requested (r : Respawner) : Prop where
  distinct : (r.accepted ++ r.announced.map Prod.fst).Nodup
  numbered : ∀ removal ∈ r.accepted ++ r.announced.map Prod.fst, removal.2 ≤ r.removed removal.1

/-- Only a committed restart leaves a death without its request. -/
theorem Requested.step (h : r.Requested) {event : Event}
    (hevent : ∀ targets, event ≠ .commitConsensusRestart targets) : (r.step event).Requested := by
  cases event with
  | peerRemoved id cause memberGen =>
    obtain heq | ⟨membership, heq⟩ := peerRemoved_cases r id cause memberGen
    · rwa [Respawner.step, heq]
    · have hnew : (id, r.removed id + 1) ∉ r.accepted ++ r.announced.map Prod.fst := fun hmem =>
        (h.numbered _ hmem).not_gt (Nat.lt_succ_self _)
      rw [Respawner.step, heq]
      refine ⟨?_, ?_⟩ <;> dsimp only <;> rw [map_append, ← append_assoc]
      · exact (perm_append_singleton _ _).nodup_iff.mpr (nodup_cons.mpr ⟨hnew, h.distinct⟩)
      · refine forall_mem_append.mpr ⟨fun removal hmem => (h.numbered removal hmem).trans ?_, ?_⟩
        · rw [Function.update_apply]
          split_ifs with hid
          · exact hid ▸ Nat.le_succ _
          · exact le_rfl
        · simp
  | commitConsensusRestart targets => exact (hevent targets rfl).elim
  | dispatchRespawnLifecycle =>
    rw [Respawner.step, dispatchRespawnLifecycle]
    split
    · exact h
    · rename_i removal cause announced hannounced
      obtain ⟨hdistinct, hnumbered⟩ := h
      rw [hannounced, map_cons] at hdistinct hnumbered
      obtain heq | ⟨budget, -, -, heq⟩ :=
        dispatchRespawnRequest_cases { r with announced } removal cause <;> rw [heq]
      · have hkept := (sublist_cons_self removal (announced.map Prod.fst)).append_left r.accepted
        exact ⟨hdistinct.sublist hkept, fun old hold => hnumbered old (hkept.subset hold)⟩
      · exact ⟨perm_middle.nodup_iff.mp hdistinct,
          fun old hold => hnumbered old (perm_middle.mem_iff.mpr hold)⟩
  | observed => exact ⟨h.distinct, h.numbered⟩

/-- What the requests and removals keep, an event keeps. -/
theorem step_of_parts {P : Respawner → Prop} (event : Event) (hr : P r)
    (hrequest : ∀ {r} removal cause, P r → P (r.dispatchRespawnRequest removal cause))
    (hremoved : ∀ {r} id cause memberGen, P r → P (r.peerRemoved id cause memberGen))
    (hother : ∀ {r} announced membership gracefulAbortRequested activeOrQueued now, P r →
      P { r with announced, membership, gracefulAbortRequested, activeOrQueued, now }) :
    P (r.step event) := by
  cases event with
  | peerRemoved => exact hremoved _ _ _ hr
  | commitConsensusRestart targets =>
    refine foldlRecOn targets _ ?_ fun _ h id _ => hrequest _ _ h
    exact foldlRecOn targets _ hr fun _ h id _ => hremoved _ _ _ h
  | dispatchRespawnLifecycle =>
    rw [step, dispatchRespawnLifecycle]
    split
    · exact hr
    · rename_i removal cause announced _
      exact hrequest _ _ (hother announced r.membership r.gracefulAbortRequested r.activeOrQueued
        r.now hr)
  | observed membership gracefulAbortRequested activeOrQueued now =>
    exact hother r.announced membership gracefulAbortRequested activeOrQueued now hr

/-- Each accepted request has an entry of its own in the log that the budget is checked by. -/
structure WithinBudget (budget : RespawnBudget) (r : Respawner) : Prop where
  allowed : r.budget = some budget
  logged : r.accepted.length = r.respawnEvents.entries.length
  total : r.accepted.length ≤ budget.maxTotal
  fresh : ∀ n ∈ r.respawnEvents, n < r.nextSecondaryId
  recorded : ∀ removal ∈ r.accepted, ∃ e ∈ r.respawnEvents.entries, e.2.originalId = removal.1
  single : budget.maxPerSecondary ≤ 1 → (r.accepted.map Prod.fst).Nodup

/-- The family of a secondary has the secondary itself. -/
theorem mem_familyIds (events : RespawnEvents) (id : String) : id ∈ familyIds events id := by
  have hgrows (ids : Finset String) : ids ⊆ expandFamily events ids :=
    foldlRecOn events.entries _ (motive := fun acc => ids ⊆ acc) (Finset.Subset.refl ids)
      fun acc hacc e _ => by
        split_ifs
        · exact (hacc.trans (Finset.subset_insert _ _)).trans (Finset.subset_insert _ _)
        · exact hacc
  unfold familyIds
  induction 2 * events.entries.length with
  | zero => exact Finset.mem_singleton_self id
  | succ n ih =>
    rw [Function.iterate_succ_apply']
    exact hgrows _ ih

variable {budget : RespawnBudget}

/-- A request for a respawn stays within the budget. -/
theorem WithinBudget.dispatchRespawnRequest (h : r.WithinBudget budget) (removal : String × ℕ)
    (cause : RemovalCause) : (r.dispatchRespawnRequest removal cause).WithinBudget budget := by
  obtain heq | ⟨budget', hbudget, haccept, heq⟩ := dispatchRespawnRequest_cases r removal cause
  · rwa [heq]
  · obtain rfl := Option.some.inj (h.allowed.symm.trans hbudget)
    rw [RespawnBudget.shouldRespawn] at haccept
    split_ifs at haccept with hfull hfamily
    have hnew : r.nextSecondaryId ∉ r.respawnEvents := fun hmem => (h.fresh _ hmem).false
    rw [heq]
    refine ⟨h.allowed, ?_, Nat.succ_le_of_lt (h.logged.trans_lt (not_le.mp hfull)), fun n hn => ?_,
      ?_, fun hsingle => nodup_cons.mpr ⟨fun hmem => ?_, h.single hsingle⟩⟩
    · rw [AList.entries_insert_of_notMem hnew, length_cons, length_cons, h.logged]
    · rcases (AList.mem_insert _).mp hn with rfl | hn
      · exact Nat.lt_succ_self _
      · exact (h.fresh n hn).trans (Nat.lt_succ_self _)
    · rw [AList.entries_insert_of_notMem hnew]
      refine forall_mem_cons.mpr ⟨⟨_, mem_cons_self, rfl⟩, fun other hother => ?_⟩
      obtain ⟨e, he, hid⟩ := h.recorded other hother
      exact ⟨e, mem_cons_of_mem _ he, hid⟩
    · -- An earlier request for the secondary stands in its family, which is full then.
      obtain ⟨other, hother, hid⟩ := mem_map.mp hmem
      obtain ⟨e, he, horiginal⟩ := h.recorded other hother
      refine hfamily (hsingle.trans (length_pos_iff_exists_mem.mpr ⟨e, mem_filter.mpr ⟨he, ?_⟩⟩))
      exact decide_eq_true (.inl (by rw [horiginal, hid]; exact mem_familyIds _ _))

/-- Every event stays within the budget. -/
theorem WithinBudget.step (h : r.WithinBudget budget) (event : Event) :
    (r.step event).WithinBudget budget := by
  refine step_of_parts event h (fun removal cause h => h.dispatchRespawnRequest removal cause)
    (fun {r} id cause memberGen h => ?_) fun _ _ _ _ _ h => { h with }
  obtain heq | ⟨membership, heq⟩ := peerRemoved_cases r id cause memberGen
  · rwa [heq]
  · rw [heq]
    exact { h with }

/-- A run from an empty log keeps within its budget. -/
theorem withinBudget_run (hbudget : r.budget = some budget) (hevents : r.respawnEvents = ∅)
    (haccepted : r.accepted = []) (events : List Event) :
    (events.foldl step r).WithinBudget budget := by
  refine foldlRecOn events step (motive := WithinBudget budget) ⟨hbudget, ?_, ?_, ?_, ?_, ?_⟩
    fun _ h event _ => h.step event
  · rw [haccepted, hevents]
    rfl
  · rw [haccepted]
    exact Nat.zero_le _
  · rw [hevents]
    exact fun n hn => by cases hn
  · rw [haccepted]
    exact fun _ hmem => by cases hmem
  · rw [haccepted]
    exact fun _ => nodup_nil

/-- No restart is committed, or the budget allows one replacement in total or for each secondary. -/
def NoneTwice (r : Respawner) (events : List Event) : Prop :=
  (∀ targets, .commitConsensusRestart targets ∉ events) ∨
    ∃ budget, r.budget = some budget ∧ r.respawnEvents = ∅ ∧
      (budget.maxTotal ≤ 1 ∨ budget.maxPerSecondary ≤ 1)

/-- **Each removal is replaced at most once**, in every run in which no restart is committed, or
whose budget allows one replacement only, in total or for each secondary. -/
theorem replaced_once (hannounced : r.announced = []) (haccepted : r.accepted = [])
    {events : List Event} (hevents : r.NoneTwice events) :
    (events.foldl step r).accepted.Nodup := by
  rcases hevents with hevents | ⟨budget, hbudget, hlog, hone⟩
  · refine (foldlRecOn events step (motive := Requested) ⟨?_, ?_⟩ fun _ h event hmem => ?_
      ).distinct.of_append_left
    · rw [haccepted, hannounced]
      exact nodup_nil
    · rw [haccepted, hannounced]
      exact forall_mem_nil _
    · refine h.step fun targets heq => hevents targets ?_
      rwa [← heq]
  · have hwithin := withinBudget_run hbudget hlog haccepted events
    rcases hone with htotal | hsingle
    · have hlength := hwithin.total.trans htotal
      match (events.foldl step r).accepted, hlength with
      | [], _ => exact nodup_nil
      | [removal], _ => exact nodup_singleton removal
    · exact (hwithin.single hsingle).of_map _

/-- **A run requests at most as many replacements as the budget has in total**, also where a
committed restart is replaced twice. -/
theorem accepted_within_budget (r : Respawner) (budget : RespawnBudget) (events : List Event) :
    let start := { r with budget := some budget, respawnEvents := ∅, accepted := [] }
    (events.foldl step start).accepted.length ≤ budget.maxTotal :=
  (withinBudget_run rfl rfl rfl events).total

end Respawner

namespace Sample

open Respawner

/-- One of two secondaries runs, and each may be replaced twice. -/
def oneRunning : Respawner where
  numSecondaries := 2
  budget := some ⟨2, 4, 0⟩
  membership := ((⟨∅, ∅, ⟨∅, ∅⟩⟩ : Membership).applyPeerJoined (fun _ => false) "s" false true
    .default 0).1
  gracefulAbortRequested := false
  activeOrQueued := some 1
  now := 0
  nextSecondaryId := 2
  respawnEvents := ∅
  announced := []
  removed := fun _ => 0
  accepted := []

/-- A reported death is replaced. -/
theorem death_replaced :
    let r := [.peerRemoved "s" .keepaliveMiss 0, .dispatchRespawnLifecycle].foldl step oneRunning
    r.accepted = [("s", 1)] ∧ r.accepted.Nodup :=
  ⟨by decide +kernel, replaced_once rfl rfl (.inl (by simp))⟩

/-- A committed restart is replaced at once, and again when its announcement is handled. -/
theorem restart_replaced_twice :
    ([.commitConsensusRestart ["s"], .dispatchRespawnLifecycle].foldl step oneRunning).accepted =
      [("s", 1), ("s", 1)] := by
  decide +kernel

end Sample

end DynRunner
