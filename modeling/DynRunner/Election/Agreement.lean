import DynRunner.Election.Secondary
import DynRunner.Lib.Runs

/-!
# Agreement in the failover election

Several secondaries hold an election among themselves while they all see the same live peers and the
same observers, and the old primary is silent. A tick picks the candidate among the peers that are
not observers, while a voter compares the candidate with all of its live peers. At most one
secondary is promoted, the one with the smallest id, and a quorum of secondaries has confirmed it.
But its request is confirmed by the others only when no observer among the live peers has a smaller
id.
-/

namespace DynRunner

open Election Finset ElectionView

/-- What all survivors see: the ids that are alive, the observers, and whether the old primary
still counts for the quorum. -/
structure ElectionFleet where
  live : Finset String
  observers : Finset String
  primaryCounted : Bool

namespace ElectionFleet

variable (fleet : ElectionFleet)

/-- The secondaries that hold the election. -/
def survivors : Finset String := fleet.live \ fleet.observers

/-- The quorum of a survivor. -/
def quorum (node : String) : ℕ :=
  failoverQuorum ((fleet.live.erase node).card + if fleet.primaryCounted then 1 else 0)

/-- A survivor has this view of the fleet. -/
structure SeenBy (node : String) (view : ElectionView) : Prop where
  survivor : node ∈ fleet.survivors
  name : view.secondaryId = node
  livePeers : view.livePeerIds = fleet.live.erase node
  observers : view.observers = fleet.observers
  primary : view.currentPrimaryInQuorum = fleet.primaryCounted

instance (node : String) (view : ElectionView) : Decidable (fleet.SeenBy node view) :=
  decidable_of_iff (node ∈ fleet.survivors ∧ view.secondaryId = node ∧
      view.livePeerIds = fleet.live.erase node ∧ view.observers = fleet.observers ∧
      view.currentPrimaryInQuorum = fleet.primaryCounted)
    ⟨fun ⟨a, b, c, d, e⟩ => ⟨a, b, c, d, e⟩, fun ⟨a, b, c, d, e⟩ => ⟨a, b, c, d, e⟩⟩

/-- The survivor with the smallest id. -/
def IsLowest (node : String) : Prop :=
  node ∈ fleet.survivors ∧ ∀ other ∈ fleet.survivors, node ≤ other

end ElectionFleet

/-- The states of all nodes, the frames that may still arrive with their senders, and all frames
that were sent. -/
structure ElectionWorld where
  states : String → ElectionState
  inFlight : Finset (String × ElectionFrame)
  sent : Finset (String × ElectionFrame)

/-- What happens in the fleet. A node acts with the view that it has at the moment. -/
inductive FleetEvent
  | tick (node : String) (view : ElectionView) (now : ℕ)
  | deliver (node : String) (view : ElectionView) (flight : String × ElectionFrame) (now : ℕ)
  | expire (flight : String × ElectionFrame)

namespace ElectionWorld

/-- Nobody suspects the primary yet. -/
def start : ElectionWorld := ⟨fun _ => .normal, ∅, ∅⟩

/-- A node goes to a state and sends frames. -/
def act (w : ElectionWorld) (node : String) (state : ElectionState)
    (frames : Finset ElectionFrame) : ElectionWorld where
  states := Function.update w.states node state
  inFlight := w.inFlight ∪ frames.image (Prod.mk node)
  sent := w.sent ∪ frames.image (Prod.mk node)

/-- What happens at an event. Nobody receives its own frames. -/
def step (w : ElectionWorld) : FleetEvent → ElectionWorld
  | .tick node view now =>
    let actions := view.runElectionTick (w.states node) now
    w.act node actions.state actions.broadcast.toFinset
  | .deliver node view flight now =>
    if flight ∈ w.inFlight ∧ flight.1 ≠ node then
      let (state, reply) := view.handleElectionFrame (w.states node) flight.1 flight.2 now
      w.act node state (reply.elim ∅ ({·}))
    else w
  | .expire flight => { w with inFlight := w.inFlight.erase flight }

end ElectionWorld

namespace ElectionFleet

variable (fleet : ElectionFleet)

/-- Survivors act with the common view. -/
def Shared (_w : ElectionWorld) : FleetEvent → Prop
  | .tick node view _ | .deliver node view _ _ => fleet.SeenBy node view
  | .expire _ => True

instance (w : ElectionWorld) (event : FleetEvent) : Decidable (fleet.Shared w event) := by
  unfold Shared
  split <;> infer_instance

/-- The worlds of the runs in which all survivors hold the same, unchanging view. -/
def Reached : ElectionWorld → Prop :=
  RunsTo ElectionWorld.step (· = .start) fleet.Shared

/-- The start is reached. -/
theorem reached_start : fleet.Reached .start := .start rfl

section Views

variable {fleet} {node : String} {view : ElectionView}

variable (h : fleet.SeenBy node view)

include h

/-- The quorum that the code computes. -/
theorem SeenBy.quorum : failoverQuorum view.failoverQuorumPeerCount = fleet.quorum node := by
  unfold failoverQuorumPeerCount ElectionFleet.quorum
  rw [h.livePeers, h.primary]

/-- Who leads in the eyes of a tick is the smallest survivor. -/
theorem SeenBy.isLowest
    (hleads : view.lowestWith (view.livePeerIds \ view.observers) = view.secondaryId) :
    fleet.IsLowest node := by
  refine ⟨h.survivor, fun other hother => ?_⟩
  rw [h.name] at hleads
  rw [← hleads]
  apply min'_le
  rw [h.name, h.livePeers, h.observers]
  by_cases heq : other = node
  · rw [heq]
    exact mem_insert_self _ _
  · obtain ⟨hlive, hobserver⟩ := mem_sdiff.mp hother
    exact mem_insert_of_mem (mem_sdiff.mpr ⟨mem_erase.mpr ⟨heq, hlive⟩, hobserver⟩)

/-- What a voter compares the candidate with: everything that is alive. -/
theorem SeenBy.lowest_eq_iff {candidate : String}
    (hcandidate : fleet.IsLowest candidate) : view.lowestWith view.livePeerIds = candidate ↔
      ∀ observer ∈ fleet.live ∩ fleet.observers, candidate < observer := by
  obtain ⟨hsurvivor, hlowest⟩ := hcandidate
  obtain ⟨hlive, hobserver⟩ := mem_sdiff.mp hsurvivor
  have hmem : ∀ other, other ∈ insert view.secondaryId view.livePeerIds ↔ other ∈ fleet.live := by
    intro other
    have hnode := (mem_sdiff.mp h.survivor).1
    rw [h.name, h.livePeers, insert_erase hnode]
  constructor
  · intro heq observer hmemObserver
    obtain ⟨hliveObserver, hobs⟩ := mem_inter.mp hmemObserver
    have hle : candidate ≤ observer := by
      rw [← heq]
      exact min'_le _ _ ((hmem observer).mpr hliveObserver)
    refine lt_of_le_of_ne hle fun heq' => hobserver ?_
    rw [heq']
    exact hobs
  · intro hobservers
    refine le_antisymm (min'_le _ _ ((hmem candidate).mpr hlive)) ?_
    refine le_min' _ _ _ fun other hother => ?_
    have hother := (hmem other).mp hother
    by_cases hobs : other ∈ fleet.observers
    · exact (hobservers other (mem_inter.mpr ⟨hother, hobs⟩)).le
    · exact hlowest other (mem_sdiff.mpr ⟨hother, hobs⟩)

end Views

/-- The voters are survivors, and all but the candidate have sent a confirmation. -/
def Confirmed (w : ElectionWorld) (candidate : String) (round : ℕ) (voters : Finset String) :
    Prop :=
  voters ⊆ fleet.survivors ∧ candidate ∈ voters ∧
    ∀ voter ∈ voters, voter ≠ candidate → (voter, .promotionConfirm candidate round) ∈ w.sent

/-- Candidates and winners are the smallest survivors, with the confirmations that they count. -/
structure Backed (w : ElectionWorld) : Prop where
  inFlight : w.inFlight ⊆ w.sent
  senders : ∀ flight ∈ w.sent, flight.1 ∈ fleet.survivors
  candidate : ∀ node round confirms started, w.states node = .candidate round confirms started →
    fleet.IsLowest node ∧ fleet.Confirmed w node round confirms
  promoted : ∀ node, w.states node = .promoted → fleet.IsLowest node ∧
    (1 < fleet.quorum node → ∃ round voters, fleet.quorum node ≤ card voters ∧
      fleet.Confirmed w node round voters)

/-- At the start nothing needs to be backed. -/
theorem backed_start : fleet.Backed .start where
  inFlight := Subset.refl _
  senders flight h := by simp [ElectionWorld.start] at h
  candidate node round confirms started h := by cases h
  promoted node h := by cases h

section Steps

variable {fleet} {w : ElectionWorld} {node : String} {view : ElectionView}
  {candidate sender : String} {now round : ℕ} {state : ElectionState}

/-- A confirmed candidate stays confirmed. -/
theorem Confirmed.mono {voters : Finset String}
    (h : fleet.Confirmed w candidate round voters) {w' : ElectionWorld} (hsent : w.sent ⊆ w'.sent) :
    fleet.Confirmed w' candidate round voters :=
  ⟨h.1, h.2.1, fun voter hvoter hne => hsent (h.2.2 voter hvoter hne)⟩

/-- A candidate counts itself. -/
theorem IsLowest.confirmed (h : fleet.IsLowest node) (w : ElectionWorld) (round : ℕ) :
    fleet.Confirmed w node round {node} :=
  ⟨singleton_subset_iff.mpr h.1, mem_singleton_self _,
    fun _ hvoter hne => absurd (mem_singleton.mp hvoter) hne⟩

/-- A survivor acts: its next state must be backed by what was sent before. -/
theorem Backed.act (h : fleet.Backed w) (hnode : node ∈ fleet.survivors)
    (frames : Finset ElectionFrame)
    (hcandidate : ∀ round confirms started, state = .candidate round confirms started →
      fleet.IsLowest node ∧ fleet.Confirmed w node round confirms)
    (hpromoted : state = .promoted → fleet.IsLowest node ∧
      (1 < fleet.quorum node → ∃ round voters, fleet.quorum node ≤ card voters ∧
        fleet.Confirmed w node round voters)) : fleet.Backed (w.act node state frames) := by
  have hsent : w.sent ⊆ (w.act node state frames).sent := subset_union_left
  have hstate {other s} (hother : Function.update w.states node state other = s) :
      other = node ∧ state = s ∨ w.states other = s := by
    by_cases heq : other = node
    · exact .inl ⟨heq, by rwa [heq, Function.update_self] at hother⟩
    · exact .inr (by rwa [Function.update_of_ne heq] at hother)
  refine ⟨union_subset_union_left h.inFlight, fun flight hflight => ?_,
    fun other round confirms started hother => ?_, fun other hother => ?_⟩
  · rcases mem_union.mp hflight with hflight | hflight
    · exact h.senders flight hflight
    · obtain ⟨frame, -, rfl⟩ := mem_image.mp hflight
      exact hnode
  · obtain ⟨hlowest, hconfirmed⟩ := (hstate hother).elim
      (fun ⟨hnode, hown⟩ => hnode ▸ hcandidate round confirms started hown)
      (h.candidate other round confirms started)
    exact ⟨hlowest, hconfirmed.mono hsent⟩
  · obtain ⟨hlowest, hvoters⟩ := (hstate hother).elim
      (fun ⟨hnode, hown⟩ => hnode ▸ hpromoted hown) (h.promoted other)
    refine ⟨hlowest, fun hquorum => ?_⟩
    obtain ⟨round, voters, hcard, hconfirmed⟩ := hvoters hquorum
    exact ⟨round, voters, hcard, hconfirmed.mono hsent⟩

/-- A tick of a survivor. -/
theorem Backed.tick (h : fleet.Backed w) (hseen : fleet.SeenBy node view) (now : ℕ) :
    fleet.Backed (w.step (.tick node view now)) := by
  simp only [ElectionWorld.step]
  rcases view.runElectionTick_cases (w.states node) now with ⟨-, htick⟩ | ⟨-, hstate, -⟩ |
    ⟨-, -, htick⟩ | ⟨round, confirms, started, -, hstate, htick⟩
  · rw [htick]
    exact h.act hseen.survivor _ (fun _ _ _ heq => by cases heq) fun heq => by cases heq
  · rw [hstate]
    exact h.act hseen.survivor _ (h.candidate node) (h.promoted node)
  · rw [htick]
    rcases view.settleCandidate_cases 1 now with ⟨hleads, hquorum, hsettle⟩ | ⟨hleads, hsettle⟩ |
      hsettle
    · rw [hsettle]
      rw [hseen.quorum] at hquorum
      exact h.act hseen.survivor _ (fun _ _ _ heq => by cases heq)
        fun _ => ⟨hseen.isLowest hleads, fun hlarge => absurd hquorum (not_le.mpr hlarge)⟩
    · have hlowest := hseen.isLowest hleads
      rw [hsettle, hseen.name]
      refine h.act hseen.survivor _ (fun round confirms started heq => ?_) fun heq => by cases heq
      cases heq
      exact ⟨hlowest, hlowest.confirmed w 1⟩
    · rw [hsettle]
      exact h.act hseen.survivor _ (fun _ _ _ heq => by cases heq) fun heq => by cases heq
  · have hlowest := (h.candidate node round confirms started hstate).1
    rw [htick, hseen.name]
    refine h.act hseen.survivor _ (fun _ _ _ heq => ?_) fun heq => by cases heq
    cases heq
    exact ⟨hlowest, hlowest.confirmed w (round + 1)⟩

/-- What a frame does to a campaign: a candidate counts a confirmation of its own round. -/
structure Counts (view : ElectionView) (state : ElectionState) (sender : String)
    (frame : ElectionFrame) (next : ElectionState) : Prop where
  candidate : ∀ {round confirms started}, next = .candidate round confirms started →
    state = .candidate round confirms started ∨ ∃ old, state = .candidate round old started ∧
      frame = .promotionConfirm view.secondaryId round ∧ confirms = insert sender old
  promoted : next = .promoted → state = .promoted ∨ ∃ round old started,
    state = .candidate round old started ∧ frame = .promotionConfirm view.secondaryId round ∧
      failoverQuorum view.failoverQuorumPeerCount ≤ (insert sender old).card

/-- What an answer does to the count. -/
theorem counts_handleElectionFrame {frame : ElectionFrame} :
    Counts view state sender frame (view.handleElectionFrame state sender frame now).1 := by
  cases frame with
  | timeoutQuery => exact ⟨.inl, .inl⟩
  | timeoutResponse =>
      cases state <;> constructor <;> simp [handleElectionFrame, recordTimeoutResponse]
  | promotionVote =>
    simp only [handleElectionFrame, recordPromotionVote]
    split_ifs <;> first | exact ⟨.inl, .inl⟩ | constructor <;> simp
  | promotionConfirm =>
    simp only [handleElectionFrame, recordPromotionConfirm]
    split_ifs with htarget
    · exact ⟨.inl, .inl⟩
    · rw [not_not] at htarget
      cases state with
      | candidate =>
        dsimp only
        split_ifs with hround hquorum
        · constructor <;> simp [htarget, hround, hquorum]
        · constructor <;> simp_all
        · exact ⟨.inl, .inl⟩
      | _ => exact ⟨.inl, .inl⟩

/-- A frame arrives at a survivor. -/
theorem Backed.deliver (h : fleet.Backed w) (hseen : fleet.SeenBy node view)
    {flight : String × ElectionFrame} (hflight : flight ∈ w.inFlight) (now : ℕ)
    (frames : Finset ElectionFrame) : fleet.Backed (w.act node
      (view.handleElectionFrame (w.states node) flight.1 flight.2 now).1 frames) := by
  have hcounted : ∀ {round old started}, w.states node = .candidate round old started →
      flight.2 = .promotionConfirm view.secondaryId round →
      fleet.IsLowest node ∧ fleet.Confirmed w node round (insert flight.1 old) := by
    intro round old started hold hframe
    obtain ⟨hlowest, hvoters, hself, hconfirms⟩ := h.candidate node round old started hold
    have hsent := h.inFlight hflight
    refine ⟨hlowest, insert_subset (h.senders flight hsent) hvoters,
      mem_insert_of_mem hself, fun voter hvoter hne => ?_⟩
    rcases mem_insert.mp hvoter with rfl | hvoter
    · rw [← hseen.name, ← hframe]
      exact hsent
    · exact hconfirms voter hvoter hne
  refine h.act hseen.survivor _ (fun round confirms started heq => ?_) fun heq => ?_
  · rcases counts_handleElectionFrame.candidate heq with hold | ⟨old, hold, hframe, rfl⟩
    · exact h.candidate node round confirms started hold
    · exact hcounted hold hframe
  · rcases counts_handleElectionFrame.promoted heq with
      hold | ⟨round, old, started, hold, hframe, hquorum⟩
    · exact h.promoted node hold
    · obtain ⟨hlowest, hconfirmed⟩ := hcounted hold hframe
      rw [hseen.quorum] at hquorum
      exact ⟨hlowest, fun _ => ⟨round, _, hquorum, hconfirmed⟩⟩

/-- What one event preserves. -/
theorem Backed.step (h : fleet.Backed w) (event : FleetEvent) (hshared : fleet.Shared w event) :
    fleet.Backed (w.step event) := by
  cases event with
  | tick node view now => exact h.tick hshared now
  | deliver node view flight now =>
    simp only [ElectionWorld.step]
    split_ifs with hdelivers
    · exact h.deliver hshared hdelivers.1 now _
    · exact h
  | expire =>
    exact
      { h with
        inFlight := (erase_subset _ _).trans h.inFlight }

/-- In every run each count is backed by frames that were sent. -/
theorem backed_of_reached (h : fleet.Reached w) : fleet.Backed w :=
  h.invariant (fun _ hstart => hstart ▸ fleet.backed_start) fun _ event hw hshared =>
    hw.step event hshared

end Steps

/-- **Agreement of the election.** In every run in which the survivors hold the same unchanging
view: at most one of them is promoted; candidates and winners have the smallest id among the
survivors; a winner whose quorum exceeds one has a quorum of distinct survivors with itself, of
which the others have confirmed it; and a survivor that has found the primary dead confirms the
smallest survivor's request if and only if no observer among the live peers has a smaller id. -/
theorem election_agreement {w : ElectionWorld} (hreached : fleet.Reached w) :
    (∀ node other, w.states node = .promoted → w.states other = .promoted → node = other) ∧
    (∀ node, w.states node = .promoted → fleet.IsLowest node ∧
      (1 < fleet.quorum node → ∃ round voters, fleet.quorum node ≤ card voters ∧
        fleet.Confirmed w node round voters)) ∧
    (∀ node round confirms started, w.states node = .candidate round confirms started →
      fleet.IsLowest node) ∧
    ∀ candidate node view round now, fleet.IsLowest candidate → node ≠ candidate →
      fleet.SeenBy node view → view.primarySilent now = true →
      ((view.handleElectionFrame (w.states node) candidate (.promotionVote candidate round) now).2 =
          some (.promotionConfirm candidate round) ↔
        ∀ observer ∈ fleet.live ∩ fleet.observers, candidate < observer) := by
  have hbacked := backed_of_reached hreached
  refine ⟨fun node other hnode hother => ?_, hbacked.promoted,
    fun node round confirms started hstate => (hbacked.candidate _ _ _ _ hstate).1,
    fun candidate node view round now hcandidate hne hseen hsilent => ?_⟩
  · have hlow := (hbacked.promoted node hnode).1
    have hlow' := (hbacked.promoted other hother).1
    exact le_antisymm (hlow.2 other hlow'.1) (hlow'.2 node hlow.1)
  · have hmember : view.isMeshMember candidate = true := by
      have hlive : candidate ∈ view.livePeerIds := by
        rw [hseen.livePeers]
        exact mem_erase.mpr ⟨hne.symm, (mem_sdiff.mp hcandidate.1).1⟩
      exact (mem_filter.mp hlive).2.2
    rw [← hseen.lowest_eq_iff hcandidate]
    simp only [handleElectionFrame, recordPromotionVote, hsilent,
      hmember, Bool.not_true, Bool.false_eq_true, and_false, if_false]
    by_cases hlowest : view.lowestWith view.livePeerIds = candidate
    · simp [hlowest]
    · simp [hlowest]

end ElectionFleet

namespace Sample

/-- The events of a run. -/
def fleetAfter (events : List FleetEvent) : ElectionWorld :=
  events.foldl ElectionWorld.step .start

/-- The node with the smallest id finds the primary dead, gets an agreement and campaigns. -/
def campaign (leader voter : ElectionView) : List FleetEvent :=
  [.tick leader.secondaryId leader 1000,
    .deliver voter.secondaryId voter (leader.secondaryId, .timeoutQuery "p") 2000,
    .deliver leader.secondaryId leader (voter.secondaryId, .timeoutResponse "p" none) 3000,
    .tick leader.secondaryId leader 6000]

/-- Two secondaries and an observer with a smaller id. -/
def watched : ElectionFleet := ⟨{"a", "b", "c"}, {"a"}, false⟩

/-- **A candidate that no voter accepts.** The survivors `b` and `c` share their view of the fleet,
`b` campaigns, `c` has found the primary dead as well, and refuses, because the observer `a` has a
smaller id. -/
theorem candidate_refused : watched.SeenBy "b" (survivor "b" "p" ["a", "c"] {"a"}) ∧
      watched.SeenBy "c" (survivor "c" "p" ["a", "b"] {"a"}) ∧
      ("b", .promotionVote "b" 1) ∈ (fleetAfter (campaign (survivor "b" "p" ["a", "c"] {"a"})
          (survivor "c" "p" ["a", "b"] {"a"}))).inFlight ∧
      (survivor "c" "p" ["a", "b"] {"a"}).primarySilent 7000 = true ∧
      ((survivor "c" "p" ["a", "b"] {"a"}).handleElectionFrame
        ((fleetAfter (campaign (survivor "b" "p" ["a", "c"] {"a"})
          (survivor "c" "p" ["a", "b"] {"a"}))).states "c") "b" (.promotionVote "b" 1) 7000).2 =
        none := by
  decide +kernel

/-- Two secondaries without an observer. -/
def unwatched : ElectionFleet := ⟨{"b", "c"}, ∅, false⟩

/-- The first one campaigns and is confirmed. -/
def wonElection : List FleetEvent :=
  campaign (survivor "b" "p" ["c"] ∅) (survivor "c" "p" ["b"] ∅) ++
    [.deliver "c" (survivor "c" "p" ["b"] ∅) ("b", .promotionVote "b" 1) 7000,
      .deliver "b" (survivor "b" "p" ["c"] ∅) ("c", .promotionConfirm "b" 1) 8000]

/-- In the sample a quorum elects the lowest candidate. -/
theorem wonElection_agreement :
    unwatched.IsLowest "b" ∧ (∃ round voters, unwatched.quorum "b" ≤ card voters ∧
      unwatched.Confirmed (fleetAfter wonElection) "b" round voters) ∧
    ((survivor "c" "p" ["b"] ∅).handleElectionFrame ((fleetAfter wonElection).states "c") "b"
      (.promotionVote "b" 2) 9000).2 = some (.promotionConfirm "b" 2) := by
  have hreached : unwatched.Reached (fleetAfter wonElection) :=
    RunsTo.foldl unwatched.reached_start wonElection (by decide +kernel)
  have hpromoted : (fleetAfter wonElection).states "b" = .promoted := rfl
  obtain ⟨-, hwinner, -, hvoter⟩ := unwatched.election_agreement hreached
  obtain ⟨hlowest, hvoters⟩ := hwinner "b" hpromoted
  refine ⟨hlowest, hvoters (by decide +kernel), ?_⟩
  refine (hvoter "b" "c" (survivor "c" "p" ["b"] ∅) 2 9000 hlowest ?_ ?_ ?_).mpr ?_
  · decide +kernel
  · decide +kernel
  · decide +kernel
  · decide +kernel

end Sample

end DynRunner
