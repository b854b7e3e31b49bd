import DynRunner.Election.Secondary
import DynRunner.Lib.Runs

/-!
# Whose answers an election counts

A node in an election broadcasts queries and requests for votes, and whatever answers come back are
counted by their sender: a response whatever node and whichever election it is about, and a
confirmation if it has the number of the candidate's round, which starts from one in every election.
Here one node runs in an arbitrary mesh: its view changes, peers answer its broadcasts when they
like, and the answers arrive late, in any order, several times or never. The answers that are
counted are fresh when nothing of an older election is under way at the start of an election, the
view neither loses a peer nor changes the primary during an election, and only peers that the
quorum counts answer.
-/

namespace DynRunner

open Election Finset ElectionFrame ElectionView

/-- A broadcast of the node, or an answer to one. `election` is the election of the broadcast. It is
written down for the proofs, and nobody reads it. -/
structure ElectionFlight where
  sender : String
  frame : ElectionFrame
  election : ℕ
  deriving DecidableEq

/-- What a peer may answer to a broadcast. -/
def ElectionFrame.Answers : ElectionFrame → ElectionFrame → Prop
  | .timeoutQuery queryNodeId, .timeoutResponse queryNodeId' _ => queryNodeId' = queryNodeId
  | .promotionVote candidateId voteRound, .promotionConfirm newPrimaryId voteRound' =>
    newPrimaryId = candidateId ∧ voteRound' = voteRound
  | _, _ => False

instance (asked reply : ElectionFrame) : Decidable (asked.Answers reply) := by
  unfold Answers
  split <;> infer_instance

/-- A node, the number of its election, the frames that may still arrive and all that were sent. -/
structure Campaign where
  view : ElectionView
  state : ElectionState
  election : ℕ
  inFlight : Finset ElectionFlight
  sent : Finset ElectionFlight

/-- What happens to a node. -/
inductive CampaignEvent
  | tick (now : ℕ)
  | observe (view : ElectionView)
  | primaryMessage (now : ℕ)
  | primaryChanged
  | peerVote (candidate : String) (round now : ℕ)
  | peerAnswers (peer : String) (asked : ElectionFlight) (reply : ElectionFrame)
  | deliver (flight : ElectionFlight) (now : ℕ)
  | expire (flight : ElectionFlight)

namespace ElectionView

variable (v : ElectionView)

/-- The peers that the quorum counts: the live ones, and the primary while it is a member. -/
def quorumPeers : Finset String :=
  v.livePeerIds ∪ if v.currentPrimaryInQuorum then v.currentPrimary.elim ∅ ({·}) else ∅

end ElectionView

namespace Campaign

/-- A node before its first election. -/
def start (view : ElectionView) : Campaign := ⟨view, .normal, 0, ∅, ∅⟩

/-- Frames are sent in the current election. -/
def send (c : Campaign) (flights : Finset ElectionFlight) : Campaign :=
  { c with inFlight := c.inFlight ∪ flights, sent := c.sent ∪ flights }

/-- What happens at an event. A node keeps its name when its view changes, and a peer answers only
what is under way. -/
def step (c : Campaign) : CampaignEvent → Campaign
  | .tick now =>
    let actions := c.view.runElectionTick c.state now
    let election := if c.view.startsElection c.state now then c.election + 1 else c.election
    { c with state := actions.state, election }.send
      (actions.broadcast.map fun frame =>
        ElectionFlight.mk c.view.secondaryId frame election).toFinset
  | .observe view => { c with view := { view with secondaryId := c.view.secondaryId } }
  | .primaryMessage now =>
    let (view, state) := c.view.recordPrimaryMessage c.state now
    { c with view, state }
  | .primaryChanged => { c with state := .normal }
  | .peerVote candidate round now =>
    { c with state := (c.view.recordPromotionVote c.state candidate round now).1 }
  | .peerAnswers peer asked reply =>
    if asked ∈ c.inFlight ∧ asked.sender = c.view.secondaryId ∧ asked.frame.Answers reply ∧
        peer ≠ c.view.secondaryId then
      c.send {⟨peer, reply, asked.election⟩}
    else c
  | .deliver flight now =>
    if flight ∈ c.inFlight ∧ flight.sender ≠ c.view.secondaryId then
      { c with
        state := (c.view.handleElectionFrame c.state flight.sender flight.frame now).1 }
    else c
  | .expire flight => { c with inFlight := c.inFlight.erase flight }

/-- The node collects answers. -/
def Campaigning (c : Campaign) : Prop :=
  match c.state with
  | .suspecting _ _ | .candidate _ _ _ => True
  | _ => False

instance (c : Campaign) : Decidable c.Campaigning := by
  unfold Campaigning
  split <;> infer_instance

/-- Nothing of an older election is under way when an election starts; during an election the view
keeps the primary and the peers that the quorum counts; and only such peers answer. -/
def Calm (c : Campaign) : CampaignEvent → Prop
  | .tick now => c.view.startsElection c.state now = true → c.inFlight = ∅
  | .observe view => c.Campaigning →
      view.currentPrimary = c.view.currentPrimary ∧
      c.view.quorumPeers ⊆ quorumPeers { view with secondaryId := c.view.secondaryId }
  | .peerAnswers peer _ _ => peer ∈ c.view.quorumPeers
  | _ => True

instance (c : Campaign) (event : CampaignEvent) : Decidable (c.Calm event) := by
  unfold Calm
  split <;> infer_instance

/-- The states of the runs whose events all meet a condition. -/
def Reached (allowed : Campaign → CampaignEvent → Prop) : Campaign → Prop :=
  RunsTo step (fun c => ∃ view, c = start view) allowed

/-- An answer of a peer that the quorum counts, to a broadcast that this node has made in its
current election. -/
def FreshAnswer (c : Campaign) (peer : String) (asked reply : ElectionFrame) : Prop :=
  peer ∈ c.view.quorumPeers ∧ asked.Answers reply ∧
    ⟨c.view.secondaryId, asked, c.election⟩ ∈ c.sent ∧ ⟨peer, reply, c.election⟩ ∈ c.sent

/-- What holds between a node in an election and the frames. -/
structure Fresh (c : Campaign) : Prop where
  /-- Whatever arrives was sent. -/
  inFlight : c.inFlight ⊆ c.sent
  /-- Whatever is under way belongs to the current election. -/
  current : ∀ flight ∈ c.inFlight, flight.election = c.election
  /-- No election lies ahead. -/
  bounded : ∀ flight ∈ c.sent, flight.election ≤ c.election
  /-- Peers only answer. -/
  answers : ∀ flight ∈ c.sent, flight.sender ≠ c.view.secondaryId → ∃ asked,
    ⟨c.view.secondaryId, asked, flight.election⟩ ∈ c.sent ∧ asked.Answers flight.frame
  /-- The queries of the current election are about the current primary. -/
  about : c.Campaigning → ∀ flight ∈ c.sent, flight.election = c.election →
    ∀ queryNodeId, flight.frame = .timeoutQuery queryNodeId →
    c.view.currentPrimary = some queryNodeId
  /-- The answers under way come from peers that the quorum counts. -/
  counted : c.Campaigning → ∀ flight ∈ c.inFlight, flight.sender ≠ c.view.secondaryId →
    flight.sender ∈ c.view.quorumPeers
  responses : ∀ since responses, c.state = .suspecting since responses →
    ∀ peer age, responses.lookup peer = some age → ∃ primary,
      c.view.currentPrimary = some primary ∧
      c.FreshAnswer peer (.timeoutQuery primary) (.timeoutResponse primary age)
  confirms : ∀ round confirms started, c.state = .candidate round confirms started →
    ∀ peer ∈ confirms, peer ≠ c.view.secondaryId →
      c.FreshAnswer peer (.promotionVote c.view.secondaryId round)
        (.promotionConfirm c.view.secondaryId round)

/-- The start is fresh. -/
theorem fresh_start {view : ElectionView} : (start view).Fresh where
  inFlight := Subset.refl _
  current flight h := by simp [start] at h
  bounded flight h := by simp [start] at h
  answers flight h := by simp [start] at h
  about h := by cases h
  counted h := by cases h
  responses since responses h := by cases h
  confirms round confirms started h := by cases h

variable {c : Campaign} {state : ElectionState} {now : ℕ}

section

variable (h : c.Fresh)
include h

/-- A state that has nothing counted beyond the old one. -/
theorem Fresh.restate (hcampaigning : Campaigning { c with state } → c.Campaigning)
    (hresponses : ∀ since responses, state = .suspecting since responses →
      c.state = .suspecting since responses)
    (hconfirms : ∀ round confirms started, state = .candidate round confirms started →
      c.state = .candidate round confirms started ∨ confirms = {c.view.secondaryId}) :
    Fresh { c with state } where
  __ := h
  about hnow := h.about (hcampaigning hnow)
  counted hnow := h.counted (hcampaigning hnow)
  responses since responses heq := h.responses since responses (hresponses since responses heq)
  confirms round confirms started heq peer hpeer hne := by
    rcases hconfirms round confirms started heq with hold | rfl
    · exact h.confirms round confirms started hold peer hpeer hne
    · exact absurd (mem_singleton.mp hpeer) hne

/-- A state in which nothing is collected. -/
theorem Fresh.rest (hstate : ¬Campaigning { c with state }) : Fresh { c with state } := by
  refine h.restate (fun hnow => absurd hnow hstate) (fun since responses heq => ?_)
    (fun round confirms started heq => ?_)
  all_goals exact absurd (by simp [Campaigning, heq]) hstate

/-- Frames are sent: queries about the current primary, votes, or the answers of peers that the
quorum counts. -/
theorem Fresh.send {flights : Finset ElectionFlight}
    (hcurrent : ∀ flight ∈ flights, flight.election = c.election)
    (habout : ∀ flight ∈ flights, ∀ queryNodeId, flight.frame = .timeoutQuery queryNodeId →
      c.view.currentPrimary = some queryNodeId)
    (hanswers : ∀ flight ∈ flights, flight.sender ≠ c.view.secondaryId →
      flight.sender ∈ c.view.quorumPeers ∧ ∃ asked,
        ⟨c.view.secondaryId, asked, flight.election⟩ ∈ c.sent ∧ asked.Answers flight.frame) :
    (c.send flights).Fresh where
  inFlight := union_subset_union_left h.inFlight
  current flight hflight := (mem_union.mp hflight).elim (h.current flight) (hcurrent flight)
  bounded flight hflight :=
    (mem_union.mp hflight).elim (h.bounded flight) fun hnew => (hcurrent flight hnew).le
  answers := by
    intro flight hflight hsender
    rcases mem_union.mp hflight with hold | hnew
    · obtain ⟨asked, hasked, heq⟩ := h.answers flight hold hsender
      exact ⟨asked, mem_union_left _ hasked, heq⟩
    · obtain ⟨-, asked, hasked, heq⟩ := hanswers flight hnew hsender
      exact ⟨asked, mem_union_left _ hasked, heq⟩
  about hnow flight hflight helection :=
    (mem_union.mp hflight).elim (fun hold => h.about hnow flight hold helection) (habout flight)
  counted hnow flight hflight hsender :=
    (mem_union.mp hflight).elim (fun hold => h.counted hnow flight hold hsender)
      fun hnew => (hanswers flight hnew hsender).1
  responses since responses heq peer age hlookup := by
    obtain ⟨primary, hprimary, hpeer, hanswer, hasked, hreply⟩ :=
      h.responses since responses heq peer age hlookup
    exact ⟨primary, hprimary, hpeer, hanswer, mem_union_left _ hasked, mem_union_left _ hreply⟩
  confirms round confirms started heq peer hpeer hne := by
    obtain ⟨hcounts, hanswer, hasked, hreply⟩ :=
      h.confirms round confirms started heq peer hpeer hne
    exact ⟨hcounts, hanswer, mem_union_left _ hasked, mem_union_left _ hreply⟩

/-- The node broadcasts queries about the current primary, or votes. -/
theorem Fresh.broadcast {frames : List ElectionFrame}
    (habout : ∀ frame ∈ frames, ∀ queryNodeId, frame = .timeoutQuery queryNodeId →
      c.view.currentPrimary = some queryNodeId) : (c.send (frames.map fun frame =>
      ElectionFlight.mk c.view.secondaryId frame c.election).toFinset).Fresh := by
  refine h.send (fun flight hflight => ?_) (fun flight hflight queryNodeId hquery => ?_)
    (fun flight hflight hsender => ?_)
  all_goals
    obtain ⟨frame, hframe, rfl⟩ := List.mem_map.mp (List.mem_toFinset.mp hflight)
  · rfl
  · exact habout frame hframe queryNodeId hquery
  · exact absurd rfl hsender

/-- The node asks for votes. -/
theorem Fresh.vote (hnow : c.Campaigning) {round : ℕ} :
    (Campaign.send { c with state := .candidate round {c.view.secondaryId} now }
      ([promotionVote c.view.secondaryId round].map fun frame =>
        ElectionFlight.mk c.view.secondaryId frame c.election).toFinset).Fresh := by
  have hcandidate : Fresh { c with state := .candidate round {c.view.secondaryId} now } :=
    h.restate (fun _ => hnow) (fun _ _ heq => by cases heq)
      (fun _ _ _ heq => Or.inr (by cases heq; rfl))
  refine hcandidate.broadcast fun frame hframe queryNodeId hquery => ?_
  cases (List.mem_singleton.mp hframe).symm.trans hquery

/-- A tick. -/
theorem Fresh.tick (hcalm : c.Calm (.tick now)) : (c.step (.tick now)).Fresh := by
  simp only [step]
  rcases c.view.runElectionTick_cases c.state now with ⟨hstarts, htick⟩ |
    ⟨hstarts, hstate, hbroadcast⟩ | ⟨hstarts, ⟨since, responses, hstate⟩, htick⟩ |
    ⟨round, confirms, started, hstarts, hstate, htick⟩
  · -- An election starts, and nothing older is under way.
    have hempty : c.inFlight = ∅ := hcalm hstarts
    rw [htick, if_pos hstarts]
    have hnew : ∀ flight ∈ c.sent, flight.election ≠ c.election + 1 := by
      intro flight hflight
      have := h.bounded flight hflight
      omega
    have hfresh : Fresh { c with state := .suspecting now ∅, election := c.election + 1 } :=
      { __ := h
        current := fun flight hflight => by simp [hempty] at hflight
        bounded := fun flight hflight => (h.bounded flight hflight).trans (Nat.le_succ _)
        about := fun _ flight hflight helection => absurd helection (hnew flight hflight)
        counted := fun _ flight hflight => by simp [hempty] at hflight
        responses := fun since responses heq peer age hlookup => by
          cases heq
          cases hlookup
        confirms := fun round confirms started heq => by cases heq }
    refine hfresh.broadcast fun frame hframe queryNodeId hquery => ?_
    obtain ⟨primary, hprimary, hfr⟩ := Option.map_eq_some_iff.mp (Option.mem_toList.mp hframe)
    cases hfr.trans hquery
    exact hprimary
  · rw [if_neg (by simp [hstarts]), hstate]
    refine h.broadcast fun frame hframe queryNodeId hquery => ?_
    obtain ⟨-, primary, hprimary, hfr⟩ := hbroadcast frame hframe
    cases hfr.symm.trans hquery
    exact hprimary
  · rw [if_neg (by simp [hstarts]), htick]
    rcases c.view.settleCandidate_cases 1 now with ⟨-, -, hsettle⟩ | ⟨-, hsettle⟩ | hsettle
    all_goals rw [hsettle]
    · exact (h.rest fun hc => by cases hc).broadcast fun _ hframe => by cases hframe
    · exact h.vote (by simp [Campaigning, hstate])
    · exact (h.rest fun hc => by cases hc).broadcast fun _ hframe => by cases hframe
  · rw [if_neg (by simp [hstarts]), htick]
    exact h.vote (by simp [Campaigning, hstate])

/-- An answer that arrives. -/
theorem Fresh.deliver {flight : ElectionFlight} (hflight : flight ∈ c.inFlight)
    (hsender : flight.sender ≠ c.view.secondaryId) (now : ℕ) : Fresh { c with
      state := (c.view.handleElectionFrame c.state flight.sender flight.frame now).1 } := by
  obtain ⟨asked, hasked, hanswers⟩ := h.answers flight (h.inFlight hflight) hsender
  have hcurrent := h.current flight hflight
  have hsent := h.inFlight hflight
  obtain ⟨sender, frame, election⟩ := flight
  subst hcurrent
  cases frame with
  | timeoutQuery => exact h
  | timeoutResponse queryNodeId =>
    obtain rfl : asked = .timeoutQuery queryNodeId := by cases asked <;> simp_all [Answers]
    cases hstate : c.state with
    | suspecting since responses =>
      have hnow : c.Campaigning := by simp [Campaigning, hstate]
      have hprimary := h.about hnow _ hasked rfl queryNodeId rfl
      have hpeer := h.counted hnow _ hflight hsender
      refine
        { h with
          about := fun _ => h.about hnow
          counted := fun _ => h.counted hnow
          responses := fun since' responses' heq peer age hlookup => ?_
          confirms := fun round confirms started heq => by cases heq }
      cases heq
      by_cases heqPeer : peer = sender
      · rw [heqPeer, AList.lookup_insert] at hlookup
        cases hlookup
        rw [heqPeer]
        exact ⟨queryNodeId, hprimary, hpeer, rfl, hasked, hsent⟩
      · rw [AList.lookup_insert_ne heqPeer] at hlookup
        exact h.responses since responses hstate peer age hlookup
    | _ =>
      simp only [handleElectionFrame, recordTimeoutResponse]
      rw [← hstate]
      exact h
  | promotionVote => cases asked <;> cases hanswers
  | promotionConfirm newPrimaryId voteRound =>
    obtain rfl : asked = .promotionVote newPrimaryId voteRound := by
      cases asked <;> simp_all [Answers]
    simp only [handleElectionFrame, recordPromotionConfirm]
    split_ifs with htarget
    · exact h
    · rw [not_not] at htarget
      subst htarget
      cases hstate : c.state with
      | candidate round confirms started =>
        have hnow : c.Campaigning := by simp [Campaigning, hstate]
        dsimp only
        split_ifs with hround hquorum
        · exact h.rest fun hc => by cases hc
        · subst hround
          refine
            { h with
              about := fun _ => h.about hnow
              counted := fun _ => h.counted hnow
              responses := fun since responses heq => by cases heq
              confirms := fun round' confirms' started' heq peer hpeer hne => ?_ }
          cases heq
          rcases mem_insert.mp hpeer with rfl | hpeer
          · exact ⟨h.counted hnow _ hflight hsender, ⟨rfl, rfl⟩, hasked, hsent⟩
          · exact h.confirms round confirms started hstate peer hpeer hne
        · rw [← hstate]
          exact h
      | _ =>
        dsimp only
        rw [← hstate]
        exact h

/-- What one event preserves. -/
theorem Fresh.step (event : CampaignEvent) (hcalm : c.Calm event) : (c.step event).Fresh := by
  cases event with
  | tick => exact h.tick hcalm
  | observe view =>
    have hview : ∀ {peer asked reply}, c.Campaigning → c.FreshAnswer peer asked reply →
        (c.step (.observe view)).FreshAnswer peer asked reply :=
      fun hnow ⟨hpeer, hrest⟩ => ⟨(hcalm hnow).2 hpeer, hrest⟩
    exact
      { __ := h
        about := fun hnow flight hflight helection queryNodeId hquery =>
          (hcalm hnow).1.trans (h.about hnow flight hflight helection queryNodeId hquery)
        counted := fun hnow flight hflight hsender =>
          (hcalm hnow).2 (h.counted hnow flight hflight hsender)
        responses := fun since responses heq peer age hlookup => by
          have hnow : c.Campaigning := by simp [Campaigning, show c.state = _ from heq]
          obtain ⟨primary, hprimary, hanswer⟩ := h.responses since responses heq peer age hlookup
          exact ⟨primary, (hcalm hnow).1.trans hprimary, hview hnow hanswer⟩
        confirms := fun round confirms started heq peer hpeer hne =>
          hview (by simp [Campaigning, show c.state = _ from heq])
            (h.confirms round confirms started heq peer hpeer hne) }
  | primaryMessage now =>
    have hrest : Fresh { c with state := (c.view.recordPrimaryMessage c.state now).2 } := by
      refine h.rest ?_
      cases hstate : c.state <;> exact fun hc => by cases hc
    exact
      { hrest with
        responses := fun since responses heq => hrest.responses since responses heq
        confirms := fun round confirms started heq => hrest.confirms round confirms started heq }
  | primaryChanged => exact h.rest fun hc => by cases hc
  | peerVote =>
    simp only [Campaign.step, recordPromotionVote]
    split_ifs
    · exact h
    · exact h
    · exact h
    · exact h.rest fun hc => by cases hc
  | peerAnswers peer asked =>
    simp only [Campaign.step]
    split_ifs with hasked
    · obtain ⟨hflight, hself, hanswers, hne⟩ := hasked
      refine h.send (fun flight hnew => ?_) (fun flight hnew queryNodeId hquery => ?_)
        (fun flight hnew _ => ?_)
      all_goals
        obtain rfl := mem_singleton.mp hnew
      · exact h.current asked hflight
      · cases hframe : asked.frame <;> simp_all [Answers]
      · refine ⟨hcalm, asked.frame, ?_, hanswers⟩
        rw [← hself]
        exact h.inFlight hflight
    · exact h
  | deliver flight now =>
    simp only [Campaign.step]
    split_ifs with hdelivers
    · exact h.deliver hdelivers.1 hdelivers.2 now
    · exact h
  | expire =>
    exact
      { h with
        inFlight := (erase_subset _ _).trans h.inFlight
        current := fun other hother => h.current other (mem_of_mem_erase hother)
        counted := fun hnow other hother => h.counted hnow other (mem_of_mem_erase hother) }

end

/-- Every state of a calm run is fresh. -/
theorem fresh_of_reached (h : Reached Calm c) : c.Fresh := by
  refine h.invariant ?_ fun c event hfresh hcalm => hfresh.step event hcalm
  rintro _ ⟨view, rfl⟩
  exact fresh_start

/-- **The answers that are counted are fresh.** In every run in which nothing of an older election
is under way when an election starts, the view keeps the primary and the counted peers during an
election, and only counted peers answer: every response that may be counted as agreement is an
answer of a peer in the quorum's denominator to a query about the current primary that the node has
broadcast in its current election. So is every confirmation of a candidate, and every one that is
about to be counted, for a vote of the current election and round. -/
theorem answers_fresh (hreached : Reached Calm c) :
    (∀ since responses, c.state = .suspecting since responses →
      ∀ peer age, responses.lookup peer = some age → ∃ primary,
        c.view.currentPrimary = some primary ∧
        c.FreshAnswer peer (.timeoutQuery primary) (.timeoutResponse primary age)) ∧
    (∀ round confirms started, c.state = .candidate round confirms started →
      ∀ peer, peer ≠ c.view.secondaryId →
        (peer ∈ confirms ∨ ∃ flight ∈ c.inFlight, flight.sender = peer ∧
          flight.frame = .promotionConfirm c.view.secondaryId round) →
        c.FreshAnswer peer (.promotionVote c.view.secondaryId round)
          (.promotionConfirm c.view.secondaryId round)) := by
  have hfresh := fresh_of_reached hreached
  refine ⟨hfresh.responses, fun round confirms started hstate peer hne hpeer => ?_⟩
  rcases hpeer with hpeer | ⟨flight, hflight, rfl, hframe⟩
  · exact hfresh.confirms round confirms started hstate peer hpeer hne
  · have hnow : c.Campaigning := by simp [Campaigning, hstate]
    obtain ⟨asked, hasked, hanswers⟩ := hfresh.answers flight (hfresh.inFlight hflight) hne
    rw [hfresh.current flight hflight] at hasked
    have hvote : asked = .promotionVote c.view.secondaryId round := by
      cases asked <;> simp_all [Answers]
    subst hvote
    refine ⟨hfresh.counted hnow flight hflight hne, ⟨rfl, rfl⟩, hasked, ?_⟩
    rw [← hframe, ← hfresh.current flight hflight]
    exact hfresh.inFlight hflight

end Campaign

namespace Sample

open Campaign

/-- The events of a run. -/
def campaignAfter (events : List CampaignEvent) : Campaign :=
  events.foldl Campaign.step (.start (survivor "a" "p" ["b", "c"] ∅))

/-- The first election: the peers answer, and its frames stay under way when a frame of the
primary ends it. -/
def firstElection : List CampaignEvent :=
  [.tick 1000, .peerAnswers "b" ⟨"a", .timeoutQuery "p", 1⟩ (.timeoutResponse "p" none),
    .peerAnswers "c" ⟨"a", .timeoutQuery "p", 1⟩ (.timeoutResponse "p" none),
    .deliver ⟨"b", .timeoutResponse "p" none, 1⟩ 2000, .tick 6000,
    .peerAnswers "b" ⟨"a", .promotionVote "a" 1, 1⟩ (.promotionConfirm "a" 1)]

/-- A second election about another primary, without the peer that confirmed in the first one. -/
def secondElection : List CampaignEvent :=
  [.primaryMessage 7000, .observe (survivor "a" "q" ["c", "d"] ∅), .tick 20000,
    .deliver ⟨"c", .timeoutResponse "p" none, 1⟩ 21000, .tick 25000,
    .deliver ⟨"b", .promotionConfirm "a" 1, 1⟩ 26000]

/-- **A promotion on stale votes.** The node becomes the primary in its second election, and all
answers are to the first one, about another primary; the peer that confirms is not among those that
the quorum counts. -/
theorem promoted_on_stale_votes :
    (campaignAfter (firstElection ++ secondElection)).state = .promoted ∧
      (campaignAfter (firstElection ++ secondElection)).election = 2 ∧
      (∀ flight ∈ (campaignAfter (firstElection ++ secondElection)).sent,
        flight.sender ≠ "a" → flight.election = 1) ∧
      "b" ∉ (campaignAfter (firstElection ++ secondElection)).view.quorumPeers := by
  refine ⟨rfl, ?_⟩
  decide +kernel

/-- In the sample the first answer is fresh. -/
theorem firstElection_fresh : (campaignAfter firstElection).FreshAnswer "b" (.promotionVote "a" 1)
      (.promotionConfirm "a" 1) := by
  have hreached : Reached Calm (campaignAfter firstElection) :=
    RunsTo.foldl (.start ⟨_, rfl⟩) firstElection (by decide +kernel)
  refine (answers_fresh hreached).2 1 {"a"} 6000 rfl "b" (by decide +kernel) (Or.inr ?_)
  exact ⟨⟨"b", .promotionConfirm "a" 1, 1⟩, by decide +kernel, rfl, rfl⟩

end Sample

end DynRunner
