import DynRunner.Election.Freshness

/-!
# The votes of one secondary

A secondary confirms a candidate that is the smallest live id it knows. It writes down the round and
the candidate, but it does not read them before it confirms the next one. What keeps it from
confirming two candidates of one round is its view alone: a candidate that it has confirmed must
still be the smallest live id when another vote of that round arrives.
-/

namespace DynRunner

open ElectionView

/-- The candidate and the round that a node confirms at an event. What is delivered to it otherwise
are answers to its own broadcasts. -/
def Campaign.confirms (c : Campaign) : CampaignEvent → Option (String × ℕ)
  | .peerVote candidate round now =>
    match (c.view.recordPromotionVote c.state candidate round now).2 with
    | some (.promotionConfirm newPrimaryId voteRound) => some (newPrimaryId, voteRound)
    | _ => none
  | _ => none

/-- A node, and what it has confirmed since it last adopted a primary. -/
structure Voter where
  campaign : Campaign
  confirmed : List (String × ℕ)

namespace Voter

/-- What happens at an event. A node that adopts a primary starts afresh. -/
def step (x : Voter) (event : CampaignEvent) : Voter where
  campaign := x.campaign.step event
  confirmed := match event with
    | .primaryMessage _ | .primaryChanged => []
    | _ => (x.campaign.confirms event).toList ++ x.confirmed

/-- A vote for the smallest live id, in a round in which the node has confirmed a candidate, is for
that candidate. Other votes are refused. -/
def Steady (x : Voter) : CampaignEvent → Prop
  | .peerVote candidate round _ =>
      x.campaign.view.lowestWith x.campaign.view.livePeerIds = candidate →
        ∀ vote ∈ x.confirmed, vote.2 = round → candidate = vote.1
  | _ => True

instance (x : Voter) (event : CampaignEvent) : Decidable (x.Steady event) := by
  unfold Steady
  split <;> infer_instance

/-- The states of the runs whose events all meet a condition. -/
def Reached (allowed : Voter → CampaignEvent → Prop) : Voter → Prop :=
  RunsTo step (fun x => ∃ view, x = ⟨.start view, []⟩) allowed

/-- No two candidates are confirmed in one round. -/
def OneVote (x : Voter) : Prop :=
  x.confirmed.Pairwise fun vote vote' => vote.2 = vote'.2 → vote.1 = vote'.1

variable {x : Voter} {event : CampaignEvent}

/-- A new vote agrees with the votes of its round, as both are for the smallest live id. -/
theorem confirms_agree (hsteady : x.Steady event) {new : String × ℕ}
    (hnew : x.campaign.confirms event = some new) :
    ∀ vote ∈ x.confirmed, new.2 = vote.2 → new.1 = vote.1 := by
  intro vote hvote hround
  cases event with
  | peerVote candidate round now =>
    simp only [Campaign.confirms, recordPromotionVote] at hnew
    split_ifs at hnew with hsilent hroute hlowest
    cases hnew
    exact hsteady (not_not.mp hlowest) vote hvote hround.symm
  | _ => cases hnew

/-- What one event preserves. -/
theorem OneVote.step (h : x.OneVote) (hsteady : x.Steady event) : (x.step event).OneVote := by
  have hgrown : OneVote ⟨x.campaign, (x.campaign.confirms event).toList ++ x.confirmed⟩ := by
    cases hnew : x.campaign.confirms event with
    | none => exact h
    | some new => exact List.pairwise_cons.mpr ⟨confirms_agree hsteady hnew, h⟩
  cases event with
  | primaryMessage => exact List.Pairwise.nil
  | primaryChanged => exact List.Pairwise.nil
  | _ => exact hgrown

end Voter

namespace Sample

end Sample

end DynRunner
