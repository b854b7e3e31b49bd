import DynRunner.ClusterState.Snapshot
import Mathlib.Data.List.Induction
import Mathlib.Order.Bounds.Defs

/-!
# The primary register

A node takes over a primary of a later epoch, or one with a lower id of its own epoch, from a
mutation as from a snapshot, and writes it into the role table as well. What it ends with depends
only on what it has heard. It is the lowest primary of the highest epoch, unless a snapshot that
names no primary carries a higher epoch: such a snapshot is passed over.
-/

namespace DynRunner

/-- What reaches the register: a mutation, or the registers of a snapshot. -/
inductive RegisterEvent
  | primaryChanged (new : String) (epoch : ℕ)
  | restore (snap : Control)

/-- The epoch that an event carries, and the primary that it names. -/
def RegisterEvent.offer : RegisterEvent → ℕ × Option String
  | .primaryChanged new epoch => (epoch, some new)
  | .restore snap => (snap.primaryEpoch, snap.currentPrimary)

/-- The registers of a node, with the primary of its role table. -/
structure PrimaryView where
  control : Control
  rolePrimary : Option String

namespace PrimaryView

/-- A fresh node. -/
def new : PrimaryView := ⟨.empty, none⟩

/-- What the register of a node holds. -/
def held (v : PrimaryView) : ℕ × Option String := (v.control.primaryEpoch, v.control.currentPrimary)

/-- The node takes over what an event names. -/
def adopts (v : PrimaryView) (offer : ℕ × Option String) : Bool :=
  primaryRegisterAdopt v.control.primaryEpoch v.control.currentPrimary offer.1
    (offer.2.getD "") && offer.2.isSome

/-- An offer is adopted if it names a primary, is not older, and wins a tie by its name. -/
theorem adopts_iff {v : PrimaryView} {offer : ℕ × Option String} : v.adopts offer = true ↔
    ∃ id, offer.2 = some id ∧ (v.held.1 < offer.1 ∨ v.held.1 = offer.1 ∧
      ∀ p, v.held.2 = some p → id < p) := by
  obtain ⟨epoch, named⟩ := offer
  cases named <;> cases hp : v.control.currentPrimary <;>
    simp only [adopts, primaryRegisterAdopt, held, hp] <;> grind

variable [DefaultHasher]

/-- One event: the `PrimaryChanged` arm of an apply, or the register part of a restore. -/
def step (v : PrimaryView) : RegisterEvent → PrimaryView
  | .primaryChanged new epoch =>
    let (control, outcome) := v.control.apply (.primaryChanged new epoch)
    ⟨control, if outcome = .applied then some new else v.rolePrimary⟩
  | .restore snap =>
    ⟨v.control.restore snap,
      if v.adopts (snap.primaryEpoch, snap.currentPrimary) then snap.currentPrimary
      else v.rolePrimary⟩

/-- An event is adopted as a whole, or not at all. -/
theorem step_eq (v : PrimaryView) (e : RegisterEvent) : ((v.step e).held, (v.step e).rolePrimary) =
      if v.adopts e.offer then (e.offer, e.offer.2) else (v.held, v.rolePrimary) := by
  cases e <;> simp only [adopts, step, held, RegisterEvent.offer, Control.apply,
    Control.restore] <;>
    grind

/-- The register has the best primary that was named, or none was, and the role table agrees. -/
structure Best (offers : List (ℕ × Option String)) (v : PrimaryView) : Prop where
  named : v.held = (0, none) ∨ v.held ∈ offers ∧ v.held.2 ≠ none
  best : ∀ epoch id, (epoch, some id) ∈ offers →
    epoch < v.held.1 ∨ epoch = v.held.1 ∧ ∃ p, v.held.2 = some p ∧ p ≤ id
  role : v.rolePrimary = v.held.2

/-- One event is taken over if it is better than what the node holds. -/
theorem Best.step {offers : List (ℕ × Option String)} {v : PrimaryView} (h : Best offers v)
    (e : RegisterEvent) : Best (offers ++ [e.offer]) (v.step e) := by
  obtain ⟨hnamed, hbest, hrole⟩ := h
  have hadopts := @adopts_iff v e.offer
  have hstep := step_eq v e
  split_ifs at hstep with hif
  -- Taken over, and passed over.
  all_goals
    obtain ⟨hheld, hrole'⟩ := Prod.mk.inj hstep
    refine ⟨?_, fun epoch id hmem => ?_, ?_⟩
    all_goals grind

/-- A run from a fresh node. -/
theorem best_foldl (events : List RegisterEvent) :
    Best (events.map RegisterEvent.offer) (events.foldl PrimaryView.step new) := by
  induction events using List.reverseRec with
  | nil => exact ⟨.inl rfl, nofun, rfl⟩
  | append_singleton events e ih =>
    rw [List.foldl_append, List.map_append]
    exact ih.step e

/-- **The primary register.** Whatever mutations and snapshots reach a node, in any order and any
number of times, it ends with the highest epoch among them, with the lowest primary named for that
epoch, and with this primary in its role table, exactly if no snapshot without a primary is ahead of
everything that names one. -/
theorem primary_register_converges_iff (events : List RegisterEvent) :
    let v := events.foldl PrimaryView.step new
    ((∀ e ∈ events, e.offer.1 ≤ v.control.primaryEpoch) ∧
      (v.control.primaryEpoch = 0 ∨ ∃ e ∈ events, e.offer.1 = v.control.primaryEpoch) ∧
      (∀ p, v.control.currentPrimary = some p ↔
        IsLeast { id | ∃ e ∈ events, e.offer = (v.control.primaryEpoch, some id) } p) ∧
      v.rolePrimary = v.control.currentPrimary) ↔
    ∀ e ∈ events, e.offer.2 = none →
      e.offer.1 = 0 ∨ ∃ e' ∈ events, e.offer.1 ≤ e'.offer.1 ∧ e'.offer.2 ≠ none := by
  intro v
  obtain ⟨hnamed, hbest, hrole⟩ : Best (events.map RegisterEvent.offer) v := best_foldl events
  have hheld : v.held = (v.control.primaryEpoch, v.control.currentPrimary) := rfl
  simp only [List.mem_map, hheld] at hnamed hbest hrole
  clear_value v
  have hahead : ∀ e ∈ events, e.offer.2 ≠ none → e.offer.1 ≤ v.control.primaryEpoch := by
    intro e he hsome
    obtain ⟨id, hid⟩ := Option.ne_none_iff_exists'.mp hsome
    rcases hbest _ _ ⟨e, he, Prod.ext rfl hid⟩ with hlt | ⟨heq, -⟩
    · exact hlt.le
    · exact heq.le
  have hlowest : ∀ e ∈ events, ∀ id, e.offer = (v.control.primaryEpoch, some id) →
      ∃ p, v.control.currentPrimary = some p ∧ p ≤ id := fun e he id hoffer =>
    ((hbest _ _ ⟨e, he, hoffer⟩).resolve_left (lt_irrefl _)).2
  constructor
  · rintro ⟨hle, -⟩ e he -
    have := hle e he
    grind
  · intro hnone
    refine ⟨fun e he => ?_, by grind, fun p => ⟨fun hp => ⟨by grind, ?_⟩, ?_⟩, hrole⟩
    · by_cases hoffer : e.offer.2 = none
      · rcases hnone e he hoffer with hzero | ⟨e', he', hle, hsome⟩
        · omega
        · exact hle.trans (hahead e' he' hsome)
      · exact hahead e he hoffer
    · rintro id ⟨e, he, hoffer⟩
      obtain ⟨q, hq, hle⟩ := hlowest e he id hoffer
      grind
    · rintro ⟨⟨e, he, hoffer⟩, hleast⟩
      obtain ⟨q, hq, hle⟩ := hlowest e he p hoffer
      have := @hleast q
      grind

end PrimaryView

namespace Sample

open PrimaryView

/-- A snapshot of epoch two that names no primary leaves the node in epoch one. -/
theorem epoch_without_primary_ignored :
    ([.primaryChanged "a" 1, .restore { Control.empty with primaryEpoch := 2 }].foldl
      PrimaryView.step new).held = (1, some "a") := by
  rfl

end Sample

end DynRunner
