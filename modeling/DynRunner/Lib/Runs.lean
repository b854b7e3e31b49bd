import Mathlib.Data.List.Basic

/-!
# Runs under a condition

A system is a step function on states and events. A run starts in a given state and takes events
that all meet a condition on the state before them. What holds at the start and is kept by every
event that meets the condition holds in every state of a run. The runs over a given list of events
are the ones whose condition can be checked along the list.
-/

namespace DynRunner

section Runs

variable {S E : Type*}

/-- The states of the runs from a set of states whose events all meet a condition. -/
inductive RunsTo (step : S → E → S) (start : S → Prop) (allowed : S → E → Prop) : S → Prop
  | start {s : S} (hstart : start s) : RunsTo step start allowed s
  | step {s : S} (event : E) (hreached : RunsTo step start allowed s) (hallowed : allowed s event) :
      RunsTo step start allowed (step s event)

variable {step : S → E → S} {start : S → Prop} {allowed : S → E → Prop}

/-- An invariant holds in every state of a run. -/
theorem RunsTo.invariant {s : S} (h : RunsTo step start allowed s) {P : S → Prop}
    (hstart : ∀ s, start s → P s) (hstep : ∀ s event, P s → allowed s event → P (step s event)) :
    P s := by
  induction h with
  | start hs => exact hstart _ hs
  | step event _ hallowed ih => exact hstep _ event ih hallowed

/-- Every event of a list meets the condition when its turn comes. -/
def AllAllowed (step : S → E → S) (allowed : S → E → Prop) : S → List E → Prop
  | _, [] => True
  | s, event :: events => allowed s event ∧ AllAllowed step allowed (step s event) events

instance AllAllowed.decidable [∀ s event, Decidable (allowed s event)] :
    ∀ (s : S) (events : List E), Decidable (AllAllowed step allowed s events)
  | _, [] => isTrue trivial
  | s, event :: events =>
    have := AllAllowed.decidable (step s event) events
    inferInstanceAs (Decidable (allowed s event ∧ AllAllowed step allowed (step s event) events))

/-- A list of events whose conditions are met is a run. -/
theorem RunsTo.foldl {s : S} (h : RunsTo step start allowed s) (events : List E)
    (hall : AllAllowed step allowed s events) :
    RunsTo step start allowed (events.foldl step s) := by
  induction events generalizing s with
  | nil => exact h
  | cons event events ih => exact ih (h.step event hall.1) hall.2

/-- What relates the states before and after every step of a fold relates its ends. -/
theorem foldl_related {B : Type*} {R : S → S → Prop} (hrefl : ∀ s, R s s)
    (htrans : ∀ {s t u}, R s t → R t u → R s u) (proj : B → S) {f : B → E → B}
    (hf : ∀ b e, R (proj b) (proj (f b e))) (l : List E) (b : B) :
    R (proj b) (proj (l.foldl f b)) := by
  induction l generalizing b with
  | nil => exact hrefl _
  | cons e l ih => exact htrans (hf b e) (ih (f b e))

end Runs

end DynRunner
