import Mathlib.Order.MinMax
import Mathlib.Order.WithBot
import Mathlib.Data.Set.Basic

/-!
# Resumable transfers

A sender ships a set of keys in increasing order, cut into chunks. A chunk carries some keys
and a cursor, the point up to which the sender has got with it. The receiver remembers the
greatest cursor it has seen, so that after an interruption it can ask for what lies beyond.

`Transfer.Sound` says when this leaves no gap: whatever was promised up to a cursor has arrived
together with that cursor. The rules below keep it. They tell which interruptions are harmless:
the chunk that is lost carries nothing, or nothing follows it and the sender has given up.
-/

namespace DynRunner

/-- A chunk on its way. A closing chunk names the keys that are complete with it. -/
structure Chunk (K : Type*) where
  carried : Set K
  cursor : WithBot K
  closes : Option (Set K)

/-- A transfer: what was promised, what has arrived, what is under way, and what the sender
has still to send, if it holds the transfer. -/
structure Transfer (K : Type*) where
  /-- What the transfer must bring. -/
  promised : Set K
  /-- What has arrived. -/
  received : Set K
  /-- How far the receiver has come. -/
  cursor : WithBot K
  /-- The chunks that may still arrive. -/
  flight : List (Chunk K)
  /-- What the sender has still to send. -/
  remaining : Option (Set K)

namespace Chunk

variable {K : Type*}

/-- The keys carried by a list of chunks. -/
def carriedBy (l : List (Chunk K)) : Set K := {k | ∃ c ∈ l, k ∈ c.carried}

variable {l l' : List (Chunk K)}

/-- Two lists of chunks carry what each of them carries. -/
theorem carriedBy_append : carriedBy (l ++ l') = carriedBy l ∪ carriedBy l' := by
  ext k
  simp only [carriedBy, List.mem_append, Set.mem_union, Set.mem_ofPred_eq, or_and_right, exists_or]

@[simp] theorem carriedBy_nil : carriedBy ([] : List (Chunk K)) = ∅ := by
  ext k
  simp [carriedBy]

/-- One more chunk carries what it has. -/
theorem carriedBy_cons {c : Chunk K} : carriedBy (c :: l) = c.carried ∪ carriedBy l := by
  ext k
  simp [carriedBy]

variable [LinearOrder K]

/-- A chunk comes in time: with it, everything promised up to its cursor has been seen, and
everything it closes. -/
structure Timely (promised seen : Set K) (c : Chunk K) : Prop where
  upTo : ∀ k ∈ promised, (k : WithBot K) ≤ c.cursor → k ∈ seen ∪ c.carried
  closed : ∀ S, c.closes = some S → S ⊆ seen ∪ c.carried

/-- Chunks that arrive one after the other all come in time. -/
def Arrives (promised : Set K) : Set K → List (Chunk K) → Prop
  | _, [] => True
  | seen, c :: rest => c.Timely promised seen ∧ Arrives promised (seen ∪ c.carried) rest

/-- Two lists of chunks arrive one after the other. -/
theorem arrives_append {promised seen : Set K} : Arrives promised seen (l ++ l') ↔
      Arrives promised seen l ∧ Arrives promised (seen ∪ carriedBy l) l' := by
  induction l generalizing seen with
  | nil => simp [Arrives]
  | cons c l ih =>
    rw [List.cons_append, Arrives, Arrives, ih, carriedBy_cons, Set.union_assoc, and_assoc]

end Chunk

namespace Transfer

variable {K : Type*} [LinearOrder K] {t : Transfer K}

open Chunk

/-- No gap is left behind a cursor. -/
structure Sound (t : Transfer K) : Prop where
  behind : ∀ k ∈ t.promised, (k : WithBot K) ≤ t.cursor → k ∈ t.received
  arrives : Arrives t.promised t.received t.flight
  covered : ∀ R, t.remaining = some R → t.promised ⊆ t.received ∪ carriedBy t.flight ∪ R

/-- A transfer of nothing. -/
theorem sound_of_idle (hpromised : t.promised = ∅) (hflight : t.flight = []) : t.Sound where
  behind := fun k hk => by rw [hpromised] at hk; exact hk.elim
  arrives := by rw [hflight]; trivial
  covered := fun R _ k hk => by rw [hpromised] at hk; exact hk.elim

variable {R R' : Set K} {c : Chunk K} {l : List (Chunk K)} (ht : t.Sound) {l' rest : List (Chunk K)}
include ht

/-- The sender sends everything up to a cursor and keeps the rest. It closes only what leaves
nothing behind. -/
theorem Sound.send (hR : t.remaining = some R)
    (hbelow : ∀ k ∈ R, (k : WithBot K) ≤ c.cursor → k ∈ c.carried) (hsplit : R ⊆ c.carried ∪ R')
    (hclose : ∀ S, c.closes = some S → S ⊆ t.promised ∧ R ⊆ c.carried) :
    Sound { t with flight := t.flight ++ [c], remaining := some R' } := by
  have hcovered := ht.covered R hR
  have htimely : c.Timely t.promised (t.received ∪ carriedBy t.flight) := by
    refine ⟨fun k hk hle => ?_, fun S hS k hk => ?_⟩
    · rcases hcovered hk with hseen | hrest
      · exact .inl hseen
      · exact .inr (hbelow k hrest hle)
    · obtain ⟨hpromised, hlast⟩ := hclose S hS
      rcases hcovered (hpromised hk) with hseen | hrest
      · exact .inl hseen
      · exact .inr (hlast hrest)
  refine ⟨ht.behind, arrives_append.mpr ⟨ht.arrives, htimely, trivial⟩, ?_⟩
  rintro _ ⟨⟩ k hk
  rw [carriedBy_append, carriedBy_cons, carriedBy_nil, Set.union_empty]
  rcases hcovered hk with (hreceived | hflight) | hrest
  · exact .inl (.inl hreceived)
  · exact .inl (.inr (.inl hflight))
  · rcases hsplit hrest with hcarried | hlater
    · exact .inl (.inr (.inr hcarried))
    · exact .inr hlater

/-- **The next chunk arrives**, and with it everything it closes. -/
theorem Sound.deliver (hflight : t.flight = c :: rest) :
    Sound { t with
      received := t.received ∪ c.carried, cursor := max t.cursor c.cursor, flight := rest } ∧
      ∀ S, c.closes = some S → S ⊆ t.received ∪ c.carried := by
  have harrives := ht.arrives
  rw [hflight] at harrives
  obtain ⟨htimely, hrest⟩ := harrives
  refine ⟨⟨fun k hk hle => ?_, hrest, fun R hR => ?_⟩, htimely.closed⟩
  · rcases le_max_iff.mp hle with hold | hnew
    · exact .inl (ht.behind k hk hold)
    · exact htimely.upTo k hk hnew
  · have hcovered := ht.covered R hR
    rwa [hflight, carriedBy_cons, ← Set.union_assoc] at hcovered

/-- The sender skips keys that the receiver has seen a cursor beyond. -/
theorem Sound.skip (hR : t.remaining = some R)
    (hskip : ∀ k ∈ R, k ∈ R' ∨ (k : WithBot K) ≤ t.cursor) :
    Sound { t with remaining := some R' } := by
  refine ⟨ht.behind, ht.arrives, ?_⟩
  rintro _ ⟨⟩ k hk
  rcases ht.covered R hR hk with hseen | hrest
  · exact .inl hseen
  · rcases hskip k hrest with hlater | hle
    · exact .inr hlater
    · exact .inl (.inl (ht.behind k hk hle))

/-- The sender gives up. -/
theorem Sound.abandon : Sound { t with remaining := none } :=
  ⟨ht.behind, ht.arrives, fun _ h => by cases h⟩

/-- The last chunk of a transfer that was given up is lost. -/
theorem Sound.loseLast (hgone : t.remaining = none)
    (hflight : t.flight = l ++ [c]) : Sound { t with flight := l } := by
  have harrives := ht.arrives
  rw [hflight, arrives_append] at harrives
  refine ⟨ht.behind, harrives.1, fun R hR => ?_⟩
  rw [hgone] at hR
  cases hR

/-- A chunk without keys is lost. -/
theorem Sound.loseBare
    (hflight : t.flight = l ++ c :: l') (hbare : c.carried = ∅) :
    Sound { t with flight := l ++ l' } := by
  have harrives := ht.arrives
  rw [hflight, arrives_append] at harrives
  obtain ⟨hl, _, hl'⟩ := harrives
  rw [hbare, Set.union_empty] at hl'
  refine ⟨ht.behind, arrives_append.mpr ⟨hl, hl'⟩, fun R hR => ?_⟩
  have hcovered := ht.covered R hR
  rwa [hflight, carriedBy_append, carriedBy_cons, hbare, Set.empty_union, ← carriedBy_append]
    at hcovered

/-- With nothing under way the transfer is taken up again behind the cursor, possibly for fewer
of the old keys and for some new ones. -/
theorem Sound.reopen (hflight : t.flight = []) {P N : Set K}
    (hP : ∀ k ∈ P, k ∈ N ∨ k ∈ t.promised ∧ (k : WithBot K) ≤ t.cursor)
    (hN : ∀ k ∈ N, t.cursor < (k : WithBot K)) :
    Sound { t with promised := P, remaining := some N } := by
  refine ⟨fun k hk hle => ?_, ?_, ?_⟩
  · rcases hP k hk with hnew | ⟨hold, _⟩
    · exact absurd hle (not_le.mpr (hN k hnew))
    · exact ht.behind k hold hle
  · rw [hflight]
    trivial
  · rintro _ ⟨⟩ k hk
    rcases hP k hk with hnew | ⟨hold, hle⟩
    · exact .inr hnew
    · exact .inl (.inl (ht.behind k hold hle))

end Transfer

end DynRunner
