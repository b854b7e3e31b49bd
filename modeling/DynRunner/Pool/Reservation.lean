import DynRunner.Pool.ConsistentRuns
import Mathlib.Data.Int.CardIntervalMod

/-!
# The share of a member that is gone

The tasks that are reserved for a member and still queued go round the members that are left, so
no two of them are given numbers of tasks that differ by more than one.
-/

namespace DynRunner

open HashMap List

namespace PendingPool

variable {I : Type} {pool : PendingPool I} {member : String} {fallbacks : List String}

/-- The identities of the queued tasks that are reserved for a member, in queue order. -/
def share (pool : PendingPool I) (member : String) : List TaskIdentity :=
  (pool.queued.map TaskInfo.identity).filter fun key =>
    pool.reservation.holder.lookup key = some member

/-- How many tasks of the share are reserved for another member once the share is divided. -/
def allotted (pool : PendingPool I) (member : String) (fallbacks : List String) (pick : String) :
    ℕ :=
  (pool.share member).countP fun key =>
    (pool.redistributeMember member fallbacks).reservation.holder.lookup key = some pick

section

variable (hactive : pool.reservation.active = true) (hmember : member ∉ fallbacks)
include hactive hmember

/-- A task of the share goes to the member at its position. No other reservation changes but
those for tasks that are not queued any more. -/
theorem lookup_redistributeMember (key : TaskIdentity) :
    let after := (pool.redistributeMember member fallbacks).reservation.holder.lookup key
    (key ∉ pool.share member ∧ after = (pool.reservation.holder.lookup key).filter (· ≠ member)) ∨
      ∃ i, (pool.share member)[i]? = some key ∧ after = fallbacks[i % fallbacks.length]? := by
  obtain ⟨moved, hmoved, hretain⟩ : ∃ moved : HashMap TaskIdentity String,
      (key ∉ pool.share member ∧ moved.lookup key = pool.reservation.holder.lookup key ∨
        ∃ i, (pool.share member)[i]? = some key ∧
          moved.lookup key = fallbacks[(0 + i) % fallbacks.length]?) ∧
      (pool.redistributeMember member fallbacks).reservation.holder =
        moved.retain fun key h => h ≠ member || key ∈ pool.queued.map TaskInfo.identity := by
    refine ⟨_, ?_, by rw [redistributeMember, if_pos hactive]⟩
    refine lookup_foldl_zipIdx (fun i => fallbacks[i % fallbacks.length]?) ?_ _ 0 _ key
    intro m key i other
    dsimp only
    cases fallbacks[i % fallbacks.length]? with
    | none => exact lookup_erase_eq
    | some => exact lookup_insert_eq
  rw [hretain, lookup_retain]
  rcases hmoved with ⟨hkey, hlookup⟩ | ⟨i, hi, hlookup⟩
  · refine .inl ⟨hkey, ?_⟩
    rw [hlookup]
    cases hholder : pool.reservation.holder.lookup key with
    | none => rfl
    | some h =>
      by_cases hh : h = member
      · have hqueued : key ∉ pool.queued.map TaskInfo.identity := fun hmem =>
          hkey (mem_filter.mpr ⟨hmem, by simp [hholder, hh]⟩)
        simp [hh, hqueued, Option.filter]
      · simp [hh, Option.filter]
  · refine .inr ⟨i, hi, ?_⟩
    rw [hlookup, Nat.zero_add]
    cases hpick : fallbacks[i % fallbacks.length]? with
    | none => rfl
    | some pick =>
      have hne : pick ≠ member := fun h => hmember (h ▸ mem_of_getElem? hpick)
      simp [hne, Option.filter]

/-- Every fallback gets its share. -/
theorem allotted_eq (hfallbacks : fallbacks.Nodup)
    (hqueued : (pool.queued.map TaskInfo.identity).Nodup) {j : ℕ} {pick : String}
    (hpick : fallbacks[j]? = some pick) : pool.allotted member fallbacks pick =
      (pool.share member).length / fallbacks.length +
        if j < (pool.share member).length % fallbacks.length then 1 else 0 := by
  obtain ⟨hj, -⟩ := List.getElem?_eq_some_iff.mp hpick
  have hposition : ∀ e ∈ (pool.share member).zipIdx,
      ((pool.redistributeMember member fallbacks).reservation.holder.lookup e.1 = some pick ↔
        e.2 ≡ j [MOD fallbacks.length]) := by
    rintro ⟨key, i⟩ he
    have hi := mem_zipIdx_iff_getElem?.mp he
    rcases lookup_redistributeMember hactive hmember key with ⟨hkey, -⟩ | ⟨i', hi', hlookup⟩
    · exact absurd (mem_of_getElem? hi) hkey
    · obtain rfl : i = i' :=
        (getElem?_inj (List.getElem?_eq_some_iff.mp hi).1 (hqueued.filter _)).mp (hi.trans hi'.symm)
      rw [hlookup, Nat.ModEq, Nat.mod_eq_of_lt hj, ← hpick]
      exact getElem?_inj (Nat.mod_lt _ (by omega)) hfallbacks
  calc pool.allotted member fallbacks pick
      = (pool.share member).zipIdx.countP fun e => e.2 ≡ j [MOD fallbacks.length] := by
        rw [allotted]
        conv_lhs => rw [← zipIdx_map_fst 0 (pool.share member), countP_map]
        exact countP_congr fun e he => by simpa using hposition e he
    _ = (pool.share member).length.count (· ≡ j [MOD fallbacks.length]) := by
        rw [Nat.count, range_eq_range', ← zipIdx_map_snd 0 (pool.share member), countP_map]
        rfl
    _ = _ := by rw [Nat.count_modEq_card _ (by omega), Nat.mod_eq_of_lt hj]

end

/-- **The share of a member that is gone.** Nothing stays reserved for it; its queued tasks are
reserved for the members that are left, if there are any, in numbers that differ by at most one if
no member is listed twice and no two queued tasks have one identity; nothing else changes, and the
window is open as long as something is reserved. -/
theorem redistributeMember_spec (pool : PendingPool I) (hactive : pool.reservation.active = true)
    (member : String) (fallbacks : List String) (hmember : member ∉ fallbacks) :
    let after := (pool.redistributeMember member fallbacks).reservation
    (∀ key, after.holder.lookup key ≠ some member) ∧
    (∀ key ∈ pool.share member, (fallbacks = [] ∧ after.holder.lookup key = none) ∨
      ∃ pick ∈ fallbacks, after.holder.lookup key = some pick) ∧
    (fallbacks.Nodup → (pool.queued.map TaskInfo.identity).Nodup → ∀ a ∈ fallbacks, ∀ b ∈ fallbacks,
      pool.allotted member fallbacks a ≤ pool.allotted member fallbacks b + 1) ∧
    (∀ key, pool.reservation.holder.lookup key ≠ some member →
      after.holder.lookup key = pool.reservation.holder.lookup key) ∧
    (after.active = true ↔ ∃ key h, after.holder.lookup key = some h) := by
  intro after
  have hcases := lookup_redistributeMember hactive hmember
  refine ⟨fun key => ?_, fun key hkey => ?_, fun hfallbacks hqueued a ha b hb => ?_,
    fun key hne => ?_, ?_⟩
  · rcases hcases key with ⟨-, hlookup⟩ | ⟨i, -, hlookup⟩ <;> rw [hlookup]
    · simp
    · exact fun h => hmember (mem_of_getElem? h)
  · rcases hcases key with ⟨hnot, -⟩ | ⟨i, -, hlookup⟩
    · exact absurd hkey hnot
    · rw [hlookup]
      cases hpick : fallbacks[i % fallbacks.length]? with
      | none =>
        refine .inl ⟨?_, rfl⟩
        by_contra hne
        have := Nat.mod_lt i (length_pos_iff.mpr hne)
        have := getElem?_eq_none_iff.mp hpick
        omega
      | some pick => exact .inr ⟨pick, mem_of_getElem? hpick, rfl⟩
  · obtain ⟨i, hi⟩ := mem_iff_getElem?.mp ha
    obtain ⟨j, hj⟩ := mem_iff_getElem?.mp hb
    rw [allotted_eq hactive hmember hfallbacks hqueued hi,
      allotted_eq hactive hmember hfallbacks hqueued hj]
    split <;> omega
  · rcases hcases key with ⟨-, hlookup⟩ | ⟨i, hi, -⟩
    · rw [hlookup]
      cases hholder : pool.reservation.holder.lookup key <;> simp_all
    · exact absurd (of_decide_eq_true (mem_filter.mp (mem_of_getElem? hi)).2) hne
  · have hopen : after.active = !after.holder.entries.isEmpty := by
      simp only [after, redistributeMember, if_pos hactive]
    rw [hopen]
    constructor
    · intro h
      cases hentries : after.holder.entries with
      | nil => simp [hentries] at h
      | cons e => exact ⟨e.1, e.2, AList.mem_lookup_iff.mpr (hentries ▸ mem_cons_self)⟩
    · rintro ⟨key, h, hlookup⟩
      simp [ne_nil_of_mem (AList.mem_lookup_iff.mp hlookup)]

end PendingPool

namespace Sample

open PendingPool

/-- Two tasks are reserved for `"m"`. -/
def twoReserved : PendingPool String :=
  ran [.extend [task "a" [], task "b" []],
    .openReservation [((task "a" []).identity, "m"), ((task "b" []).identity, "m")]]

/-- Two members get one task each. -/
theorem share_of_two_divided : twoReserved.reservation.active = true ∧
    twoReserved.allotted "m" ["x", "y"] "x" ≤ twoReserved.allotted "m" ["x", "y"] "y" + 1 := by
  have hactive : twoReserved.reservation.active = true := by decide +kernel
  have hqueued : (twoReserved.queued.map TaskInfo.identity).Nodup := by decide +kernel
  have hspec := redistributeMember_spec twoReserved hactive "m" ["x", "y"] (by decide)
  exact ⟨hactive, hspec.2.2.1 (by decide) hqueued "x" (by decide) "y" (by decide)⟩

/-- Each of two tasks is queued twice, and both are reserved for `"m"`. -/
def repeatedReserved : PendingPool String :=
  ran [.extend [task "a" [], task "b" []], .reinject (task "b" []), .requeue (task "a" []),
    .openReservation [((task "a" []).identity, "m"), ((task "b" []).identity, "m")]]

/-- A member that is listed twice gets both tasks. Where the tasks are queued twice, the member at
the second place gets all of them. -/
theorem listed_twice_gets_both : twoReserved.reservation.active = true ∧
    twoReserved.allotted "m" ["x", "x", "y"] "x" = 2 ∧
    twoReserved.allotted "m" ["x", "x", "y"] "y" = 0 ∧
    repeatedReserved.queued.map (·.taskId) = ["a", "a", "b", "b"] ∧
    repeatedReserved.allotted "m" ["x", "y"] "x" = 0 ∧
    repeatedReserved.allotted "m" ["x", "y"] "y" = 4 := by
  decide +kernel

end Sample

end DynRunner
