import DynRunner.Membership.Model

/-!
# The capability join

Merging two capability entries is associative and idempotent. It is commutative only for entries
that agree: two entries of one generation and one kind that carry the same version must carry the
same primary bit, since on a tie the bit of the entry that is already there stays. Replicas that
fold the same entries in different orders hold the same capabilities exactly for such entries.
-/

namespace DynRunner

namespace CapabilityEntry

/-- Two entries of one generation and kind with the same version have the same primary bit. -/
def Agrees : CapabilityEntry → CapabilityEntry → Prop
  | .advertised _ bit version memberGen, .advertised _ bit' version' memberGen' =>
    memberGen = memberGen' → version = version' → bit = bit'
  | .departed memberGen _ bit version, .departed memberGen' _ bit' version' =>
    memberGen = memberGen' → version = version' → bit = bit'
  | _, _ => True

/-- Advertisements may be folded in any grouping. -/
theorem foldAdvertisement_assoc (x y z : Bool × Bool × TaskVersion) :
    foldAdvertisement (foldAdvertisement x y) z = foldAdvertisement x (foldAdvertisement y z) := by
  refine Prod.ext (Bool.or_assoc _ _ _) (Prod.ext ?_ (max_assoc _ _ _))
  simp only [foldAdvertisement, max_lt_iff, lt_max_iff]
  grind

/-- The fold commutes exactly if a tie of the versions is one of the bits. -/
theorem foldAdvertisement_comm_iff {x y : Bool × Bool × TaskVersion} :
    foldAdvertisement x y = foldAdvertisement y x ↔ (x.2.2 = y.2.2 → x.2.1 = y.2.1) := by
  simp only [foldAdvertisement, Prod.mk.injEq, Bool.or_comm x.1, max_comm x.2.2, true_and, and_true]
  rcases lt_trichotomy x.2.2 y.2.2 with hlt | heq | hgt
  · simp [hlt, hlt.not_gt, hlt.ne]
  · simp [heq]
  · simp [hgt, hgt.not_gt, hgt.ne']

/-- Merging an entry with itself changes nothing. -/
theorem mergeCapability_self (a : CapabilityEntry) : a.mergeCapability a = a := by
  cases a <;> simp [mergeCapability, memberGen, advertisement, foldAdvertisement]

/-- Capabilities may be merged in any grouping. -/
theorem mergeCapability_assoc (a b c : CapabilityEntry) :
    (a.mergeCapability b).mergeCapability c = a.mergeCapability (b.mergeCapability c) := by
  have hfold := foldAdvertisement_assoc a.advertisement b.advertisement c.advertisement
  cases a <;> cases b <;> cases c <;> grind [mergeCapability, memberGen, advertisement]

/-- The order of a merge matters if the entries disagree. -/
theorem mergeCapability_comm_iff {a b : CapabilityEntry} :
    a.mergeCapability b = b.mergeCapability a ↔ a.Agrees b := by
  have hfold := @foldAdvertisement_comm_iff a.advertisement b.advertisement
  cases a <;> cases b <;> grind [mergeCapability, memberGen, advertisement, Agrees]

end CapabilityEntry

open CapabilityEntry

/-- The capabilities of a replica that merges entries one after the other. -/
def mergeAll (capabilities : HashMap String CapabilityEntry)
    (entries : List (String × CapabilityEntry)) : HashMap String CapabilityEntry :=
  entries.foldl (fun held e => (mergeIntoCapabilities held e.1 e.2).1) capabilities

/-- What becomes of the entry of a peer when an entry is merged. -/
def absorb (id : String) (held : Option CapabilityEntry) (e : String × CapabilityEntry) :
    Option CapabilityEntry :=
  if id = e.1 then some (held.elim e.2 (·.mergeCapability e.2)) else held

/-- An advertisement is absorbed by its own entry. -/
theorem lookup_mergeIntoCapabilities (held : HashMap String CapabilityEntry) (id : String)
    (e : String × CapabilityEntry) :
    (mergeIntoCapabilities held e.1 e.2).1.lookup id = absorb id (held.lookup id) e := by
  unfold mergeIntoCapabilities absorb
  by_cases hid : id = e.1
  · cases hmine : held.lookup e.1 <;> grind [AList.lookup_insert]
  · cases held.lookup e.1 <;> grind [AList.lookup_insert_ne]

/-- Several advertisements are absorbed one after the other. -/
theorem lookup_mergeAll (id : String) (entries : List (String × CapabilityEntry))
    (held : HashMap String CapabilityEntry) :
    (mergeAll held entries).lookup id = entries.foldl (absorb id) (held.lookup id) := by
  induction entries generalizing held with
  | nil => rfl
  | cons e entries ih => exact (ih _).trans (by rw [lookup_mergeIntoCapabilities]; rfl)

/-- Two entries that agree are absorbed in either order. -/
theorem absorb_right_comm {id : String} {e e' : String × CapabilityEntry}
    (hagree : e.1 = e'.1 → e.2.Agrees e'.2) (held : Option CapabilityEntry) :
    absorb id (absorb id held e) e' = absorb id (absorb id held e') e := by
  unfold absorb
  split_ifs with hid' hid
  · have hcomm := mergeCapability_comm_iff.mpr (hagree (hid.symm.trans hid'))
    cases held with
    | none => exact congrArg some hcomm
    | some mine =>
      change some ((mine.mergeCapability e.2).mergeCapability e'.2) =
        some ((mine.mergeCapability e'.2).mergeCapability e.2)
      rw [mergeCapability_assoc, hcomm, mergeCapability_assoc]
  all_goals rfl

/-- **The capability join.** Merging is associative and idempotent. Among any entries it is
commutative, and replicas that merge them in different orders hold the same capabilities, exactly
if the entries of every peer agree. -/
theorem capability_join_iff (heard : Set (String × CapabilityEntry)) : (∀ a b c : CapabilityEntry,
      (a.mergeCapability b).mergeCapability c = a.mergeCapability (b.mergeCapability c) ∧
        a.mergeCapability a = a) ∧
    (((∀ e ∈ heard, ∀ e' ∈ heard, e.1 = e'.1 →
        e.2.mergeCapability e'.2 = e'.2.mergeCapability e.2) ∧
      ∀ capabilities entries entries', entries.Perm entries' → (∀ e ∈ entries, e ∈ heard) →
        ∀ id, (mergeAll capabilities entries).lookup id =
          (mergeAll capabilities entries').lookup id) ↔
      ∀ e ∈ heard, ∀ e' ∈ heard, e.1 = e'.1 → e.2.Agrees e'.2) := by
  refine ⟨fun a b c => ⟨mergeCapability_assoc a b c, mergeCapability_self a⟩, ?_, ?_⟩
  · rintro ⟨hcomm, -⟩ e he e' he' hid
    exact mergeCapability_comm_iff.mp (hcomm e he e' he' hid)
  · intro hagree
    refine ⟨fun e he e' he' hid => mergeCapability_comm_iff.mpr (hagree e he e' he' hid), ?_⟩
    intro capabilities entries entries' hperm hheard id
    rw [lookup_mergeAll, lookup_mergeAll]
    exact hperm.foldl_eq' (fun e he e' he' held =>
      absorb_right_comm (hagree e (hheard e he) e' (hheard e' he')) held) _

namespace Sample

/-- Two advertisements of a peer with one version, as a responder and the primary both stamp the
first one they hear of: the one that is merged first decides. -/
theorem tied_advertisements_stay_apart :
    mergeCapability (.advertised false true ⟨1, 1⟩ 0) (.advertised false false ⟨1, 1⟩ 0) ≠
        mergeCapability (.advertised false false ⟨1, 1⟩ 0) (.advertised false true ⟨1, 1⟩ 0) ∧
      (mergeAll ∅ [("p", .advertised false true ⟨1, 1⟩ 0),
          ("p", .advertised false false ⟨1, 1⟩ 0)]).lookup "p" ≠
        (mergeAll ∅ [("p", .advertised false false ⟨1, 1⟩ 0),
          ("p", .advertised false true ⟨1, 1⟩ 0)]).lookup "p" := by
  decide

end Sample

end DynRunner
