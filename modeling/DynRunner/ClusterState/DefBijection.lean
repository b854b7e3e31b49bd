import DynRunner.ClusterState.Intern
import DynRunner.Lib.Registry

/-!
# Definition ids and content hashes

A definition id belongs to one hash, and a slot holds the definition that was handed in for that
hash. Ids are minted locally, dictated by the wire or by a restored entry, and reserved by the
originator before their definition is placed. A reserved id has an empty slot, and placing a
definition looks at the slot only: a hash that is new to the store may be placed at an id that is
reserved for another one. The invariant holds along every run in which this does not happen, and
breaks at the first call where it does.
-/

namespace DynRunner

open TaskDefStore FrozenTaskDef ClusterState List

variable {I : Type}

/-- A definition without what the store fills in: its id and its edges. -/
def FrozenTaskDef.content (d : FrozenTaskDef I) : FrozenTaskDef I :=
  { d with defId := TaskDefId.unbound, taskDependsOn := [] }

namespace TaskDefStore

/-- The id a hash maps to. -/
def idOf (s : TaskDefStore I) (hash : TaskHash) : Option TaskDefId := s.hashToId.lookup hash

/-- The definitions handed in so far, each under its hash. -/
abbrev Submissions (I : Type) := List (TaskHash × FrozenTaskDef I)

/-- No id has two hashes, and every slot holds a definition handed in for the hash of its id. -/
structure Sound (submitted : Submissions I) (s : TaskDefStore I) : Prop where
  registry : Registry.Sound s.idOf s.nextId
  placed : ∀ id d, s.resolve id = some d → ∃ h, s.idOf h = some id ∧ (h, d.content) ∈ submitted

/-- The empty store is sound. -/
theorem sound_empty (submitted : Submissions I) : Sound submitted (empty : TaskDefStore I) where
  registry := ⟨fun _ _ _ h => (by cases h), fun _ _ h => by cases h⟩
  placed := fun _ _ h => by cases h

variable {submitted : Submissions I} {s t : TaskDefStore I} {id : TaskDefId} {h hash : TaskHash}
  {d : FrozenTaskDef I}

/-- More may be handed in. -/
theorem Sound.mono {submitted' : Submissions I}
    (hs : s.Sound submitted) (hsub : submitted ⊆ submitted') : s.Sound submitted' :=
  ⟨hs.registry, fun id d hd => (hs.placed id d hd).imp fun _ h => ⟨h.1, hsub h.2⟩⟩

/-- The slot of an unused id is empty. -/
theorem Sound.slot_free (hs : s.Sound submitted)
    (hfree : ∀ h, s.idOf h ≠ some id) : s.resolve id = none := by
  cases hd : s.resolve id with
  | none => rfl
  | some d =>
    obtain ⟨h, hid, _⟩ := hs.placed id d hd
    exact (hfree h hid).elim

/-! ## Filling a slot -/

variable {id' : TaskDefId} {frozen : FrozenTaskDef I}

@[simp] theorem resolve_putSlot :
    (s.putSlot id d).resolve id' = if id' = id then some d else s.resolve id' :=
  HashMap.lookup_insert_eq

/-- Filling the slot of a hash that has its id. -/
theorem Sound.putSlot (hs : s.Sound submitted) (hid : s.idOf h = some id)
    (hd : (h, d.content) ∈ submitted) : (s.putSlot id d).Sound submitted where
  registry := hs.registry.raise (le_max_left _ _)
  placed := by
    intro id' d' hd'
    rw [resolve_putSlot] at hd'
    split at hd'
    · rename_i hsame
      cases hd'
      exact ⟨h, hsame ▸ hid, hd⟩
    · exact hs.placed id' d' hd'

/-- Bind a hash to an id. -/
def bindHash (s : TaskDefStore I) (hash : TaskHash) (id : TaskDefId) : TaskDefStore I :=
  { s with hashToId := s.hashToId.insert hash id, nextId := max s.nextId (id + 1) }

/-- The ids after one more hash is bound. -/
theorem idOf_insert :
    (fun h => (s.hashToId.insert hash id).lookup h) = Function.update s.idOf hash (some id) := by
  funext h
  rw [HashMap.lookup_insert_eq, Function.update_apply]
  rfl

/-- Binding a new hash to a free id. -/
theorem Sound.bindHash (hs : s.Sound submitted)
    (hnew : s.idOf h = none) (hfree : ∀ h', s.idOf h' ≠ some id) :
    (s.bindHash h id).Sound submitted where
  registry := by
    change Registry.Sound (fun h' => (s.hashToId.insert h id).lookup h') _
    rw [idOf_insert]
    exact hs.registry.bind h hfree
  placed := by
    intro id' d hd
    obtain ⟨h', hid', hmem⟩ := hs.placed id' d hd
    refine ⟨h', ?_, hmem⟩
    change (s.hashToId.insert h id).lookup h' = some id'
    rw [HashMap.lookup_insert_eq, if_neg]
    · exact hid'
    · rintro rfl
      rw [hnew] at hid'
      cases hid'

/-- A change that touches neither the slots nor the ids. -/
theorem Sound.congr (hs : s.Sound submitted)
    (hdefs : t.defs = s.defs) (hids : t.hashToId = s.hashToId) (hnext : s.nextId ≤ t.nextId) :
    t.Sound submitted where
  registry := by
    have hidOf : t.idOf = s.idOf := by
      funext h
      rw [idOf, idOf, hids]
    rw [hidOf]
    exact hs.registry.raise hnext
  placed := by
    intro id d hd
    rw [resolve, hdefs] at hd
    obtain ⟨h, hid, hmem⟩ := hs.placed id d hd
    exact ⟨h, by rw [idOf, hids]; exact hid, hmem⟩

/-! ## The operations of the store -/

/-- An id that is reserved for another hash: the hash is new, and the slot is empty although the
id is taken. -/
def Steals (s : TaskDefStore I) (id : TaskDefId) (hash : TaskHash) : Prop :=
  s.idOf hash = none ∧ s.resolve id = none ∧ ∃ h, s.idOf h = some id

variable (hs : s.Sound submitted)
include hs

/-- An allocation keeps the store sound. -/
theorem Sound.allocForHash (hash : TaskHash) : (s.allocForHash hash).2.Sound submitted := by
  unfold TaskDefStore.allocForHash
  cases hid : s.hashToId.lookup hash with
  | some => exact hs
  | none =>
      exact (hs.bindHash hid hs.registry.next_free).congr rfl rfl (max_le (Nat.le_succ _) le_rfl)

/-- Placing a definition under a new hash, at an id that is free. -/
theorem Sound.place (hnew : s.idOf hash = none)
    (hfree : ∀ h, s.idOf h ≠ some id) (hd : (hash, d.content) ∈ submitted) :
    ((s.bindHash hash id).putSlot id d).Sound submitted :=
  (hs.bindHash hnew hfree).putSlot (AList.lookup_insert s.hashToId) hd

/-- Interning what was submitted keeps the store sound. -/
theorem Sound.internReportingPlacement (hd : (hash, d.content) ∈ submitted) :
    (s.internReportingPlacement hash d).2.Sound submitted := by
  unfold TaskDefStore.internReportingPlacement
  cases hid : s.hashToId.lookup hash with
  | some => exact hs
  | none =>
    refine (hs.place hid hs.registry.next_free hd).congr rfl rfl ?_
    change max (max s.nextId (s.nextId + 1)) (s.nextId + 1) ≤ max (s.nextId + 1) (s.nextId + 1)
    omega

omit hs in
/-- What placing at a wire id does: it is refused, finds the definition in its slot, fills the
slot of a reserved id, or takes the id for a new hash. -/
theorem internAt_cases (s : TaskDefStore I) : (∃ e, s.internAt id hash frozen = .error e) ∨
      (s.idOf hash = some id ∧ (∃ d, s.resolve id = some d) ∧
        s.internAt id hash frozen = .ok (id, s)) ∨
      (s.idOf hash = some id ∧ s.resolve id = none ∧
        s.internAt id hash frozen = .ok (id, s.putSlot id { frozen with defId := id })) ∨
      (s.idOf hash = none ∧ s.resolve id = none ∧ ∃ t, s.internAt id hash frozen = .ok (id, t) ∧
          t.defs = ((s.bindHash hash id).putSlot id { frozen with defId := id }).defs ∧
          t.hashToId = (s.bindHash hash id).hashToId ∧ t.nextId = max s.nextId (id + 1)) := by
  unfold internAt
  cases hid : s.hashToId.lookup hash with
  | some existing =>
    dsimp only
    by_cases hsame : existing = id
    · subst hsame
      rw [if_neg (by simp)]
      cases hd : s.resolve existing with
      | none => exact .inr (.inr (.inl ⟨hid, rfl, rfl⟩))
      | some d => exact .inr (.inl ⟨hid, ⟨d, rfl⟩, rfl⟩)
    · rw [if_pos hsame]
      exact .inl ⟨_, rfl⟩
  | none =>
    cases hd : s.resolve id with
    | some => exact .inl ⟨_, rfl⟩
    | none => exact .inr (.inr (.inr ⟨hid, rfl, _, rfl, rfl, rfl, rfl⟩))

/-- A definition placed at a wire id that is not reserved for another hash: the store stays
sound, and the id resolves to a definition handed in for the hash. -/
theorem Sound.internAt (hsteals : ¬s.Steals id hash) (hd : (hash, frozen.content) ∈ submitted)
    (hok : s.internAt id hash frozen = .ok (id', t)) :
    id' = id ∧ t.Sound submitted ∧ t.idOf hash = some id ∧
      ∃ d, t.resolve id = some d ∧ (hash, d.content) ∈ submitted := by
  have hstamped : (hash, ({ frozen with defId := id } : FrozenTaskDef I).content) ∈ submitted := hd
  rcases s.internAt_cases with
    ⟨e, he⟩ | ⟨hid, ⟨d, hslot⟩, he⟩ | ⟨hid, hempty, he⟩ | ⟨hnew, hempty, u, he, hdefs, hids, hnext⟩
  · rw [he] at hok
    cases hok
  · rw [he] at hok
    cases hok
    obtain ⟨h, hh, hmem⟩ := hs.placed id d hslot
    obtain rfl : h = hash := hs.registry.injective h hash id hh hid
    exact ⟨rfl, hs, hid, d, hslot, hmem⟩
  · rw [he] at hok
    cases hok
    exact ⟨rfl, hs.putSlot hid hstamped, hid, _, by rw [resolve_putSlot, if_pos rfl], hstamped⟩
  · rw [he] at hok
    cases hok
    have hfree : ∀ h, s.idOf h ≠ some id := fun h hid => hsteals ⟨hnew, hempty, h, hid⟩
    refine ⟨rfl, (hs.place hnew hfree hstamped).congr hdefs hids ?_, ?_,
      { frozen with defId := id }, ?_, hstamped⟩
    · rw [hnext]
      exact max_le le_rfl (le_max_right _ _)
    · rw [idOf, hids]
      exact AList.lookup_insert s.hashToId
    · rw [resolve, hdefs]
      exact resolve_putSlot.trans (if_pos rfl)

omit hs in
/-- Placing a new hash at a reserved id gives the id two hashes. -/
theorem shared_of_steals (h : s.Steals id hash) (frozen : FrozenTaskDef I) :
    ∃ t, s.internAt id hash frozen = .ok (id, t) ∧
      ∃ h', h' ≠ hash ∧ t.idOf hash = some id ∧ t.idOf h' = some id := by
  obtain ⟨hnew, hempty, h', hid'⟩ := h
  have hne : h' ≠ hash := by
    rintro rfl
    rw [hnew] at hid'
    cases hid'
  have hok : s.internAt id hash frozen = .ok (id, { s.putSlot id { frozen with defId := id } with
        hashToId := s.hashToId.insert hash id }) := by
    rw [idOf] at hnew
    simp only [internAt, hnew, hempty]
    rfl
  have hself := Function.update_self hash (some id) s.idOf
  have hother := (Function.update_of_ne hne (some id) s.idOf).trans hid'
  rw [← idOf_insert] at hself hother
  exact ⟨_, hok, h', hne, hself, hother⟩

omit hs in
/-- Filling in dependencies leaves the ids. -/
theorem idOf_fillDepRefs (s : TaskDefStore I) (id : TaskDefId) (refs : List TaskDepRef) :
    (s.fillDepRefs id refs).idOf = s.idOf := by
  unfold fillDepRefs
  split <;> rfl

/-- Filling in the edges of a definition. -/
theorem Sound.fillDepRefs
    (id : TaskDefId) (refs : List TaskDepRef) : (s.fillDepRefs id refs).Sound submitted := by
  unfold TaskDefStore.fillDepRefs
  cases hd : s.defs.lookup id with
  | none => exact hs
  | some d =>
    obtain ⟨h, hid, hmem⟩ := hs.placed id d hd
    refine ⟨hs.registry, fun id' d' hd' => ?_⟩
    change (s.defs.insert id { d with taskDependsOn := refs }).lookup id' = some d' at hd'
    rw [HashMap.lookup_insert_eq] at hd'
    split at hd'
    · rename_i hsame
      cases hd'
      exact ⟨h, hsame ▸ hid, hmem⟩
    · exact hs.placed id' d' hd'

end TaskDefStore

/-! ## Runs of a node -/

/-- The calls that reach the definition store. -/
inductive DefCall (I : Type)
  | allocForHash (hash : TaskHash)
  | intern (hash : TaskHash) (frozen : FrozenTaskDef I)
  | internAt (id : TaskDefId) (hash : TaskHash) (frozen : FrozenTaskDef I)
  | internTaskDefAt (defId : Option TaskDefId) (hash : TaskHash) (task : TaskInfo I)
  | registerRestoredDef (hash : TaskHash) (d : FrozenTaskDef I)

namespace DefCall

/-- The definition a call hands in, under its hash. -/
def submission : DefCall I → List (TaskHash × FrozenTaskDef I)
  | allocForHash _ => []
  | intern hash frozen => [(hash, frozen.content)]
  | internAt _ hash frozen => [(hash, frozen.content)]
  | internTaskDefAt _ hash task => [(hash, (fromTaskInfo task).1.content)]
  | registerRestoredDef hash d => [(hash, d.content)]

variable (s : ClusterState I)

/-- The id a call is told to use for its hash; an id held by a settled task is ignored. -/
def wireId : DefCall I → Option (TaskDefId × TaskHash)
  | allocForHash _ => none
  | intern _ _ => none
  | internAt id hash _ => some (id, hash)
  | internTaskDefAt none _ _ => none
  | internTaskDefAt (some wire) hash _ =>
    if s.settled.isDefIdSettled wire then none else some (wire, hash)
  | registerRestoredDef hash d =>
    if d.defId = TaskDefId.unbound ∨ s.settled.isDefIdSettled d.defId = true then none
    else some (d.defId, hash)

/-- **The call does not take an id that is reserved for another hash.** -/
def Unreserved (c : DefCall I) : Prop :=
  ∀ id hash, c.wireId s = some (id, hash) → ¬s.definitions.Steals id hash

/-- What a call does. -/
def run : DefCall I → ClusterState I
  | allocForHash hash => { s with definitions := (s.definitions.allocForHash hash).2 }
  | intern hash frozen => { s with definitions := s.definitions.intern hash frozen }
  | internAt id hash frozen => match s.definitions.internAt id hash frozen with
    | .ok (_, defs) => { s with definitions := defs }
    | .error _ => s
  | internTaskDefAt defId hash task => (s.internTaskDefAt defId hash task).1
  | registerRestoredDef hash d => s.registerRestoredDef hash d

end DefCall

namespace TaskDefStore

variable {submitted : Submissions I} {s : TaskDefStore I} {hash : TaskHash} {task : TaskInfo I}

/-- Interning a submitted task keeps the store sound. -/
theorem Sound.internTaskDef (hs : s.Sound submitted)
    (hd : (hash, (fromTaskInfo task).1.content) ∈ submitted) :
    (s.internTaskDef hash task).1.Sound submitted := by
  have hplaced := hs.internReportingPlacement hd
  unfold TaskDefStore.internTaskDef
  dsimp only
  split
  · exact hplaced.fillDepRefs _ _
  · exact hplaced

/-- So does interning at the id of the wire, if that steals no id. -/
theorem Sound.internTaskDefAtWire (hs : s.Sound submitted) {wire : TaskDefId}
    (hsteals : ¬s.Steals wire hash)
    (hd : (hash, (fromTaskInfo task).1.content) ∈ submitted) :
    (s.internTaskDefAtWire wire hash task).1.Sound submitted := by
  unfold TaskDefStore.internTaskDefAtWire
  dsimp only
  cases hok : s.internAt wire hash (fromTaskInfo task).1 with
  | error => exact hs
  | ok =>
    have hplaced := (hs.internAt hsteals hd hok).2.1
    dsimp only
    split
    · exact hplaced.fillDepRefs _ _
    · exact hplaced

/-- Binding a cell touches no definition. -/
theorem internCellAt_same {t : TaskDefStore I} {id : SecondaryCellId}
    (hok : s.internCellAt id hash = .ok t) :
    t.defs = s.defs ∧ t.hashToId = s.hashToId ∧ t.nextId = s.nextId := by
  unfold internCellAt at hok
  cases hid : s.cellHashToId.lookup hash with
  | some | none =>
    simp only [hid] at hok
    split at hok
    · cases hok
    · cases hok
      exact ⟨rfl, rfl, rfl⟩

/-- Keeping the cell of a restored definition touches no definition. -/
theorem reanchorRestoredAffineId_same (s : TaskDefStore I) {d : FrozenTaskDef I} :
    (s.reanchorRestoredAffineId hash d).defs = s.defs ∧
      (s.reanchorRestoredAffineId hash d).hashToId = s.hashToId ∧
      (s.reanchorRestoredAffineId hash d).nextId = s.nextId := by
  unfold reanchorRestoredAffineId
  cases d.affineId with
  | none => exact ⟨rfl, rfl, rfl⟩
  | some affineId =>
    dsimp only
    cases hok : s.internCellAt affineId hash with
    | error => exact ⟨rfl, rfl, rfl⟩
    | ok => exact internCellAt_same hok

end TaskDefStore

namespace ClusterState

variable {s : ClusterState I} {c : DefCall I}

/-- A call that takes no reserved id keeps the store sound. -/
theorem defCall_sound {submitted : Submissions I}
    (hs : s.definitions.Sound submitted) (hc : c.Unreserved s) :
    (c.run s).definitions.Sound (c.submission ++ submitted) := by
  have hmore := hs.mono (subset_append_right c.submission submitted)
  cases c with
  | allocForHash hash => exact hmore.allocForHash hash
  | intern => exact hmore.internReportingPlacement mem_cons_self
  | internAt id hash frozen =>
    rw [DefCall.run]
    cases hok : s.definitions.internAt id hash frozen with
    | error => exact hmore
    | ok => exact (hmore.internAt (hc id hash rfl) mem_cons_self hok).2.1
  | internTaskDefAt defId hash task =>
    change (s.internTaskDefAt defId hash task).1.definitions.Sound _
    unfold internTaskDefAt
    cases defId with
    | none => exact hmore.internTaskDef mem_cons_self
    | some wire =>
      dsimp only
      by_cases hset : s.settled.isDefIdSettled wire = true
      · rw [if_pos hset]
        exact hmore.internTaskDef mem_cons_self
      · rw [if_neg hset]
        exact hmore.internTaskDefAtWire (hc wire hash (if_neg hset)) mem_cons_self
  | registerRestoredDef hash d =>
    obtain ⟨hdefs, hids, hnext⟩ := reanchorRestoredAffineId_same _
    refine Sound.congr ?_ hdefs hids hnext.ge
    have hlocal : (s.definitions.intern hash d).Sound _ :=
      hmore.internReportingPlacement mem_cons_self
    split
    · exact hlocal
    · rename_i hid
      have hsteals := hc d.defId hash (if_neg hid)
      cases hok : s.definitions.internAt d.defId hash d with
      | error => exact hlocal
      | ok => exact (hmore.internAt hsteals mem_cons_self hok).2.1

/-- A call that takes a reserved id leaves the id with two hashes. -/
theorem defCall_shares (hc : ¬c.Unreserved s) :
    ∃ h h' id, h ≠ h' ∧ (c.run s).definitions.idOf h = some id ∧
      (c.run s).definitions.idOf h' = some id := by
  unfold DefCall.Unreserved at hc
  push Not at hc
  obtain ⟨id, hash, hwire, hsteals⟩ := hc
  cases c with
  | allocForHash => cases hwire
  | intern => cases hwire
  | internAt id' hash' frozen =>
    cases hwire
    obtain ⟨t, hok, h', hne, hself, hother⟩ := shared_of_steals hsteals frozen
    refine ⟨h', hash, id, hne, ?_⟩
    rw [DefCall.run, hok]
    exact ⟨hother, hself⟩
  | internTaskDefAt defId hash' task =>
    cases defId with
    | none => cases hwire
    | some wire =>
      simp only [DefCall.wireId] at hwire
      split at hwire
      · cases hwire
      · rename_i hset
        cases hwire
        obtain ⟨t, hok, h', hne, hself, hother⟩ := shared_of_steals hsteals (fromTaskInfo task).1
        refine ⟨h', hash, id, hne, ?_⟩
        have hids : ((s.internTaskDefAt (some id) hash task).1.definitions).idOf = t.idOf := by
          unfold internTaskDefAt internTaskDefAtWire
          simp only [hset, Bool.false_eq_true, if_false, hok]
          split
          · exact idOf_fillDepRefs t _ _
          · rfl
        change (s.internTaskDefAt (some id) hash task).1.definitions.idOf h' = _ ∧
          (s.internTaskDefAt (some id) hash task).1.definitions.idOf hash = _
        rw [hids]
        exact ⟨hother, hself⟩
  | registerRestoredDef hash' d =>
    simp only [DefCall.wireId] at hwire
    split at hwire
    · cases hwire
    · rename_i hid
      cases hwire
      obtain ⟨t, hok, h', hne, hself, hother⟩ := shared_of_steals hsteals d
      refine ⟨h', hash, d.defId, hne, ?_⟩
      have hids : (s.registerRestoredDef hash d).definitions.idOf = t.idOf := by
        unfold registerRestoredDef
        simp only [hid, if_false, hok]
        funext h
        rw [idOf, idOf, (t.reanchorRestoredAffineId_same).2.1]
      change (s.registerRestoredDef hash d).definitions.idOf h' = _ ∧
        (s.registerRestoredDef hash d).definitions.idOf hash = _
      rw [hids]
      exact ⟨hother, hself⟩

end ClusterState

/-- A node and the definitions handed to it so far. -/
structure DefRun (I : Type) where
  state : ClusterState I
  submitted : Submissions I

namespace DefRun

/-- The nodes that calls which meet `cond` can lead to. Between the calls everything but the
definition store may change. -/
inductive Reached (cond : ClusterState I → DefCall I → Prop) : DefRun I → Prop
  | start (s : ClusterState I) (hempty : s.definitions = .empty) : Reached cond ⟨s, []⟩
  | call {r : DefRun I} (c : DefCall I) (hr : Reached cond r) (hc : cond r.state c) :
      Reached cond ⟨c.run r.state, c.submission ++ r.submitted⟩
  | other {r : DefRun I} (t : ClusterState I) (hr : Reached cond r)
      (hdefs : t.definitions = r.state.definitions) : Reached cond ⟨t, r.submitted⟩

/-- Along a run whose calls take no reserved id the store stays sound. -/
theorem Reached.sound {r : DefRun I} (hr : Reached (fun s c => c.Unreserved s) r) :
    r.state.definitions.Sound r.submitted := by
  induction hr with
  | start s hempty =>
    rw [hempty]
    exact sound_empty []
  | call c _ hc ih => exact defCall_sound ih hc
  | other t _ hdefs ih =>
    rw [hdefs]
    exact ih

/-- **Definition ids are a bijection as long as no reserved id is taken.** In every state that
such a run reaches, two hashes never share an id, every stored definition sits at the id of the
hash it was handed in for, and a wire placement that succeeds leaves its id resolving to a
definition of its hash. The first call that takes a reserved id leaves that id with two hashes. -/
theorem definition_ids_bijective {r : DefRun I} (hr : Reached (fun s c => c.Unreserved s) r) :
    (∀ h h' id, r.state.definitions.idOf h = some id → r.state.definitions.idOf h' = some id →
      h = h') ∧ (∀ id d, r.state.definitions.resolve id = some d →
      ∃ h, r.state.definitions.idOf h = some id ∧ (h, d.content) ∈ r.submitted) ∧
    (∀ id hash frozen id' defs, (DefCall.internAt id hash frozen).Unreserved r.state →
      r.state.definitions.internAt id hash frozen = .ok (id', defs) →
      id' = id ∧ ∃ d, defs.resolve id = some d ∧
        (hash, d.content) ∈ (hash, frozen.content) :: r.submitted) ∧
    ∀ c : DefCall I, ¬c.Unreserved r.state →
      ∃ h h' id, h ≠ h' ∧ (c.run r.state).definitions.idOf h = some id ∧
        (c.run r.state).definitions.idOf h' = some id := by
  have hs := hr.sound
  refine ⟨hs.registry.injective, hs.placed, ?_, fun c hc => defCall_shares hc⟩
  intro id hash frozen id' defs hc hok
  have hmore := hs.mono (subset_cons_self (hash, frozen.content) r.submitted)
  obtain ⟨hid, _, _, hd⟩ := hmore.internAt (hc id hash rfl) mem_cons_self hok
  exact ⟨hid, hd⟩

end DefRun

namespace Sample

/-- The definition of a task without prerequisites. -/
def definition (taskId : String) : FrozenTaskDef String :=
  (fromTaskInfo (task taskId [])).1

/-- A node that has reserved an id for one hash. -/
def reserved : ClusterState String := (DefCall.allocForHash "a").run .empty

/-- The node after it has placed the definition it reserved the id for. -/
def reservedThenPlaced : DefRun String :=
  ⟨(DefCall.internAt 0 "a" (definition "a")).run reserved, [("a", (definition "a").content)]⟩

/-- The originator's own placement fills the slot it has reserved. -/
theorem reserved_id_is_filled :
    reservedThenPlaced.state.definitions.resolve 0 = some { definition "a" with defId := 0 } ∧
      ∃ h, reservedThenPlaced.state.definitions.idOf h = some 0 ∧
        (h, (definition "a").content) ∈ reservedThenPlaced.submitted := by
  have hreserved : DefRun.Reached (fun s c => c.Unreserved s) ⟨reserved, []⟩ :=
    .call (.allocForHash "a") (.start .empty rfl) fun _ _ hwire => nomatch hwire
  have hreached : DefRun.Reached (fun s c => c.Unreserved s) reservedThenPlaced := by
    refine .call (.internAt 0 "a" (definition "a")) hreserved fun id hash hwire hsteals => ?_
    cases hwire
    exact absurd hsteals.1 (by decide)
  have hplaced : reservedThenPlaced.state.definitions.resolve 0 =
      some { definition "a" with defId := 0 } := by decide
  obtain ⟨_, hsits, _⟩ := DefRun.definition_ids_bijective hreached
  exact ⟨hplaced, hsits 0 { definition "a" with defId := 0 } hplaced⟩

/-- A wire placement of another hash takes the reserved id. Both hashes then have it, and the
placement the id was reserved for succeeds and leaves the other definition in the slot. -/
theorem reserved_id_is_taken :
    let s := (DefCall.internAt 0 "b" (definition "b")).run reserved
    s.definitions.idOf "a" = some 0 ∧ s.definitions.idOf "b" = some 0 ∧
      ∃ defs, s.definitions.internAt 0 "a" (definition "a") = .ok (0, defs) ∧
        defs.resolve 0 = some { definition "b" with defId := 0 } ∧
        (definition "b").content ≠ (definition "a").content :=
  ⟨by decide, by decide, _, rfl, by decide, by decide⟩

end Sample

end DynRunner
