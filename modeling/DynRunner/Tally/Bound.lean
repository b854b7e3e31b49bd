import DynRunner.Stream.Coverage
import DynRunner.Tally.Counts
import DynRunner.Tally.Mirror

/-!
# A replica counts no more than the primary

The primary's events form a log, of which each stream remembers what had been logged when it was
opened. The replica counts an event when it first covers it. It takes over the tallies of a stream
when it covers all that the stream remembers, so that nothing is counted again later.
-/

namespace DynRunner

open ClusterState SnapshotStreamPlan Mirror StreamCodec List EventTally TaskState

variable {I : Type}

section Streams

variable [RecordCodec I] [StreamCodec I]

/-- A package leaves the captured keys and tallies of its plan alone. -/
theorem SnapshotStreamPlan.nextPackage_capture (budget : PackageBudget) (plan : SnapshotStreamPlan)
    (state : ClusterState I) : (plan.nextPackage budget state).1.keys = plan.keys ∧
      (plan.nextPackage budget state).1.tallies = plan.tallies := by
  unfold nextPackage
  split
  · exact ⟨rfl, rfl⟩
  · split
    · exact ⟨rfl, rfl⟩
    · split
      · split
        split <;> exact ⟨rfl, rfl⟩
      · exact ⟨rfl, rfl⟩

end Streams

namespace Mirror

variable [StreamCodec I]

/-- The keys and the tallies that a stream captured when it was opened. -/
def capture (x : Mirror I) (i : ℕ) :
    Option (List TaskHash × Option (HashMap (PhaseId × PhaseTally) ℕ)) :=
  (x.streams[i]?).map fun plan => (plan.keys, plan.tallies)

/-- A stream that starts elsewhere has captured the same. -/
theorem capture_reposition (x : Mirror I) (i : ℕ) (resumeAfter : Option TaskHash) :
    ({ x with streams := x.streams.modify i fun plan => plan.reposition resumeAfter } :
      Mirror I).capture = x.capture := by
  funext j
  rw [capture, capture]
  rw [getElem?_modify]
  cases x.streams[j]? with
  | none => rfl
  | some =>
    by_cases hj : i = j
    · simp [hj, reposition]
    · simp [hj]

variable {x : Mirror I} {plan : SnapshotStreamPlan} {resumeAfter : Option TaskHash}

/-- A new stream captures the state of its start. -/
theorem capture_openStream {i : ℕ} :
    ({ x with streams := x.streams ++ [plan] } : Mirror I).capture i =
      if i = x.streams.length then some (plan.keys, plan.tallies) else x.capture i := by
  rw [capture, capture]
  rcases lt_trichotomy i x.streams.length with hlt | rfl | hgt
  · rw [getElem?_append_left hlt, if_neg hlt.ne]
  · rw [getElem?_append_right le_rfl, Nat.sub_self, if_pos rfl]
    rfl
  · rw [if_neg hgt.ne', getElem?_eq_none hgt.le,
      getElem?_eq_none (by rw [length_append]; exact hgt)]

variable {i : ℕ} {m : ClusterMutation I} {p : StreamPackage I}
  {order : List (TaskHash × TaskState I)}

/-- A stream that has captured something is not the next one to be opened. -/
theorem ne_length_of_capture (hi : (x.capture i).isSome = true) : i ≠ x.streams.length := by
  rintro rfl
  rw [capture, getElem?_eq_none le_rfl] at hi
  cases hi

/-! ## The invariant -/

variable [DefaultHasher] [RecordCodec I]

/-- What a snapshot on its way says is so: each entry was the primary's, and reaches what the
stream remembers; tallies are those that the stream captured. -/
structure SnapSound (past : List (ClusterState I))
    (captured : Option (List TaskHash × Option (HashMap (PhaseId × PhaseTally) ℕ)))
    (older : Finset TallyEvent) (snap : ClusterStateSnapshot I) : Prop where
  held : ∀ k st, snap.tasks.lookup k = some st → ∃ s ∈ past, s.logical k = some st
  reaches : ∀ k st, snap.tasks.lookup k = some st → ∀ e ∈ older, e.hash = k →
    e.key ≤ taskJoinKey st
  tallies : snap.phaseEventTallies ≠ ∅ →
    ∃ keys, captured = some (keys, some snap.phaseEventTallies)

/-- **The invariant.** `log` holds the events that the primary has counted, and `old i` those that
it had counted when stream `i` was opened. -/
structure Inv (x : Mirror I) (log : Finset TallyEvent) (old : ℕ → Finset TallyEvent) : Prop where
  primary_consistent : x.primary.Consistent
  replica_consistent : x.replica.Consistent
  counts : x.primary.Counts log
  primary_past : x.primary ∈ x.past
  past_shows : ∀ s ∈ x.past, ∀ e, s.logical.Shows e → e ∈ log
  past_phases : ∀ s ∈ x.past, KeepsPhases s.logical x.primary.logical
  sent : ∀ m ∈ x.sent, ∀ h status attempt, m.candidate = some (h, status, attempt) →
    ∃ s ∈ x.past, ∃ st, s.logical h = some st ∧ st.status = status ∧ st.attempt = attempt
  old_subset : ∀ i keys tallies, x.capture i = some (keys, tallies) → old i ⊆ log
  old_exact : ∀ i keys tallies, x.capture i = some (keys, some tallies) →
    Exact TallyEvent.tally (old i) (fun c => (tallies.lookup c).getD 0) ∧
      ∀ e ∈ old i, e.hash ∈ keys
  packages : ∀ i p, (i, p) ∈ x.packages → (x.capture i).isSome = true ∧
    ∃ snap, decodeStreamPayload p.payload = .ok snap ∧
      SnapSound x.past (x.capture i) (old i) snap
  received : ∀ i k, k ∈ x.received i → (x.capture i).isSome = true ∧
    ∀ e ∈ old i, e.hash = k → x.replica.logical.Covers e
  bounded : x.replica.CountsAtMost log

variable {log : Finset TallyEvent} {old : ℕ → Finset TallyEvent}

/-- At the start nothing is counted. -/
theorem inv_start : (start : Mirror I).Inv ∅ fun _ => ∅ where
  primary_consistent := empty_consistent
  replica_consistent := empty_consistent
  counts := by
    refine ⟨fun _ => rfl, fun e he => absurd he (Finset.notMem_empty e),
      fun e he => absurd he (Finset.notMem_empty e), ?_⟩
    rintro e ⟨st, hst, -⟩
    cases hst
  primary_past := mem_cons_self
  past_shows := by
    rintro s hs e ⟨st, hst, -⟩
    obtain rfl := mem_singleton.mp hs
    cases hst
  past_phases := by
    intro s hs h st hst
    obtain rfl := mem_singleton.mp hs
    exact ⟨st, hst, rfl⟩
  sent := fun _ hm => by cases hm
  old_subset := fun _ _ _ h => by cases h
  old_exact := fun _ _ _ h => by cases h
  packages := fun _ _ h => by cases h
  received := fun _ _ h => by cases h
  bounded := bounded_zero

/-- What a stream has captured is terminal. -/
theorem Inv.old_terminal (hinv : x.Inv log old) (hi : (x.capture i).isSome = true) :
    ∀ e ∈ old i, e.key.band = .terminal := by
  obtain ⟨⟨keys, tallies⟩, hcapture⟩ := Option.isSome_iff_exists.mp hi
  exact fun e he => hinv.counts.terminal e (hinv.old_subset i keys tallies hcapture he)

/-! ## Steps of the primary -/

/-- The primary moves on, counting every event that it shows. -/
theorem Inv.advance (hinv : x.Inv log old) {s : ClusterState I} (hs : s.Consistent)
    {V : TaskHash → TaskState I → Prop} (hmoves : Moves V (fun _ => False) x.primary s)
    (hv : ∀ h incoming, V h incoming → ∃ st, x.primary.logical h = some st ∧
      incoming.definition.phaseId = st.definition.phaseId) :
    ∃ log', (x.advance s).Inv log' old := by
  obtain ⟨log', hlog, hcounts⟩ := hinv.counts.moves hmoves
  have hphases := hmoves.keepsPhases hv
  refine ⟨log', hs, hinv.replica_consistent, hcounts, mem_cons_self, ?_, ?_, ?_, ?_,
    hinv.old_exact, ?_, hinv.received, ?_⟩
  · exact forall_mem_cons.mpr
      ⟨hcounts.shows, fun t ht e he => hlog (hinv.past_shows t ht e he)⟩
  · exact forall_mem_cons.mpr ⟨fun _ st hst => ⟨st, hst, rfl⟩,
      fun t ht => (hinv.past_phases t ht).trans hphases⟩
  · intro m hm h status attempt hcandidate
    obtain ⟨t, ht, hst⟩ := hinv.sent m hm h status attempt hcandidate
    exact ⟨t, mem_cons_of_mem s ht, hst⟩
  · exact fun i keys tallies hcapture => (hinv.old_subset i keys tallies hcapture).trans hlog
  · intro i p hp
    obtain ⟨hi, snap, hdecode, hsound⟩ := hinv.packages i p hp
    refine ⟨hi, snap, hdecode, fun k st hst => ?_, hsound.reaches, hsound.tallies⟩
    obtain ⟨t, ht, hst⟩ := hsound.held k st hst
    exact ⟨t, mem_cons_of_mem s ht, hst⟩
  · exact hinv.bounded.mono hlog fun _ _ he => he

section

variable (hinv : x.Inv log old)

include hinv

/-! ## Streams -/

/-- Opening a stream keeps the bound. -/
theorem Inv.openStream (hcodec : RecordCodec.RoundTrips I) {taskRanges : List ℕ} :
    ({ x with streams := x.streams ++ [.new x.primary resumeAfter taskRanges] } : Mirror I).Inv log
      (Function.update old x.streams.length log) := by
  have hlegible := legible_of_roundTrips hcodec x.primary
  have hold : ∀ i, i ≠ x.streams.length → Function.update old x.streams.length log i = old i :=
    fun i hi => Function.update_of_ne hi _ _
  refine { hinv with old_subset := ?_, old_exact := ?_, packages := ?_, received := ?_ }
  · intro i keys tallies hcapture
    rw [capture_openStream] at hcapture
    split_ifs at hcapture with hi
    · rw [hi, Function.update_self]
    · rw [hold i hi]
      exact hinv.old_subset i keys tallies hcapture
  · intro i keys tallies hcapture
    rw [capture_openStream] at hcapture
    split_ifs at hcapture with hi
    · -- Tallies are captured only together with all keys.
      rw [hi, Function.update_self]
      obtain ⟨rfl, htallies⟩ := Prod.mk.inj (Option.some.inj hcapture)
      simp only [new] at htallies
      split_ifs at htallies with hfull
      cases htallies
      rw [Bool.and_eq_true, Bool.and_eq_true] at hfull
      refine ⟨hinv.counts.exact, fun e he => ?_⟩
      obtain ⟨st, hst, -⟩ := hinv.counts.covers e he
      refine mem_new_keys.mpr ⟨?_, fun cursor hcursor => ?_, ?_⟩
      · by_contra habsent
        rw [(logical_eq_none_iff hlegible).mpr (Bool.eq_false_iff.mpr habsent)] at hst
        cases hst
      · rw [hcursor] at hfull
        cases hfull.1.1
      · rw [inRange, hfull.1.2]
        rfl
    · rw [hold i hi]
      exact hinv.old_exact i keys tallies hcapture
  · intro i p hp
    obtain ⟨hi, hsound⟩ := hinv.packages i p hp
    rw [capture_openStream, if_neg (ne_length_of_capture hi), hold i (ne_length_of_capture hi)]
    exact ⟨hi, hsound⟩
  · intro i k hk
    obtain ⟨hi, hcovers⟩ := hinv.received i k hk
    rw [capture_openStream, if_neg (ne_length_of_capture hi), hold i (ne_length_of_capture hi)]
    exact ⟨hi, hcovers⟩

/-- Moving a stream keeps the bound. -/
theorem Inv.reposition (i : ℕ) :
    ({ x with streams := x.streams.modify i fun plan => plan.reposition resumeAfter } :
      Mirror I).Inv log old := by
  have hcapture := x.capture_reposition i resumeAfter
  refine { hinv with old_subset := ?_, old_exact := ?_, packages := ?_, received := ?_ } <;>
    rw [hcapture]
  · exact hinv.old_subset
  · exact hinv.old_exact
  · exact hinv.packages
  · exact hinv.received

omit hinv in
omit [DefaultHasher] in
/-- Emitting a package changes the position of its stream, and sends what was built. -/
theorem emit_cases (budget : PackageBudget) (x : Mirror I) (i : ℕ) :
    ∃ streams packages, x.emit budget i = { x with streams, packages } ∧
      ({ x with streams, packages } : Mirror I).capture = x.capture ∧
      (packages = x.packages ∨ ∃ plan plan' p, x.streams[i]? = some plan ∧
        Built x.primary plan p plan' ∧ packages = (i, p) :: x.packages) := by
  unfold emit
  cases hplan : x.streams[i]? with
  | none => exact ⟨x.streams, x.packages, rfl, rfl, .inl rfl⟩
  | some plan =>
    obtain ⟨hkeys, htallies⟩ := plan.nextPackage_capture budget x.primary
    cases hnext : plan.nextPackage budget x.primary with
    | mk plan' package =>
      rw [hnext] at hkeys htallies
      have hcapture : ∀ packages,
          ({ x with streams := x.streams.set i plan', packages } : Mirror I).capture =
            x.capture := by
        intro packages
        funext j
        rw [capture, capture]
        rw [getElem?_set]
        split_ifs with hj hlt
        · subst hj
          rw [hplan, Option.map_some, Option.map_some]
          exact congrArg some (Prod.ext hkeys htallies)
        · subst hj
          rw [getElem?_eq_none (not_lt.mp hlt)]
        · rfl
      dsimp only
      rw [hnext]
      refine ⟨_, _, rfl, hcapture _, ?_⟩
      cases package with
      | none => exact .inl rfl
      | some result =>
        cases result with
        | error => exact .inl rfl
        | ok p => exact .inr ⟨plan, plan', p, rfl, nextPackage_built hnext, rfl⟩

/-- A built package says what is so. -/
theorem Inv.snapSound_of_built (hstream : RoundTrips I)
    {plan' : SnapshotStreamPlan} (hplan : x.streams[i]? = some plan)
    (hbuilt : Built x.primary plan p plan') :
    ∃ snap, decodeStreamPayload p.payload = .ok snap ∧
      SnapSound x.past (x.capture i) (old i) snap := by
  have hcapture : x.capture i = some (plan.keys, plan.tallies) := by
    rw [capture, hplan]
    rfl
  cases hbuilt with
  | head _ hpayload =>
    refine ⟨_, hstream _ _ hpayload, fun k st hst => ?_, fun k st hst => ?_, fun hne => ?_⟩
    · cases hst
    · cases hst
    · exact (hne rfl).elim
  | batch taken rest snap hkeys hpayload htasks htallies =>
    have hentry : ∀ k st, snap.tasks.lookup k = some st → x.primary.logical k = some st := by
      intro k st hst
      rw [htasks k] at hst
      split_ifs at hst
      rwa [map_streamEntry] at hst
    refine ⟨snap, hstream _ _ hpayload, fun k st hst => ?_, fun k st hst e he hhash => ?_,
      fun hne => (hne htallies).elim⟩
    · exact ⟨x.primary, hinv.primary_past, hentry k st hst⟩
    · subst hhash
      obtain ⟨st', hst', hle⟩ := hinv.counts.covers e (hinv.old_subset i _ _ hcapture he)
      cases hst'.symm.trans (hentry e.hash st hst)
      exact hle
  | tail tallies _ htallies hpayload =>
    refine ⟨_, hstream _ _ hpayload, fun k st hst => ?_, fun k st hst => ?_, fun _ => ?_⟩
    · cases hst
    · cases hst
    · exact ⟨plan.keys, by rw [hcapture, htallies]⟩

/-- Sending a package keeps the bound. -/
theorem Inv.emit (hstream : RoundTrips I)
    (budget : PackageBudget) (i : ℕ) : (x.emit budget i).Inv log old := by
  obtain ⟨streams, packages, heq, hcapture, hpackages⟩ := x.emit_cases budget i
  rw [heq]
  refine { hinv with old_subset := ?_, old_exact := ?_, packages := ?_, received := ?_ } <;>
    rw [hcapture]
  · exact hinv.old_subset
  · exact hinv.old_exact
  · intro j p hp
    rcases hpackages with rfl | ⟨plan, plan', q, hplan, hbuilt, rfl⟩
    · exact hinv.packages j p hp
    · rcases mem_cons.mp hp with hnew | hp
      · cases hnew
        refine ⟨?_, hinv.snapSound_of_built hstream hplan hbuilt⟩
        rw [capture, hplan]
        rfl
      · exact hinv.packages j p hp
  · exact hinv.received

/-! ## Steps of the replica -/

/-- Whatever the primary has held is in the log. -/
theorem Inv.mem_log_of_held {h : TaskHash} {st : TaskState I}
    (hst : (st.event h).isSome = true → x.Held h st) {e : TallyEvent} (he : st.event h = some e) :
    e ∈ log := by
  obtain ⟨s, hs, st', hst', hstatus, hattempt, hphase⟩ := hst (by rw [he]; rfl)
  refine hinv.past_shows s hs e (.of_event hst' ?_)
  rw [← he, event, event, eventTally, eventTally,
    taskJoinKey, taskJoinKey, hstatus, hattempt, hphase]

omit hinv in
/-- Without stale pauses a failure spreads only to tasks that have failed on the primary. -/
theorem NoStalePause.spreads (h : x.NoStalePause order) :
    SpreadsWith (fun h st => (st.event h).isSome = true → x.Held h st) x.replica.logical order := by
  intro d st on incoming hst hstatus hheld hcascade _
  refine h d st on hst hstatus ?_
  have hevent : (incoming.event on).isSome = true := by
    unfold event eventTally
    cases hs : incoming.status <;> rw [hs] at hcascade <;> first | rfl | cases hcascade
  obtain ⟨s, hs, st', hst', hsame, -⟩ := hheld hevent
  exact ⟨s, hs, st', hst', hsame ▸ hcascade⟩

/-- The replica moves on, storing only entries that the primary has held. -/
theorem Inv.replica {r : ClusterState I} (hr : r.Consistent) {W : TallyEvent → Prop}
    (hmoves : Moves (fun h st => (st.event h).isSome = true → x.Held h st) W
      x.replica r) : ({ x with replica := r } : Mirror I).Inv log old where
  __ := hinv
  replica_consistent := hr
  received := by
    intro i k hk
    obtain ⟨hi, hcovers⟩ := hinv.received i k hk
    exact ⟨hi, fun e he hhash => hmoves.covers (hinv.old_terminal hi e he) (hcovers e he hhash)⟩
  bounded := hinv.bounded.moves hinv.counts.terminal hmoves fun _ _ hst _ he =>
    hinv.mem_log_of_held hst he

variable (hcodec : RecordCodec.RoundTrips I)

include hcodec

/-- A restored package. Its tallies count only what the replica covers already. -/
theorem Inv.receive (hallowed : x.Allowed (.receive i p order))
    (hsafe : x.Safe (.receive i p order)) : (x.receive i p order).Inv log old := by
  obtain ⟨hp, horder⟩ := hallowed
  have hlegible := legible_of_roundTrips hcodec x.replica
  obtain ⟨hi, snap, hdecode, hsound⟩ := hinv.packages i p hp
  obtain ⟨hcomplete, hstale⟩ := hsafe snap hdecode
  have hmem : ∀ e, e ∈ order → snap.tasks.lookup e.1 = some e.2 := by
    intro e he
    obtain ⟨f, hf, rfl⟩ := mem_map.mp ((horder snap hdecode).mem_iff.mp he)
    exact HashMap.mem_entries_iff.mp hf
  have hheld : ∀ e ∈ order, (e.2.event e.1).isSome = true → x.Held e.1 e.2 := by
    intro e he _
    obtain ⟨s, hs, hst⟩ := hsound.held e.1 e.2 (hmem e he)
    exact ⟨s, hs, e.2, hst, rfl, rfl, rfl⟩
  obtain ⟨u, hmoves, hlogical, htallies, hcovers⟩ := restoreInOrder_moves
    (W := fun _ => True) hinv.replica_consistent hlegible (fun _ => trivial) snap hheld
    fun hcascade => (hstale hcascade).spreads
  have hold := hinv.old_terminal hi
  have hreceived : ∀ e ∈ old i, e.hash ∈ x.received i → u.logical.Covers e := fun e he hk =>
    hmoves.covers (hold e he) ((hinv.received i e.hash hk).2 e he rfl)
  rw [Mirror.receive, hdecode]
  refine { hinv with replica_consistent := ?_, received := ?_, bounded := ?_ }
  · exact hinv.replica_consistent.steps hlegible.keeps (restoreInOrder_steps x.replica snap order)
  · intro j k hk
    dsimp only at hk ⊢
    rw [hlogical]
    by_cases hj : j = i
    · subst hj
      rw [Function.update_self, mem_append] at hk
      refine ⟨hi, fun e he hhash => ?_⟩
      subst hhash
      rcases hk with hk | hk
      · exact hreceived e he hk
      · obtain ⟨st, hst⟩ := HashMap.mem_iff_lookup.mp (AList.mem_keys.mpr hk)
        have hin : (e.hash, st) ∈ order := (horder snap hdecode).mem_iff.mpr
          (mem_map.mpr ⟨⟨e.hash, st⟩, HashMap.mem_entries_iff.mpr hst, rfl⟩)
        exact hcovers _ hin e rfl (hold e he) (hsound.reaches e.hash st hst e he rfl)
    · rw [Function.update_of_ne hj] at hk
      obtain ⟨hjc, hcov⟩ := hinv.received j k hk
      exact ⟨hjc, fun e he hhash => hmoves.covers (hinv.old_terminal hjc e he) (hcov e he hhash)⟩
  · have hbound : u.CountsAtMost log := hinv.bounded.moves hinv.counts.terminal hmoves
      fun _ _ hst _ he => hinv.mem_log_of_held hst he
    have hgoal : Bounded TallyEvent.tally log u.logical.Covers fun c =>
        max (u.phaseEventTallyFor c) ((snap.phaseEventTallies.lookup c).getD 0) := by
      by_cases hempty : snap.phaseEventTallies = ∅
      · intro c
        rw [hempty]
        exact (max_eq_left (Nat.zero_le _)).trans_le (hbound c)
      · -- The tallies count what was logged when the stream was opened, and all that is covered.
        obtain ⟨keys, hcapture⟩ := hsound.tallies hempty
        obtain ⟨hexact, hkeys⟩ := hinv.old_exact i keys _ hcapture
        refine Bounded.adopt hbound (hinv.old_subset i keys _ hcapture) hexact
          fun e he => hreceived e he ?_
        obtain ⟨plan, hplan, heq⟩ := Option.map_eq_some_iff.mp hcapture
        exact hcomplete hempty plan hplan e.hash ((Prod.mk.inj heq).1 ▸ hkeys e he)
    intro c
    rw [hlogical, htallies c]
    exact hgoal c

/-! ## Runs -/

variable [Identifier I] [DonePayloadCodec]

/-- A mutation that is counted once keeps the bound. -/
theorem Inv.originate (hopen : ¬x.primary.Reopens m) (hcounted : ¬x.primary.Uncounted m) :
    ∃ log', (x.originate m).Inv log' old := by
  have hlegible := legible_of_roundTrips hcodec x.primary
  have hs := hinv.primary_consistent
  have hmoves : Moves (fun h incoming => ∃ st, x.primary.logical h = some st ∧
      incoming.definition.phaseId = st.definition.phaseId) (fun _ => False) x.primary
      (x.primary.apply m).state :=
    apply_moves hs hlegible hopen (.inr hcounted) (fun h status attempt st _ hst => ⟨st, hst, rfl⟩)
      (fun h status attempt _ _ d st on incoming hst _ _ _ => ⟨st, hst, rfl⟩)
  obtain ⟨log', hadvanced⟩ := hinv.advance
    (hs.steps hlegible.keeps (apply_steps x.primary m)) hmoves fun _ _ h => h
  refine ⟨log', { hadvanced with sent := fun m' hm' h status attempt hcandidate => ?_ }⟩
  rw [Mirror.originate] at hm'
  split_ifs at hm' with happlied
  · rcases mem_cons.mp hm' with rfl | hm'
    · -- An applied report is what the primary now holds.
      obtain ⟨outputs, happly⟩ := apply_of_candidate x.primary hcandidate
      rw [happly, applyCandidate_outcome hs hlegible] at happlied
      obtain ⟨st, hst, hwins⟩ := happlied
      refine ⟨(x.primary.apply m').state, mem_cons_self, { st with status, attempt }, ?_, rfl, rfl⟩
      rw [logical_apply_candidate hs hlegible hcandidate, Ledger.offer_some hst]
      exact Ledger.merge_self hwins
    · exact hadvanced.sent m' hm' h status attempt hcandidate
  · exact hadvanced.sent m' hm' h status attempt hcandidate

/-- A mutation that arrives keeps the bound. -/
theorem Inv.deliver (hm : m ∈ x.sent) (hsafe : x.Safe (.deliver m)) :
    ({ x with replica := (x.replica.apply m).state } : Mirror I).Inv log old := by
  obtain ⟨hopen, hsafe⟩ := hsafe
  have hlegible := legible_of_roundTrips hcodec x.replica
  refine hinv.replica (W := fun _ => True) (hinv.replica_consistent.steps hlegible.keeps
    (apply_steps x.replica m)) (apply_moves hinv.replica_consistent
      hlegible hopen (.inl fun _ => trivial) ?_ ?_)
  · intro h status attempt st hcandidate hst _
    obtain ⟨s, hs, st', hst', hstatus, hattempt⟩ := hinv.sent m hm h status attempt hcandidate
    obtain ⟨st'', hst'', hphase⟩ := hinv.past_phases s hs h st' hst'
    have hsame := (hsafe h status attempt hcandidate).1 st st'' hst hst''
    exact ⟨s, hs, st', hst', hstatus, hattempt, (hsame.trans hphase).symm⟩
  · intro h status attempt hcandidate hcascade d st on incoming hst
    exact ((hsafe h status attempt hcandidate).2 hcascade).spreads d st on incoming (.inl hst)

/-- Every safe step keeps the bound. -/
theorem Inv.step (hstream : RoundTrips I)
    (budget : PackageBudget) {e : Event I} (hallowed : x.Allowed e)
    (hsafe : x.Safe e) : ∃ log' old', (x.step budget e).Inv log' old' := by
  cases e with
  | originate =>
    obtain ⟨log', hinv'⟩ := hinv.originate hcodec hsafe.1 hsafe.2
    exact ⟨log', old, hinv'⟩
  | spillPrimary =>
    obtain ⟨log', hinv'⟩ := hinv.advance (V := fun _ _ => False)
      (hinv.primary_consistent.commitSpill fun w hw => (hallowed w hw).1)
      (commitSpill_moves hcodec hallowed) fun _ _ h => h.elim
    exact ⟨log', old, hinv'⟩
  | spillReplica =>
    refine ⟨log, old, hinv.replica (W := fun _ => True)
      (hinv.replica_consistent.commitSpill fun w hw => (hallowed w hw).1)
      (commitSpill_moves hcodec hallowed)⟩
  | openStream => exact ⟨log, _, hinv.openStream hcodec⟩
  | reposition i => exact ⟨log, old, hinv.reposition i⟩
  | emit i => exact ⟨log, old, hinv.emit hstream budget i⟩
  | deliver => exact ⟨log, old, hinv.deliver hcodec hallowed hsafe⟩
  | receive => exact ⟨log, old, hinv.receive hcodec hallowed hsafe⟩

end

variable [Identifier I] [DonePayloadCodec]

/-- The bound holds in every safe run. -/
theorem Reached.inv (hcodec : RecordCodec.RoundTrips I) (hstream : RoundTrips I)
    {budget : PackageBudget} (hx : Reached budget Safe x) : ∃ log old, x.Inv log old := by
  induction hx with
  | start => exact ⟨∅, fun _ => ∅, inv_start⟩
  | step e _ hallowed hsafe ih =>
    obtain ⟨log, old, hinv⟩ := ih
    exact hinv.step hcodec hstream budget hallowed hsafe

/-- **A replica counts no more than the primary.** In a run of safe steps no tally of the replica,
of completions or of failures, exceeds the primary's tally for the phase. -/
theorem replica_tally_le (hcodec : RecordCodec.RoundTrips I) (hstream : RoundTrips I)
    {budget : PackageBudget} (hx : Reached budget Safe x) (c : PhaseId × PhaseTally) :
    x.replica.phaseEventTallyFor c ≤ x.primary.phaseEventTallyFor c := by
  obtain ⟨log, old, hinv⟩ := hx.inv hcodec hstream
  exact Bounded.le hinv.bounded hinv.counts.exact c

end Mirror

namespace Sample

/-- A task has completed on the primary, and a whole stream is under way. -/
def served : Mirror String :=
  [.originate (.taskAdded "a" (task "a" []) none), .originate (.taskCompleted "a" none 0),
    .openStream none [], .emit 0, .emit 0, .emit 0].foldl (step packageBudget) .start

/-- What the batch of the stream carries. -/
def servedEntries : ClusterStateSnapshot String :=
  { ClusterStateSnapshot.default (I := String) with tasks := served.primary.tasks }

/-- What the tail of the stream carries. -/
def servedTallies : ClusterStateSnapshot String :=
  { ClusterStateSnapshot.default with phaseEventTallies := served.primary.phaseEventTallies }

/-- The batch and the tail. -/
def servedBatch : StreamPackage String := ⟨servedEntries, some "a", false⟩

@[inherit_doc servedBatch]
def servedTail : StreamPackage String := ⟨servedTallies, none, true⟩

/-- The packages of the sample. -/
theorem served_packages : (0, servedBatch) ∈ served.packages ∧ (0, servedTail) ∈ served.packages :=
  ⟨.tail _ (.head _), .head _⟩

/-- The sample is reached. -/
theorem served_reached {cond : Mirror String → Event String → Prop}
    (hadd : cond .start (.originate (.taskAdded "a" (task "a" []) none)))
    (hcomplete : ∀ x, cond x (.originate (.taskCompleted "a" none 0)))
    (hopen : ∀ x, cond x (.openStream none [])) (hemit : ∀ x, cond x (.emit 0)) :
    Reached packageBudget cond served := by
  have hadded := Reached.step (.originate (.taskAdded "a" (task "a" []) none))
    (.start : Reached packageBudget cond _) trivial hadd
  have hopened := Reached.step (.openStream none [])
    (.step (.originate (.taskCompleted "a" none 0)) hadded trivial (hcomplete _)) trivial (hopen _)
  exact .step (.emit 0) (.step (.emit 0) (.step (.emit 0) hopened trivial (hemit _)) trivial
    (hemit _)) trivial (hemit _)

/-- The batch has arrived. -/
def batchArrived : Mirror String :=
  served.step packageBudget (.receive 0 servedBatch servedEntries.taskEntries)

/-- The tail has arrived after the batch. -/
def tailArrived : Mirror String := batchArrived.step packageBudget (.receive 0 servedTail [])

/-- The sample with its tail arrived is reached. -/
theorem tailArrived_reached : Reached packageBudget Safe tailArrived := by
  have hserved : Reached packageBudget Safe served := by
    refine served_reached ⟨id, id⟩ (fun x => ⟨id, ?_⟩) (fun _ => trivial) fun _ => trivial
    rintro ⟨st, -, -, hlt⟩
    exact Nat.not_lt_zero _ hlt
  refine .step _ (.step _ hserved ⟨served_packages.1, fun snap hsnap => ?_⟩ fun snap hsnap => ?_)
    ⟨served_packages.2, fun snap hsnap => ?_⟩ fun snap hsnap => ?_
  · cases hsnap
    exact .refl _
  · cases hsnap
    refine ⟨fun hne => (hne rfl).elim, fun hcascade => ?_⟩
    obtain ⟨e, he, hcascade⟩ := hcascade
    obtain rfl := mem_singleton.mp he
    cases hcascade
  · cases hsnap
    exact .refl _
  · cases hsnap
    refine ⟨fun _ plan hplan => ?_, fun hcascade => ?_⟩
    · cases hplan
      decide
    · obtain ⟨e, he, -⟩ := hcascade
      cases he

/-- The batch arrives, then the tail, and the report of the completion last: the completion is
counted once. -/
theorem completion_counted_once :
    let x := tailArrived.step packageBudget (.deliver (.taskCompleted "a" none 0))
    x.replica.phaseEventTallyFor ("p", .completed) = 1 ∧
      x.replica.phaseEventTallyFor ("p", .completed) ≤
        x.primary.phaseEventTallyFor ("p", .completed) := by
  have hphase : (tailArrived.replica.logical "a").map (·.definition.phaseId) =
      (tailArrived.primary.logical "a").map (·.definition.phaseId) := by decide
  have hreached := Reached.step (.deliver (.taskCompleted "a" none 0)) tailArrived_reached
    (mem_cons_self : ClusterMutation.taskCompleted "a" none 0 ∈ tailArrived.sent) (by
      refine ⟨id, fun h status attempt hcandidate => ?_⟩
      cases hcandidate
      refine ⟨fun st st' hst hst' => ?_, fun hcascade => by cases hcascade⟩
      rw [hst, hst'] at hphase
      exact Option.some.inj hphase)
  exact ⟨by decide, replica_tally_le skippingCodec_roundTrips plainStream_roundTrips hreached _⟩

/-- The tail overtakes the batch: the completion is taken over from the tallies and counted again
when the entry arrives. -/
theorem tail_before_batch_counts_twice :
    ∃ x : Mirror String, Reached packageBudget (fun _ _ => True) x ∧
      x.primary.phaseEventTallyFor ("p", .completed) = 1 ∧
      x.replica.phaseEventTallyFor ("p", .completed) = 2 := by
  have hserved : Reached packageBudget (fun _ _ => True) served :=
    served_reached trivial (fun _ => trivial) (fun _ => trivial) fun _ => trivial
  refine ⟨_, .step (.receive 0 servedBatch servedEntries.taskEntries) (.step
    (.receive 0 servedTail []) hserved ⟨served_packages.2, fun snap hsnap => ?_⟩ trivial)
    ⟨served_packages.1, fun snap hsnap => ?_⟩ trivial, by decide, by decide⟩
  all_goals
    cases hsnap
    exact .refl _

end Sample

end DynRunner
