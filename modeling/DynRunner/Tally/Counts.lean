import DynRunner.Tally.Events

/-!
# Counting along a sequence of changes

The events that a node has counted form a log. A node that counts every event it shows has the
numbers of logged events as its tallies, and a change extends its log. Another node, which stores
only logged events, counts no more of them than its ledger covers.
-/

namespace DynRunner

open Ledger Finset TaskState

variable {I : Type}

namespace ClusterState

variable [DefaultHasher] [RecordCodec I]
variable {V : TaskHash → TaskState I → Prop} {s t : ClusterState I} {log : Finset TallyEvent}

/-! ## The primary -/

/-- The node has counted the events of the log, and shows no others. -/
structure Counts (s : ClusterState I) (log : Finset TallyEvent) : Prop where
  exact : EventTally.Exact TallyEvent.tally log s.phaseEventTallyFor
  terminal : ∀ e ∈ log, e.key.band = .terminal
  covers : ∀ e ∈ log, s.logical.Covers e
  shows : ∀ e, s.logical.Shows e → e ∈ log

/-- A change that counts every event it shows extends the log. -/
theorem Counts.move (hs : s.Counts log) (h : Move V (fun _ => False) s t) :
    ∃ log', log ⊆ log' ∧ t.Counts log' := by
  have hcovers : ∀ e ∈ log, t.logical.Covers e :=
    fun e he => h.covers (hs.terminal e he) (hs.covers e he)
  cases h with
  | still hraises hshows htallies =>
    refine ⟨log, Subset.rfl, ?_, hs.terminal, hcovers, fun e he => ?_⟩
    · intro c
      rw [phaseEventTallyFor, htallies]
      exact hs.exact c
    · exact hs.shows e ((hshows e he).resolve_right id)
  | @win h incoming counted hv hwins hlogical hcounted htally =>
    have hshows : ∀ e, t.logical.Shows e → incoming.event h = some e ∨ s.logical.Shows e := by
      intro e he
      rcases hlogical with heq | heq <;> rw [heq] at he
      · exact shows_put he
      · exact (shows_put he).imp_right shows_resumeOn
    have heq : counted = incoming.eventTally := by
      rcases hcounted with heq | ⟨rfl, hnone⟩
      · exact heq
      · cases htally' : incoming.eventTally with
        | none => rfl
        | some => exact (hnone _ (by rw [event, htally']; rfl)).elim
    cases htally' : incoming.eventTally with
    | none =>
      refine ⟨log, Subset.rfl, fun c => ?_, hs.terminal, hcovers, fun e he => ?_⟩
      · rw [htally c, heq, htally', if_neg (by rintro ⟨⟩)]
        exact hs.exact c
      · refine hs.shows e ((hshows e he).resolve_left fun hevent => ?_)
        rw [event, htally'] at hevent
        cases hevent
    | some tally =>
      have hevent : incoming.event h = some ⟨h, taskJoinKey incoming, tally⟩ := by
        rw [event, htally']
        rfl
      -- Whatever is logged for this task is covered by the entry that loses.
      have hnew : ⟨h, taskJoinKey incoming, tally⟩ ∉ log := by
        intro hmem
        obtain ⟨st, hst, hle⟩ := hs.covers _ hmem
        exact absurd (hwins st hst) (not_lt.mpr hle)
      refine ⟨insert ⟨h, taskJoinKey incoming, tally⟩ log, subset_insert _ _, ?_, ?_, ?_,
        fun e he => ?_⟩
      · have hexact := hs.exact.insert hnew
        intro c
        rw [htally c, heq, htally', ← hexact c]
        simp only [Option.some.injEq]
      · exact (forall_mem_insert _ _ _).mpr ⟨event_band hevent, hs.terminal⟩
      · exact (forall_mem_insert _ _ _).mpr ⟨⟨incoming, stored_of_win hlogical, le_rfl⟩, hcovers⟩
      · rcases hshows e he with he | he
        · cases hevent.symm.trans he
          exact mem_insert_self _ _
        · exact mem_insert_of_mem (hs.shows e he)

/-- Moves that count nothing new extend the log. -/
theorem Counts.moves (hs : s.Counts log) (h : Moves V (fun _ => False) s t) :
    ∃ log', log ⊆ log' ∧ t.Counts log' := by
  induction h with
  | refl => exact ⟨log, Subset.rfl, hs⟩
  | tail _ hmove ih =>
    obtain ⟨log', hlog, hcounts⟩ := ih
    obtain ⟨log'', hlog', hcounts⟩ := hcounts.move hmove
    exact ⟨log'', hlog.trans hlog', hcounts⟩

/-- Every entry stays, in its phase. -/
def KeepsPhases (L M : Ledger I) : Prop :=
  ∀ h st, L h = some st → ∃ st', M h = some st' ∧ st'.definition.phaseId = st.definition.phaseId

variable {L M : Ledger I} {W : TallyEvent → Prop}

omit [DefaultHasher] [RecordCodec I] in
theorem KeepsPhases.trans {N : Ledger I} (h : KeepsPhases L M) (h' : KeepsPhases M N) :
    KeepsPhases L N := by
  intro x st hst
  obtain ⟨st', hst', hphase⟩ := h x st hst
  obtain ⟨st'', hst'', hphase'⟩ := h' x st' hst'
  exact ⟨st'', hst'', hphase'.trans hphase⟩

omit [RecordCodec I] in
/-- An entry that is raised keeps its phase. -/
theorem keepsPhases_of_raises (h : L.Raises M) : KeepsPhases L M :=
  fun x st hst => (h x st hst).imp fun _ hst' => ⟨hst'.1, hst'.2.2⟩

/-- Changes that store entries in their old phases keep every phase. -/
theorem Moves.keepsPhases (h : Moves V W s t)
    (hv : ∀ h incoming, V h incoming → ∃ st, s.logical h = some st ∧
      incoming.definition.phaseId = st.definition.phaseId) : KeepsPhases s.logical t.logical := by
  induction h with
  | refl => exact fun _ st hst => ⟨st, hst, rfl⟩
  | tail _ hmove ih =>
    cases hmove with
    | still hraises => exact ih.trans (keepsPhases_of_raises hraises)
    | @win h incoming _ hvouched _ hlogical _ _ =>
      intro x st hst
      by_cases hx : x = h
      · subst hx
        obtain ⟨st', hst', hphase⟩ := hv x incoming hvouched
        cases hst.symm.trans hst'
        exact ⟨incoming, stored_of_win hlogical, hphase⟩
      · obtain ⟨st', hst', hphase⟩ := ih x st hst
        rcases hlogical with heq | heq <;> rw [heq, put_of_ne hx]
        · exact ⟨st', hst', hphase⟩
        · obtain ⟨st'', hst'', -, hphase'⟩ := raises_resumeOn h x st' hst'
          exact ⟨st'', hst'', hphase'.trans hphase⟩

/-! ## The replica -/

/-- The node has counted no more events of the log than its ledger covers. -/
abbrev CountsAtMost (s : ClusterState I) (log : Finset TallyEvent) : Prop :=
  EventTally.Bounded TallyEvent.tally log s.logical.Covers s.phaseEventTallyFor

/-- A change that stores only logged events. -/
theorem CountsAtMost.move (hs : s.CountsAtMost log)
    (hterminal : ∀ e ∈ log, e.key.band = .terminal) (h : Move V W s t)
    (hv : ∀ h st, V h st → ∀ e, st.event h = some e → e ∈ log) : t.CountsAtMost log := by
  have hcovers : ∀ e ∈ log, s.logical.Covers e → t.logical.Covers e :=
    fun e he => h.covers (hterminal e he)
  cases h with
  | still hraises hshows htallies =>
    intro c
    rw [phaseEventTallyFor, htallies]
    exact hs.mono Subset.rfl hcovers c
  | @win h incoming counted hvouched hwins hlogical hcounted htally =>
    cases hcounted' : counted with
    | none =>
      intro c
      rw [htally c, hcounted', if_neg (by rintro ⟨⟩)]
      exact hs.mono Subset.rfl hcovers c
    | some tally =>
      have heq : incoming.eventTally = some tally := by
        rcases hcounted with heq | ⟨hnone, -⟩
        · rw [← heq, hcounted']
        · rw [hcounted'] at hnone
          cases hnone
      have hevent : incoming.event h = some ⟨h, taskJoinKey incoming, tally⟩ := by
        rw [event, heq]
        rfl
      have hbefore : ¬s.logical.Covers ⟨h, taskJoinKey incoming, tally⟩ := by
        rintro ⟨st, hst, hle⟩
        exact absurd (hwins st hst) (not_lt.mpr hle)
      have hnow : t.logical.Covers ⟨h, taskJoinKey incoming, tally⟩ :=
        ⟨incoming, stored_of_win hlogical, le_rfl⟩
      have hbound := EventTally.Bounded.observe hs (hv h incoming hvouched _ hevent) hbefore hnow
        hcovers
      intro c
      rw [htally c, hcounted']
      simpa only [Option.some.injEq] using hbound c

/-- Moves within the log stay within its counts. -/
theorem CountsAtMost.moves (hs : s.CountsAtMost log)
    (hterminal : ∀ e ∈ log, e.key.band = .terminal) (h : Moves V W s t)
    (hv : ∀ h st, V h st → ∀ e, st.event h = some e → e ∈ log) : t.CountsAtMost log := by
  induction h with
  | refl => exact hs
  | tail _ hmove ih => exact ih.move hterminal hmove hv

end ClusterState

end DynRunner
