import DynRunner.Ledger.RestoreOrder

/-!
# Conflicts within one restore

The converse of `OrderFree.mergesAlike`: wherever two entries of a snapshot conflict, two orders
of visiting them end with different keys. One order lets the consequence of an entry fall on a
task before its own entry arrives, the other lets the entry arrive first. Together the two
directions say exactly when restoring a snapshot is deterministic and idempotent.
-/

namespace DynRunner

open ClusterState List TaskState

section Restore

variable {I : Type} [DefaultHasher]

/-- Of two paused entries the one of the later attempt wins. -/
theorem attempt_lt_of_waitsOn {st new : TaskState I} {on on' : TaskHash}
    (hst : st.waitsOn = some on) (hnew : new.waitsOn = some on')
    (hlt : taskJoinKey st < taskJoinKey new) : st.attempt < new.attempt := by
  rw [taskJoinKey_of_waitsOn hst, taskJoinKey_of_waitsOn hnew] at hlt
  rcases (TaskJoinKey.attempt_le_of_le hlt.le).lt_or_eq with h | h
  · exact h
  · have hsame : st.attempt = new.attempt := h
    rw [hsame] at hlt
    exact absurd hlt (lt_irrefl _)

namespace Ledger

variable {L S : Ledger I}

/-! ## Single merges -/

variable {h on x y : TaskHash} {new st : TaskState I} {order : List (TaskHash × TaskState I)}

/-- A winning entry is stored. -/
theorem merge_self (hwins : L.Wins h new) : L.merge h new h = some new := by
  rcases L.merge_cases h with
    ⟨hlose, _⟩ | ⟨_, _, heq⟩ | ⟨_, hcascade, heq⟩ | ⟨_, _, _, heq⟩
  · exact (hlose hwins).elim
  · rw [heq, put_same]
  · rw [heq, failOn_of_not_doomed fun hself => ne_of_doomed hcascade hself rfl, put_same]
  · rw [heq, put_same]

/-- An entry that does not win changes nothing. -/
theorem merge_of_not_wins (hlose : ¬L.Wins h new) : L.merge h new = L := if_neg hlose

/-- A first completion resumes what waits for it. -/
theorem merge_of_firstCompletion (hwins : L.Wins h new)
    (hfirst : L.FirstCompletion h new) : L.merge h new = (L.resumeOn h).put h new := by
  rw [merge, if_pos hwins, if_pos hfirst]

/-- A failure for good fails what waits for it. -/
theorem merge_of_cascade (hwins : L.Wins h new) (hcascade : new.status.isCascadeTerminal = true) :
    L.merge h new = (L.put h new).failOn h := by
  have hfirst : ¬L.FirstCompletion h new := by
    rintro ⟨hdone, _⟩
    rw [hdone] at hcascade
    cases hcascade
  rw [merge, if_pos hwins, if_neg hfirst, if_pos hcascade]

/-- A paused winner is only written. -/
theorem merge_of_paused (hwins : L.Wins h new)
    (hon : new.waitsOn = some on) : L.merge h new = L.put h new := by
  have hstatus := waitsOn_eq_some.mp hon
  have hfirst : ¬L.FirstCompletion h new := by
    rintro ⟨hdone, _⟩
    rw [hdone] at hstatus
    cases hstatus
  rw [merge, if_pos hwins, if_neg hfirst, if_neg (by rw [hstatus]; exact Bool.false_ne_true)]

/-- What the merge of one entry does to another task. -/
theorem merge_other (hx : x ≠ h) (L : Ledger I) (new : TaskState I) :
    L.merge h new x = L x ∨ ∃ st on, L x = some st ∧ st.waitsOn = some on ∧
      (L.merge h new x = some st.resumed ∨ L.merge h new x = some st.upstreamFailed) := by
  rcases L.merge_cases h with
    ⟨_, heq⟩ | ⟨_, _, heq⟩ | ⟨_, hcascade, heq⟩ | ⟨_, _, _, heq⟩
  · exact .inl (by rw [heq])
  · rw [heq, put_of_ne hx]
    by_cases hw : L.Waits x h
    · obtain ⟨st, hst, hon⟩ := hw
      exact .inr ⟨st, h, hst, hon, .inl (resumeOn_of_waits hst hon)⟩
    · exact .inl (resumeOn_of_not_waits hw)
  · rw [heq]
    by_cases hd : x ∈ (L.put h new).doomed h
    · obtain ⟨on, st, hst, hon⟩ := exists_waits_of_doomed hd
      rw [put_of_ne hx] at hst
      refine .inr ⟨st, on, hst, hon, .inr ?_⟩
      rw [failOn_of_doomed hd, put_of_ne hx, hst]
      rfl
    · exact .inl ((failOn_of_not_doomed hd).trans (put_of_ne hx _ _))
  · exact .inl (by rw [heq, put_of_ne hx])

/-- As long as the one it waits on keeps its entry, a paused task keeps its own. -/
theorem merge_keeps_waiting (hw : L.Waits x y)
    (hx : x ≠ h) (hy : y ≠ h) (hsame : L.merge h new y = L y) : L.merge h new x = L x := by
  obtain ⟨st, hst, hon⟩ := hw
  rcases L.merge_cases h with
    ⟨_, heq⟩ | ⟨_, _, heq⟩ | ⟨_, hcascade, heq⟩ | ⟨_, _, _, heq⟩
  · rw [heq]
  · rw [heq, put_of_ne hx, resumeOn_of_not_waits]
    rintro ⟨st', hst', hon'⟩
    rw [hst] at hst'
    cases hst'
    rw [hon] at hon'
    exact hy (Option.some.inj hon')
  · rw [heq] at hsame ⊢
    rw [failOn_of_not_doomed, put_of_ne hx]
    intro hd
    -- The chain from `x` goes through `y`, so `y` would have failed.
    have hyd : y ∈ (L.put h new).doomed h := by
      obtain ⟨z, ⟨st', hst', hon'⟩, hrest⟩ := Relation.TransGen.head'_iff.mp hd
      rw [put_of_ne hx, hst] at hst'
      cases hst'
      rw [hon] at hon'
      cases hon'
      rcases Relation.reflTransGen_iff_eq_or_transGen.mp hrest with heq | hrest
      · exact (hy heq.symm).elim
      · exact hrest
    obtain ⟨_, sty, hsty, hony⟩ := exists_waits_of_doomed hyd
    rw [put_of_ne hy] at hsty
    rw [failOn_of_doomed hyd, put_of_ne hy, hsty] at hsame
    rw [← Option.some.inj hsame] at hony
    cases hony
  · rw [heq, put_of_ne hx]

/-- The chain from a doomed task goes through the one it waits on. -/
theorem Dooms.next {r : TaskHash} (hdooms : L.Dooms S r x)
    (hst : L x = some st) (hon : st.waitsOn = some y) (hlive : ¬L.Fails S y) : L.Dooms S r y := by
  obtain ⟨new, hnew, hwins, hcascade, hd⟩ := hdooms
  refine ⟨new, hnew, hwins, hcascade, ?_⟩
  obtain ⟨z, hw, hrest⟩ := Relation.TransGen.head'_iff.mp hd
  obtain ⟨-, st', hst', hon'⟩ := waits_of_put_failed hcascade hw
  rw [hst] at hst'
  cases hst'
  rw [hon] at hon'
  cases hon'
  rcases Relation.reflTransGen_iff_eq_or_transGen.mp hrest with rfl | hrest
  · exact (hlive ⟨new, hnew, hwins, hcascade⟩).elim
  · exact hrest

/-! ## Runs -/

/-- Merging a list starts with its head. -/
theorem mergeAll_cons {e : TaskHash × TaskState I} :
    L.mergeAll (e :: order) = (L.merge e.1 e.2).mergeAll order := rfl

/-- Merging two lists one after the other. -/
theorem mergeAll_append {order' : List (TaskHash × TaskState I)} :
    L.mergeAll (order ++ order') = (L.mergeAll order).mergeAll order' := foldl_append

/-- A task that is not paused keeps its entry while only smaller ones arrive for it. -/
theorem mergeAll_of_open (hst : L x = some st) (hopen : st.waitsOn = none)
    (hle : ∀ new, (x, new) ∈ order → taskJoinKey new ≤ taskJoinKey st) :
    L.mergeAll order x = some st := by
  induction order generalizing L with
  | nil => exact hst
  | cons e order ih =>
    rw [mergeAll_cons]
    refine ih ?_ fun new h => hle new (mem_cons_of_mem e h)
    obtain ⟨h, new⟩ := e
    by_cases hx : x = h
    · subst hx
      rw [merge_of_not_wins fun hwins => absurd (hwins st hst) (not_lt.mpr (hle new mem_cons_self))]
      exact hst
    · rcases merge_other hx L new with hsame | ⟨st', on, hst', hon, _⟩
      · exact hsame.trans hst
      · rw [hst] at hst'
        cases hst'
        rw [hopen] at hon
        cases hon

/-- What a run does to a task it brings no entry for. -/
theorem mergeAll_other (hx : x ∉ order.map Prod.fst) (L : Ledger I) :
    L.mergeAll order x = L x ∨ ∃ st on, L x = some st ∧ st.waitsOn = some on ∧
      (L.mergeAll order x = some st.resumed ∨ L.mergeAll order x = some st.upstreamFailed) := by
  induction order generalizing L with
  | nil => exact .inl rfl
  | cons e order ih =>
    rw [map_cons, mem_cons, not_or] at hx
    rw [mergeAll_cons]
    have hnone : ∀ new, (x, new) ∉ order := fun new h => hx.2 (mem_map_of_mem h)
    rcases merge_other hx.1 L e.2 with hsame | ⟨st, on, hst, hon, hin | hin⟩
    · have hrest := ih hx.2 (L.merge e.1 e.2)
      rwa [hsame] at hrest
    · refine .inr ⟨st, on, hst, hon, .inl ?_⟩
      exact mergeAll_of_open hin rfl fun new h => (hnone new h).elim
    · refine .inr ⟨st, on, hst, hon, .inr ?_⟩
      exact mergeAll_of_open hin rfl fun new h => (hnone new h).elim

/-- What waits for a task that does not change keeps waiting. -/
theorem mergeAll_keeps_waiting
    (hw : L.Waits x y) (hx : x ∉ order.map Prod.fst) (hy : y ∉ order.map Prod.fst)
    (hsame : L.mergeAll order y = L y) : L.mergeAll order x = L x := by
  induction order generalizing L with
  | nil => rfl
  | cons e order ih =>
    rw [map_cons, mem_cons, not_or] at hx hy
    rw [mergeAll_cons] at hsame ⊢
    -- Had this entry changed `y`, the change would have stayed.
    have hkept : L.merge e.1 e.2 y = L y := by
      have hnone : ∀ new, (y, new) ∉ order := fun new h => hy.2 (mem_map_of_mem h)
      have hmoved : ∀ {st st' : TaskState I} {on}, L y = some st → st.waitsOn = some on →
          L.merge e.1 e.2 y = some st' → st'.waitsOn = none → False := by
        intro st st' on hst hon hin hopen
        rw [mergeAll_of_open hin hopen fun new h => (hnone new h).elim, hst] at hsame
        cases hsame
        rw [hopen] at hon
        cases hon
      rcases merge_other hy.1 L e.2 with h | ⟨st, on, hst, hon, hin | hin⟩
      · exact h
      all_goals exact (hmoved hst hon hin rfl).elim
    have hstep := merge_keeps_waiting hw hx.1 hy.1 hkept
    have hw' : (L.merge e.1 e.2).Waits x y := by
      obtain ⟨st, hst, hon⟩ := hw
      exact ⟨st, hstep.trans hst, hon⟩
    exact (ih hw' hx.2 hy.2 (hsame.trans hkept.symm)).trans hstep

/-- An incoming pause that wins also wins when it is visited last. -/
theorem keyOf_mergeAll_paused_last (hx : x ∉ order.map Prod.fst) (hwins : L.Wins x new)
    (hon : new.waitsOn = some on) :
    (L.mergeAll (order ++ [(x, new)])).keyOf x = some (keyBlocked new.attempt) := by
  have hlast : (L.mergeAll order).Wins x new := by
    intro m hm
    rcases mergeAll_other hx L with hsame | ⟨st, on', hst, hon', hin⟩
    · exact hwins m (hsame ▸ hm)
    · -- A consequence leaves the attempt of the old pause, and that is an earlier one.
      have hattempt := attempt_lt_of_waitsOn hon' hon (hwins st hst)
      refine TaskJoinKey.lt_of_attempt_lt ?_
      rw [taskJoinKey, taskJoinKey, joinKey_attempt, joinKey_attempt]
      rcases hin with hin | hin
      all_goals
        rw [hin] at hm
        cases hm
        exact hattempt
  rw [mergeAll_append]
  change ((L.mergeAll order).merge x new).keyOf x = _
  rw [keyOf, merge_self hlast, Option.map_some, taskJoinKey_of_waitsOn hon]

/-! ## Rearranging an order -/

section Rearrange

omit [DefaultHasher]

variable {others : List (TaskHash × TaskState I)}

/-- The order of an enumeration does not matter. -/
theorem Enumerates.perm {order' : List (TaskHash × TaskState I)} (h : Enumerates S order)
    (hperm : order'.Perm order) : Enumerates S order' where
  nodup := (hperm.map Prod.fst).nodup_iff.mpr h.nodup
  mem := fun x st => hperm.mem_iff.trans (h.mem x st)

/-- Any incoming entry can be visited first. -/
theorem Enumerates.front (h : Enumerates S order) (hnew : S x = some new) :
    ∃ others, Enumerates S ((x, new) :: others) := by
  obtain ⟨before, after, rfl⟩ := append_of_mem ((h.mem x new).mpr hnew)
  exact ⟨before ++ after, h.perm perm_middle.symm⟩

/-- An enumeration names no task twice. -/
theorem Enumerates.not_mem_tail (h : Enumerates S ((x, new) :: others)) :
    x ∉ others.map Prod.fst := (nodup_cons.mp h.nodup).1

/-- Any two incoming entries can be visited first, in either order. -/
theorem Enumerates.front_pair (h : Enumerates S order)
    {new' : TaskState I} (hnew : S x = some new) (hnew' : S y = some new') (hne : x ≠ y) :
    ∃ others, Enumerates S ((x, new) :: (y, new') :: others) := by
  obtain ⟨others, hfront⟩ := h.front hnew
  have hmem : (y, new') ∈ others := by
    rcases mem_cons.mp ((hfront.mem y new').mpr hnew') with heq | hmem
    · exact (hne (congrArg Prod.fst heq).symm).elim
    · exact hmem
  obtain ⟨before, after, rfl⟩ := append_of_mem hmem
  exact ⟨before ++ after, hfront.perm (perm_middle.symm.cons _)⟩

/-- The head of an enumeration may come last. -/
theorem Enumerates.rotate {e : TaskHash × TaskState I}
    (h : Enumerates S (e :: others)) : Enumerates S (others ++ [e]) :=
  h.perm (perm_append_singleton e others)

/-- One incoming entry can be visited first, and that of another task last, if there is one. -/
theorem Enumerates.front_last (h : Enumerates S order) (hnew : S y = some new) (hne : x ≠ y) :
    ∃ others tail, Enumerates S ((y, new) :: (others ++ tail)) ∧ x ∉ others.map Prod.fst ∧
      ∀ e ∈ tail, e.1 = x ∧ tail = [e] := by
  cases hx : S x with
  | none =>
    obtain ⟨others, hfront⟩ := h.front hnew
    refine ⟨others, [], by rwa [append_nil], fun hmem => ?_, fun e he => by cases he⟩
    obtain ⟨e, he, rfl⟩ := mem_map.mp hmem
    have hin := (hfront.mem e.1 e.2).mp (mem_cons_of_mem _ he)
    rw [hx] at hin
    cases hin
  | some newx =>
    obtain ⟨others, hfront⟩ := h.front_pair hx hnew hne
    have hmem := hfront.not_mem_tail
    rw [map_cons, mem_cons, not_or] at hmem
    refine ⟨others, [(x, newx)], hfront.rotate, hmem.2, fun e he => ?_⟩
    rw [mem_singleton.mp he]
    exact ⟨rfl, rfl⟩

end Rearrange

/-! ## Each conflict shows in a key -/

section Conflicts

variable (horder : Enumerates S order)
  (hkeys : ∀ order order', Enumerates S order → Enumerates S order' →
    ∀ x, (L.mergeAll order).keyOf x = (L.mergeAll order').keyOf x)

include hkeys

variable {r : TaskHash} {others : List (TaskHash × TaskState I)}

/-- Visited first and never resumed or failed, or visited last: an incoming pause is kept. -/
theorem keyOf_mergeAll_paused (hwins : L.Wins x new) (hon : new.waitsOn = some on)
    (horder : Enumerates S ((x, new) :: others)) :
    (L.mergeAll ((x, new) :: others)).keyOf x = some (keyBlocked new.attempt) := by
  rw [hkeys _ _ horder horder.rotate]
  exact keyOf_mergeAll_paused_last horder.not_mem_tail hwins hon

/-- After two entries, the second of which ended the pause that the first brought, the pause
is gone for good. -/
theorem pause_not_ended {new' : TaskState I} (hwins : L.Wins x new) (hon : new.waitsOn = some on)
    (horder : Enumerates S ((x, new) :: (y, new') :: others))
    (hst : ((L.put x new).merge y new') x = some st) (hopen : st.waitsOn = none)
    (hkey : taskJoinKey st ≠ keyBlocked new.attempt) : False := by
  have hx := horder.not_mem_tail
  have hend : L.mergeAll ((x, new) :: (y, new') :: others) x = some st := by
    rw [mergeAll_cons, mergeAll_cons, merge_of_paused hwins hon]
    refine mergeAll_of_open hst hopen fun st' h => (hx ?_).elim
    exact mem_cons_of_mem y (mem_map_of_mem h)
  have hkept := keyOf_mergeAll_paused hkeys hwins hon horder
  rw [keyOf, hend, Option.map_some, Option.some.injEq] at hkept
  exact hkey hkept

include horder

/-- A paused winner waits for a task that does not complete. -/
theorem not_completes_of_keys (hnew : S x = some new)
    (hwins : L.Wins x new) (hon : new.waitsOn = some on) : ¬L.Completes S on := by
  rintro ⟨new', hnew', hwins', hfirst⟩
  have hstatus := waitsOn_eq_some.mp hon
  have hne : on ≠ x := by
    rintro rfl
    rw [hnew] at hnew'
    cases hnew'
    rw [hfirst.1] at hstatus
    cases hstatus
  obtain ⟨others, hfront⟩ := horder.front_pair hnew hnew' hne.symm
  have hput := put_of_ne hne L new
  refine pause_not_ended hkeys hwins hon hfront ?_ rfl
    (taskJoinKey_of_waitsOn hon ▸ (taskJoinKey_resumed_lt hon).ne)
  rw [merge_of_firstCompletion (fun st hst => hwins' st (hput ▸ hst))
    ⟨hfirst.1, fun st hst => hfirst.2 st (hput ▸ hst)⟩, put_of_ne hne.symm]
  exact resumeOn_of_waits (put_same L x new) hon

/-- A paused winner is not doomed. -/
theorem not_dooms_of_keys (hnew : S x = some new)
    (hwins : L.Wins x new) (hon : new.waitsOn = some on) : ¬(L.put x new).Dooms S r x := by
  rintro ⟨new', hnew', hwins', hcascade, hd⟩
  have hne : x ≠ r := by
    rintro rfl
    rw [hnew] at hnew'
    cases hnew'
    rw [waitsOn_of_isCascadeTerminal hcascade] at hon
    cases hon
  obtain ⟨others, hfront⟩ := horder.front_pair hnew hnew' hne
  refine pause_not_ended hkeys hwins hon hfront ?_ rfl
    (taskJoinKey_of_waitsOn hon ▸ (taskJoinKey_lt_upstreamFailed hon).ne')
  rw [merge_of_cascade hwins' hcascade, failOn_of_doomed hd, put_of_ne hne, put_same]
  rfl

/-- A resumed task and its restored entry are comparable. -/
theorem resumed_of_keys (hst : L x = some st)
    (hon : st.waitsOn = some on) (hcomplete : L.Completes S on) (hnew : S x = some new) :
    taskJoinKey new ≤ taskJoinKey st.resumed ∨ taskJoinKey st < taskJoinKey new := by
  by_contra hbetween
  rw [not_or, not_le, not_lt] at hbetween
  obtain ⟨hlow, hhigh⟩ := hbetween
  obtain ⟨new', hnew', hwins', hfirst⟩ := hcomplete
  have hne : x ≠ on := by
    rintro rfl
    rw [hnew] at hnew'
    cases hnew'
    exact absurd (hwins' st hst) (not_lt.mpr hhigh)
  have hresume : L.merge on new' x = some st.resumed := by
    rw [merge_of_firstCompletion hwins' hfirst, put_of_ne hne]
    exact resumeOn_of_waits hst hon
  obtain ⟨others, hfront⟩ := horder.front_pair hnew hnew' hne
  have hxs := hfront.not_mem_tail
  rw [map_cons, mem_cons, not_or] at hxs
  have hothers : ∀ e, (x, e) ∉ others := fun e h => hxs.2 (mem_map_of_mem h)
  -- The entry comes first and loses against the pause.
  have hfirstKey : (L.mergeAll ((x, new) :: (on, new') :: others)).keyOf x =
      some (taskJoinKey st.resumed) := by
    rw [mergeAll_cons, mergeAll_cons,
      merge_of_not_wins fun h => absurd (h st hst) (not_lt.mpr hhigh), keyOf,
      mergeAll_of_open hresume rfl fun e h => (hothers e h).elim, Option.map_some]
  -- The entry comes last and wins over the resumed task.
  have hlastKey : (L.mergeAll ((on, new') :: others ++ [(x, new)])).keyOf x =
      some (taskJoinKey new) := by
    have hrest : L.mergeAll ((on, new') :: others) x = some st.resumed := by
      rw [mergeAll_cons]
      exact mergeAll_of_open hresume rfl fun e h => (hothers e h).elim
    have hwins : (L.mergeAll ((on, new') :: others)).Wins x new := by
      intro m hm
      rw [hrest] at hm
      cases hm
      exact hlow
    rw [mergeAll_append]
    change ((L.mergeAll ((on, new') :: others)).merge x new).keyOf x = _
    rw [keyOf, merge_self hwins, Option.map_some]
  have hsame := hkeys _ _ hfront hfront.rotate x
  rw [hfirstKey, hlastKey, Option.some.injEq] at hsame
  exact hlow.ne hsame

section

variable (hdooms : L.Dooms S r x)
include hdooms

variable (hst : L x = some st)
include hst

/-- A doomed task whose entry does not outlast the failure ends as failed. -/
theorem keyOf_mergeAll_of_dooms (hweak : ¬S.Outlasts x st) {order' : List (TaskHash × TaskState I)}
    (horder' : Enumerates S order') :
    (L.mergeAll order').keyOf x = some (taskJoinKey st.upstreamFailed) := by
  obtain ⟨new, hnew, hwins, hcascade, hd⟩ := hdooms
  obtain ⟨others, hfront⟩ := horder.front hnew
  have hne := ne_of_doomed hcascade hd
  have hfailed : L.merge r new x = some st.upstreamFailed := by
    rw [merge_of_cascade hwins hcascade, failOn_of_doomed hd, put_of_ne hne, hst]
    rfl
  rw [hkeys _ _ horder' hfront, mergeAll_cons, keyOf, mergeAll_of_open hfailed rfl, Option.map_some]
  intro e he
  have hin := (hfront.mem x e).mp (mem_cons_of_mem _ he)
  exact (not_le.mp fun hle => hweak ⟨e, hin, hle⟩).le

/-- A task that is taken outlasts its entry. -/
theorem outlasts_of_takes (htakes : L.Takes S x) : S.Outlasts x st := by
  by_contra hweak
  obtain ⟨new, hnew, hwins⟩ := htakes
  obtain ⟨on, st', hst', hon⟩ := hdooms.waits
  rw [hst] at hst'
  cases hst'
  have hlt : taskJoinKey new < taskJoinKey st.upstreamFailed :=
    not_le.mp fun hle => hweak ⟨new, hnew, hle⟩
  -- An entry between the pause and its failure is of the same attempt, and no pause.
  have hopen : new.waitsOn = none := by
    by_contra hpaused
    obtain ⟨on', hon'⟩ := Option.ne_none_iff_exists'.mp hpaused
    have hattempt := attempt_lt_of_waitsOn hon hon' (hwins st hst)
    have hle := TaskJoinKey.attempt_le_of_le hlt.le
    rw [taskJoinKey, taskJoinKey, joinKey_attempt, joinKey_attempt] at hle
    exact absurd hattempt (not_lt.mpr hle)
  obtain ⟨others, hfront⟩ := horder.front hnew
  have hend := keyOf_mergeAll_of_dooms horder hkeys hdooms hst hweak hfront
  rw [mergeAll_cons, keyOf, mergeAll_of_open (merge_self hwins) hopen fun e h =>
    (hfront.not_mem_tail (mem_map_of_mem h)).elim, Option.map_some, Option.some.injEq] at hend
  exact hlt.ne hend

/-- A task that waits for one that is taken and does not fail outlasts its entry. -/
theorem outlasts_of_left (hon : st.waitsOn = some y) (htakes : L.Takes S y)
    (hlive : ¬L.Fails S y) : S.Outlasts x st := by
  by_contra hweak
  have hlose : ∀ new, S x = some new → taskJoinKey new ≤ taskJoinKey st := by
    intro new hnew
    refine not_lt.mp fun hlt => hweak (outlasts_of_takes horder hkeys hdooms hst ⟨new, hnew, ?_⟩)
    intro st' hst'
    rw [hst] at hst'
    cases hst'
    exact hlt
  have hne : x ≠ y := by
    rintro rfl
    exact hweak (outlasts_of_takes horder hkeys hdooms hst htakes)
  obtain ⟨new, hnew, hwins⟩ := htakes
  obtain ⟨others, tail, hfront, hxs, htail⟩ := horder.front_last hnew hne
  have hys := hfront.not_mem_tail
  rw [map_append, mem_append, not_or] at hys
  have hend := keyOf_mergeAll_of_dooms horder hkeys hdooms hst hweak hfront
  have hhigh := taskJoinKey_lt_upstreamFailed hon
  -- However the middle of the run leaves `x`, its own entry does not lift it above the pause.
  have hbelow : ∀ {N : Ledger I} {e : TaskState I}, N x = some e → taskJoinKey e ≤ taskJoinKey st →
      (N.mergeAll tail).keyOf x ≠ some (taskJoinKey st.upstreamFailed) := by
    intro N e he hle hkey
    have hshort : ∀ {m : TaskState I}, taskJoinKey m ≤ taskJoinKey st →
        some (taskJoinKey m) ≠ some (taskJoinKey st.upstreamFailed) := fun hm h =>
      absurd (Option.some.inj h ▸ hm) (not_le.mpr hhigh)
    cases htl : tail with
    | nil =>
      rw [htl] at hkey
      change N.keyOf x = _ at hkey
      rw [keyOf, he] at hkey
      exact hshort hle hkey
    | cons last =>
      obtain ⟨z, newx⟩ := last
      obtain ⟨hzx, hone⟩ := htail (z, newx) (htl ▸ mem_cons_self)
      obtain rfl : z = x := hzx
      have hnewx : S z = some newx := (hfront.mem z newx).mp
        (mem_cons_of_mem _ (mem_append_right _ (htl ▸ mem_cons_self)))
      rw [hone] at hkey
      change (N.merge z newx).keyOf z = _ at hkey
      by_cases hw : N.Wins z newx
      · rw [keyOf, merge_self hw] at hkey
        exact hshort (hlose newx hnewx) hkey
      · rw [merge_of_not_wins hw, keyOf, he] at hkey
        exact hshort hle hkey
  rw [mergeAll_cons, mergeAll_append] at hend
  obtain ⟨_, sty, hsty, hony⟩ := (hdooms.next hst hon hlive).waits
  by_cases hdone : new.status = .completed
  · -- The one it waits on completes, so `x` is resumed.
    have hfirst : L.FirstCompletion y new := by
      refine ⟨hdone, fun e he hcompleted => ?_⟩
      rw [hsty] at he
      cases he
      rw [waitsOn_eq_some.mp hony] at hcompleted
      cases hcompleted
    have hresume : L.merge y new x = some st.resumed := by
      rw [merge_of_firstCompletion hwins hfirst, put_of_ne hne]
      exact resumeOn_of_waits hst hon
    have hmiddle := mergeAll_of_open hresume rfl fun e h => (hxs (mem_map_of_mem h)).elim
    exact hbelow hmiddle (taskJoinKey_resumed_lt hon).le hend
  · -- It moves to an entry that tells nobody.
    have hquiet : new.status.isCascadeTerminal = false :=
      Bool.eq_false_iff.mpr fun h => hlive ⟨new, hnew, hwins, h⟩
    have hput : L.merge y new = L.put y new := by
      rw [merge, if_pos hwins, if_neg fun h => hdone h.1, if_neg (by rw [hquiet]; decide)]
    rw [hput] at hend
    have hput_x : L.put y new x = some st := (put_of_ne hne _ _).trans hst
    rcases mergeAll_other hys.1 (L.put y new) with hsame | ⟨st', on', hst', hon', hin⟩
    · have hmiddle := mergeAll_keeps_waiting ⟨st, hput_x, hon⟩ hxs hys.1 hsame
      exact hbelow (hmiddle.trans hput_x) le_rfl hend
    · -- Or to a pause, and then some other entry ended that pause.
      rw [put_same] at hst'
      cases hst'
      have hkept := keyOf_mergeAll_paused hkeys hwins hon' hfront
      rw [mergeAll_cons, mergeAll_append, hput] at hkept
      have htailOpen : ∀ {e : TaskState I},
          ((L.put y new).mergeAll others) y = some e → e.waitsOn = none →
          taskJoinKey e ≠ keyBlocked new.attempt → False := by
        intro e he hopen hkey
        rw [keyOf, mergeAll_of_open he hopen fun e' h => (hys.2 (mem_map_of_mem h)).elim,
          Option.map_some, Option.some.injEq] at hkept
        exact hkey hkept
      rcases hin with hin | hin
      · exact htailOpen hin rfl (taskJoinKey_of_waitsOn hon' ▸ (taskJoinKey_resumed_lt hon').ne)
      · exact htailOpen hin rfl (taskJoinKey_of_waitsOn hon' ▸
          (taskJoinKey_lt_upstreamFailed hon').ne')

end

/-- **Every conflict shows.** -/
theorem orderFree_of_keys : L.OrderFree S where
  paused := fun _ _ _ hnew hwins hon =>
    ⟨not_completes_of_keys horder hkeys hnew hwins hon,
      fun _ => not_dooms_of_keys horder hkeys hnew hwins hon⟩
  resumed := fun _ _ _ _ hst hon hcomplete hnew =>
    resumed_of_keys horder hkeys hst hon hcomplete hnew
  doomed := fun r x st hdooms hst hleft => by
    rcases hleft with htakes | ⟨on, hon, htakes, hlive⟩
    · exact outlasts_of_takes horder hkeys hdooms hst htakes
    · exact outlasts_of_left horder hkeys hdooms hst hon htakes hlive

end Conflicts

/-- **A finite set of entries merges alike exactly when no two of them conflict.** -/
theorem mergesAlike_iff (horder : Enumerates S order) : MergesAlike L S ↔ L.OrderFree S :=
  ⟨fun h => orderFree_of_keys horder h.keys, OrderFree.mergesAlike⟩

end Ledger

/-- The task entries of a snapshot, as a ledger. -/
def ClusterStateSnapshot.ledger (snap : ClusterStateSnapshot I) : Ledger I := fun h =>
  snap.tasks.lookup h

omit [DefaultHasher] in
/-- The iteration orders of the task map. -/
theorem ClusterStateSnapshot.enumerates_iff (snap : ClusterStateSnapshot I)
    {order : List (TaskHash × TaskState I)} :
    Ledger.Enumerates snap.ledger order ↔ order.Perm snap.taskEntries := by
  have hentries : Ledger.Enumerates snap.ledger snap.taskEntries := by
    refine ⟨?_, fun x st => ?_⟩
    · have hkeys : snap.taskEntries.map Prod.fst = snap.tasks.keys := by
        rw [taskEntries, map_map]
        rfl
      rw [hkeys]
      exact snap.tasks.keys_nodup
    · rw [ledger, ← HashMap.mem_entries_iff, taskEntries, mem_map]
      constructor
      · rintro ⟨e, he, heq⟩
        cases heq
        exact he
      · intro he
        exact ⟨_, he, rfl⟩
  refine ⟨fun h => ?_, hentries.perm⟩
  refine (perm_ext_iff_of_nodup (.of_map _ h.nodup) (.of_map _ hentries.nodup)).mpr ?_
  rintro ⟨x, st⟩
  rw [h.mem, hentries.mem]

namespace ClusterState

variable [RecordCodec I]

variable {order : List (TaskHash × TaskState I)}

/-- On the ledger, restoring entries is merging them. -/
theorem logical_foldl_restoreEntry {outputs : HashMap TaskHash TaskOutputs}
    (acc : ClusterState I × List (TaskInfo I)) (hs : acc.1.Consistent) (hlegible : acc.1.Legible) :
    (order.foldl (restoreEntry outputs) acc).1.logical = acc.1.logical.mergeAll order := by
  induction order generalizing acc with
  | nil => rfl
  | cons e order ih =>
    have hsteps := restoreEntry_steps outputs acc e
    have hsame := (registerRestoredDef_same acc.1 e.1 e.2.definition).sameLedger
    have hstep : (restoreEntry outputs acc e).1.logical = acc.1.logical.merge e.1 e.2 := by
      exact logical_mergeTaskState (hs.congr hsame) (hlegible.steps hsame.steps) e.1 e.2
    rw [foldl_cons, ih _ (hs.steps hlegible.keeps hsteps) (hlegible.steps hsteps), hstep]
    rfl

/-- A restore merges the entries of the snapshot into the logical ledger. -/
theorem logical_restoreInOrder {s : ClusterState I} (hs : s.Consistent) (hlegible : s.Legible)
    {snap : ClusterStateSnapshot I} :
    (s.restoreInOrder snap order).1.logical = s.logical.mergeAll order := by
  have hsame := (resumeDefAllocFloor_same s).sameLedger
  rw [(restoreInOrder_sameLedger).logical, restoreTasks,
    logical_foldl_restoreEntry _ (hs.congr hsame) (hlegible.steps hsame.steps), hsame.logical]

/-- **When a restore is deterministic and idempotent.** The join keys do not depend on the
order in which the snapshot's task map is iterated, and a second restore changes no entry,
exactly when no two of its entries conflict on this node. -/
theorem restore_deterministic_iff {s : ClusterState I} (hs : s.Consistent)
    (hlegible : s.Legible) (snap : ClusterStateSnapshot I) :
    ((∀ order order', order.Perm snap.taskEntries → order'.Perm snap.taskEntries → ∀ h,
        (s.restoreInOrder snap order).1.joinKeyOf h =
          (s.restoreInOrder snap order').1.joinKeyOf h) ∧
      ∀ order order', order.Perm snap.taskEntries → order'.Perm snap.taskEntries → ∀ h,
        ((s.restoreInOrder snap order).1.restoreInOrder snap order').1.logical h =
          (s.restoreInOrder snap order).1.logical h) ↔
      s.logical.OrderFree snap.ledger := by
  have hafter : ∀ order, (s.restoreInOrder snap order).1.Consistent ∧
      (s.restoreInOrder snap order).1.Legible := fun order =>
    ⟨hs.steps hlegible.keeps (restoreInOrder_steps s snap order),
      hlegible.steps (restoreInOrder_steps s snap order)⟩
  have hkey : ∀ order h, (s.restoreInOrder snap order).1.joinKeyOf h =
      (s.logical.mergeAll order).keyOf h := by
    intro order h
    rw [joinKeyOf_eq (hafter order).1 (hafter order).2, logical_restoreInOrder hs hlegible]
  rw [← Ledger.mergesAlike_iff ((snap.enumerates_iff).mpr (.refl _))]
  constructor
  · rintro ⟨hkeys, hagain⟩
    refine ⟨fun order order' horder horder' h => ?_, fun order order' horder horder' => ?_⟩
    · rw [← hkey, ← hkey]
      exact hkeys order order' ((snap.enumerates_iff).mp horder)
        ((snap.enumerates_iff).mp horder') h
    · funext h
      have hsame := hagain order order' ((snap.enumerates_iff).mp horder)
        ((snap.enumerates_iff).mp horder') h
      rwa [logical_restoreInOrder (hafter order).1 (hafter order).2,
        logical_restoreInOrder hs hlegible] at hsame
  · rintro ⟨hkeys, hagain⟩
    refine ⟨fun order order' horder horder' h => ?_, fun order order' horder horder' h => ?_⟩
    · rw [hkey, hkey]
      exact hkeys order order' ((snap.enumerates_iff).mpr horder)
        ((snap.enumerates_iff).mpr horder') h
    · rw [logical_restoreInOrder (hafter order).1 (hafter order).2,
        logical_restoreInOrder hs hlegible, hagain order order'
          ((snap.enumerates_iff).mpr horder) ((snap.enumerates_iff).mpr horder')]

end ClusterState

end Restore

namespace Sample

/-- A peer that knows the prerequisite of `pausedPair` only, and has seen it complete. -/
def prerequisiteDone : ClusterState String := empty.applyAll
  [.taskAdded "s" (task "s" []) none, .taskCompleted "s" none 0]

/-- A snapshot that completes the prerequisite and says nothing about the paused task does not
conflict with the pause. -/
theorem prerequisiteDone_restores_alike :
    (∀ order order', order.Perm prerequisiteDone.snapshot.taskEntries →
      order'.Perm prerequisiteDone.snapshot.taskEntries → ∀ h,
        (pausedPair.restoreInOrder prerequisiteDone.snapshot order).1.joinKeyOf h =
          (pausedPair.restoreInOrder prerequisiteDone.snapshot order').1.joinKeyOf h) ∧
    ∀ order order', order.Perm prerequisiteDone.snapshot.taskEntries →
      order'.Perm prerequisiteDone.snapshot.taskEntries → ∀ h,
        ((pausedPair.restoreInOrder prerequisiteDone.snapshot order).1.restoreInOrder
            prerequisiteDone.snapshot order').1.logical h =
          (pausedPair.restoreInOrder prerequisiteDone.snapshot order).1.logical h := by
  have hreach : Reachable (fun _ => True) pausedPair := .apply _ (.apply _ (.apply _ .new))
  have honly : ∀ {x new}, prerequisiteDone.snapshot.ledger x = some new →
      x = "s" ∧ new.status = .completed := by
    intro x new hnew
    have hmem := HashMap.mem_entries_iff.mpr hnew
    cases mem_singleton.mp hmem
    exact ⟨rfl, rfl⟩
  refine (restore_deterministic_iff (hreach.consistent skippingCodec_keepsState)
    (legible_of_roundTrips skippingCodec_roundTrips pausedPair)
    prerequisiteDone.snapshot).mpr ⟨fun x new on hnew _ hon => ?_,
      fun x st on new hst hon _ hnew => ?_,
      fun r x st hdooms => ?_⟩
  · rw [waitsOn_eq_some, (honly hnew).2] at hon
    cases hon
  · obtain ⟨rfl, _⟩ := honly hnew
    cases hst
    cases hon
  · obtain ⟨new, hnew, _, hcascade, _⟩ := hdooms
    rw [(honly hnew).2] at hcascade
    cases hcascade

/-- The peer of `pausedPair` on which the prerequisite has completed, and the task that was
paused on it has been resumed and assigned. -/
def resumedAndAssigned : ClusterState String := pausedPair.applyAll
  [.taskCompleted "s" none 0, .taskAssigned "d" "s1" 3 ⟨1, 1⟩ 0]

/-- Visited before the completion, the assignment loses against the pause; visited after it,
the assignment wins over the resumed task. After the first order a second restore still changes
the task. -/
theorem assignment_lost_in_one_order :
    ClusterState.Replica pausedPair ∧ ClusterState.Replica resumedAndAssigned ∧
      (∃ order order', order.Perm resumedAndAssigned.snapshot.taskEntries ∧
        order'.Perm resumedAndAssigned.snapshot.taskEntries ∧
        (pausedPair.restoreInOrder resumedAndAssigned.snapshot order).1.joinKeyOf "d" =
            some (keyPending 0 .default) ∧
          (pausedPair.restoreInOrder resumedAndAssigned.snapshot order').1.joinKeyOf "d" =
            some (keyInFlight 0 ⟨1, 1⟩)) ∧
      ∃ order, order.Perm resumedAndAssigned.snapshot.taskEntries ∧
        ((pausedPair.restoreInOrder resumedAndAssigned.snapshot order).1.logical "d").map
            (·.status) = some (.pending .default) ∧
          (((pausedPair.restoreInOrder resumedAndAssigned.snapshot order).1.restoreInOrder
              resumedAndAssigned.snapshot order).1.logical "d").map (·.status) =
            some (.inFlight "s1" 3 ⟨1, 1⟩) := by
  have hpair : ClusterState.Replica pausedPair := .apply _ (.apply _ (.apply _ .new))
  refine ⟨hpair, .apply _ (.apply _ hpair), ?_, ?_⟩
  · exact ⟨resumedAndAssigned.snapshot.taskEntries, resumedAndAssigned.snapshot.taskEntries.reverse,
      .refl _, reverse_perm _, by decide, by decide⟩
  · exact ⟨resumedAndAssigned.snapshot.taskEntries, .refl _, by decide, by decide⟩

end Sample

end DynRunner
