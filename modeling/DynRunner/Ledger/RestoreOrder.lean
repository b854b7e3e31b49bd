import DynRunner.Ledger.Spawn

/-!
# Restoring a snapshot in any order

The merge of one entry may resume or fail tasks that are paused on it, so the order in which
the entries of a snapshot are visited can matter. This file states what must not meet in one
restore (`OrderFree`) and shows that without it every order gives the same keys, and that a
second restore changes nothing.

The argument follows the entries that have been visited. At every point each task holds its
own entry, the incoming one, or what a resume or a cascade of the visited entries made of it.
-/

namespace DynRunner

open ClusterState TaskState Set List

variable {I : Type} [DefaultHasher] {st : TaskState I} {on : TaskHash}

/-- The key of a waiting entry. -/
theorem taskJoinKey_of_waitsOn (h : st.waitsOn = some on) :
    taskJoinKey st = keyBlocked st.attempt := by
  rw [taskJoinKey, waitsOn_eq_some.mp h]
  rfl

/-- A resumed task has a smaller key than the paused one. -/
theorem taskJoinKey_resumed_lt (h : st.waitsOn = some on) :
    taskJoinKey st.resumed < taskJoinKey st := by
  rw [taskJoinKey_of_waitsOn h]
  exact TaskJoinKey.lt_of_band_lt rfl Nat.zero_lt_one

namespace Ledger

/-- Merge the entries of a list, one after the other. -/
noncomputable def mergeAll (L : Ledger I) (order : List (TaskHash × TaskState I)) : Ledger I :=
  order.foldl (fun L e => L.merge e.1 e.2) L

section Conflict

variable (L S : Ledger I)

/-- The incoming entry of a task wins over the one that is there. -/
def Takes (x : TaskHash) : Prop := ∃ new, S x = some new ∧ L.Wins x new

/-- The incoming entries complete a task. -/
def Completes (x : TaskHash) : Prop :=
  ∃ new, S x = some new ∧ L.Wins x new ∧ L.FirstCompletion x new

/-- The incoming entries fail a task for good. -/
def Fails (x : TaskHash) : Prop :=
  ∃ new, S x = some new ∧ L.Wins x new ∧ new.status.isCascadeTerminal = true

/-- The incoming failure of `r` fails `x` with it. -/
def Dooms (r x : TaskHash) : Prop :=
  ∃ new, S r = some new ∧ L.Wins r new ∧ new.status.isCascadeTerminal = true ∧
    x ∈ (L.put r new).doomed r

/-- The incoming entry of a task is at least what a cascade would make of it. -/
def Outlasts (x : TaskHash) (st : TaskState I) : Prop :=
  ∃ new, S x = some new ∧ taskJoinKey st.upstreamFailed ≤ taskJoinKey new

/-- **What must not meet in one restore.** An incoming pause that wins must not wait on
something the same snapshot completes or fails. A task that the snapshot resumes must not have
an incoming entry between its resumed and its paused key. A task that the snapshot dooms must
outlast its failure when its own entry wins, or when the one it waits on leaves the chain
without failing. -/
structure OrderFree : Prop where
  paused : ∀ x new on, S x = some new → L.Wins x new → new.waitsOn = some on →
    ¬L.Completes S on ∧ ∀ r, ¬(L.put x new).Dooms S r x
  resumed : ∀ x st on new, L x = some st → st.waitsOn = some on → L.Completes S on →
    S x = some new → taskJoinKey new ≤ taskJoinKey st.resumed ∨ taskJoinKey st < taskJoinKey new
  doomed : ∀ r x st, L.Dooms S r x → L x = some st →
    (L.Takes S x ∨ ∃ on, st.waitsOn = some on ∧ L.Takes S on ∧ ¬L.Fails S on) → S.Outlasts x st

end Conflict

variable {L S M : Ledger I} {x r : TaskHash} {new : TaskState I}

/-- A completion is taken. -/
theorem Completes.takes (h : L.Completes S x) : L.Takes S x := h.imp fun _ h => ⟨h.1, h.2.1⟩

/-- A failure is taken. -/
theorem Fails.takes (h : L.Fails S x) : L.Takes S x := h.imp fun _ h => ⟨h.1, h.2.1⟩

/-- What completes does not fail. -/
theorem Completes.not_fails (h : L.Completes S x) : ¬L.Fails S x := by
  rintro ⟨new, hnew, _, hcascade⟩
  obtain ⟨new', hnew', _, hdone, _⟩ := h
  rw [hnew] at hnew'
  cases hnew'
  rw [hdone] at hcascade
  cases hcascade

omit [DefaultHasher] in
/-- A task that has failed waits on nothing, and the others wait as before. -/
theorem waits_of_put_failed {y : TaskHash}
    (hcascade : new.status.isCascadeTerminal = true) (h : (L.put r new).Waits x y) :
    x ≠ r ∧ L.Waits x y := by
  obtain ⟨st, hst, hon⟩ := h
  rw [put_apply] at hst
  split at hst
  · cases hst
    rw [waitsOn_of_isCascadeTerminal hcascade] at hon
    cases hon
  · rename_i hne
    exact ⟨hne, st, hst, hon⟩

omit [DefaultHasher] in
/-- A failure does not doom its own task. -/
theorem ne_of_doomed
    (hcascade : new.status.isCascadeTerminal = true) (h : x ∈ (L.put r new).doomed r) : x ≠ r := by
  obtain ⟨_, hw⟩ := exists_waits_of_doomed h
  exact (waits_of_put_failed hcascade hw).1

/-- A doomed task is paused. -/
theorem Dooms.waits (h : L.Dooms S r x) : ∃ on, L.Waits x on := by
  obtain ⟨new, _, _, hcascade, hx⟩ := h
  obtain ⟨on, hw⟩ := exists_waits_of_doomed hx
  exact ⟨on, (waits_of_put_failed hcascade hw).2⟩

/-- What outlasts the failure of a paused task wins over its pause. -/
theorem Outlasts.takes (h : S.Outlasts x st)
    (hst : L x = some st) (hon : st.waitsOn = some on) : L.Takes S x := by
  obtain ⟨new, hnew, hle⟩ := h
  refine ⟨new, hnew, fun st' hst' => ?_⟩
  rw [hst] at hst'
  cases hst'
  exact lt_of_lt_of_le (taskJoinKey_lt_upstreamFailed hon) hle

/-- **The state of a restore that has visited the entries of `P`.** -/
structure Progress (L S : Ledger I) (P : Set TaskHash) (M : Ledger I) : Prop where
  /-- A visited entry that wins is stored, or equals in key the failure that is there. -/
  merged : ∀ x new, x ∈ P → S x = some new → L.Wins x new → M x = some new ∨
    ∃ st, L x = some st ∧ (∃ r, L.Dooms S r x) ∧ M x = some st.upstreamFailed ∧
      taskJoinKey new = taskJoinKey st.upstreamFailed
  /-- A task that was not paused keeps its entry until then. -/
  free : ∀ x, ¬(x ∈ P ∧ L.Takes S x) → (∀ y, ¬L.Waits x y) → M x = L x
  /-- A paused task is resumed by a visited completion. -/
  waiting : ∀ x st on, ¬(x ∈ P ∧ L.Takes S x) → L x = some st → st.waitsOn = some on →
    (∀ r, ¬L.Dooms S r x) →
    (on ∈ P ∧ L.Completes S on → M x = some st.resumed) ∧
      (¬(on ∈ P ∧ L.Completes S on) → M x = some st)
  /-- A doomed task is where it was, or has failed; it may be resumed only if it outlasts both. -/
  doomed : ∀ x st, ¬(x ∈ P ∧ L.Takes S x) → L x = some st → (∃ r, L.Dooms S r x) →
    M x = some st ∨ M x = some st.upstreamFailed ∨ (M x = some st.resumed ∧ S.Outlasts x st)
  /-- Nothing is left waiting on a failure that has been seen. -/
  closed : ∀ x y, L.Waits x y → M x = L x →
    (y ∈ P → ¬L.Fails S y) ∧ ¬((∃ r, L.Dooms S r y) ∧ M y = (L y).map upstreamFailed)

/-- Before the first entry. -/
theorem Progress.start (L S : Ledger I) : Progress L S ∅ L where
  merged := fun _ _ h => h.elim
  free := fun _ _ _ => rfl
  waiting := fun _ _ _ _ hst _ _ => ⟨fun h => h.1.elim, fun _ => hst⟩
  doomed := fun _ _ _ hst _ => .inl hst
  closed := by
    refine fun x y _ _ => ⟨fun h => h.elim, fun ⟨⟨r, hdooms⟩, hsame⟩ => ?_⟩
    obtain ⟨on, st, hst, hon⟩ := hdooms.waits
    rw [hst] at hsame
    have hfailed : st = st.upstreamFailed := Option.some.inj hsame
    rw [hfailed] at hon
    cases hon

section Step

variable {P : Set TaskHash} {y : TaskHash}

section

variable (hM : Progress L S P M)
include hM

/-- A task that holds its paused entry has not been merged. -/
theorem Progress.not_merged (hw : L.Waits x y) (hsame : M x = L x) : ¬(x ∈ P ∧ L.Takes S x) := by
  rintro ⟨hx, new, hnew, hwins⟩
  obtain ⟨st, hst, hon⟩ := hw
  rcases hM.merged x new hx hnew hwins with hin | ⟨st', _, _, hin, _⟩
  · rw [hsame, hst] at hin
    cases hin
    exact absurd (hwins new hst) (lt_irrefl _)
  · rw [hsame, hst] at hin
    cases hin
    cases hon

/-- A task whose own entry has not been merged holds what it held, or what a resume or a cascade
made of it. -/
theorem Progress.unmerged (hmerged : ¬(x ∈ P ∧ L.Takes S x)) :
    M x = L x ∨ ∃ st on, L x = some st ∧ st.waitsOn = some on ∧
      ((L.Completes S on ∧ M x = some st.resumed) ∨ (∃ r, L.Dooms S r x) ∧
        (M x = some st.upstreamFailed ∨ M x = some st.resumed ∧ S.Outlasts x st)) := by
  by_cases hopen : ∀ z, ¬L.Waits x z
  · exact .inl (hM.free x hmerged hopen)
  · obtain ⟨on, st, hst, hon⟩ := not_forall_not.mp hopen
    by_cases hdoomed : ∃ r, L.Dooms S r x
    · rcases hM.doomed x st hmerged hst hdoomed with hin | hin
      · exact .inl (hin.trans hst.symm)
      · exact .inr ⟨st, on, hst, hon, .inr ⟨hdoomed, hin⟩⟩
    · obtain ⟨hyes, hno⟩ := hM.waiting x st on hmerged hst hon (not_exists.mp hdoomed)
      by_cases hcomplete : on ∈ P ∧ L.Completes S on
      · exact .inr ⟨st, on, hst, hon, .inl ⟨hcomplete.2, hyes hcomplete⟩⟩
      · exact .inl ((hno hcomplete).trans hst.symm)

/-- An edge of the current ledger is an old one, or comes with an incoming pause. -/
theorem Progress.waits_cases {z : TaskHash} (hw : M.Waits x z) :
    (M x = L x ∧ L.Waits x z) ∨ ∃ new, S x = some new ∧ x ∈ P ∧ L.Wins x new ∧
      M x = some new ∧ new.waitsOn = some z := by
  obtain ⟨e, he, hon⟩ := hw
  by_cases hmerged : x ∈ P ∧ L.Takes S x
  · obtain ⟨hx, new, hnew, hwins⟩ := hmerged
    rcases hM.merged x new hx hnew hwins with hin | ⟨st, _, _, hin, _⟩
    · rw [he] at hin
      cases hin
      exact .inr ⟨e, hnew, hx, hwins, he, hon⟩
    · rw [he] at hin
      cases hin
      cases hon
  · left
    rcases hM.unmerged hmerged with hsame | ⟨st, _, _, _, hin⟩
    · exact ⟨hsame, e, hsame ▸ he, hon⟩
    · -- A resumed or failed entry is not paused.
      rcases hin with ⟨_, hin⟩ | ⟨_, hin | ⟨hin, _⟩⟩
      all_goals
        rw [he] at hin
        cases hin
        cases hon

/-- Whether a completion is the first is not decided by other tasks. -/
theorem Progress.firstCompletion (hy : y ∉ P) :
    M.FirstCompletion y new ↔ L.FirstCompletion y new := by
  unfold FirstCompletion
  rcases hM.unmerged fun h => hy h.1 with hsame | ⟨st, on, hst, hon, hin⟩
  · rw [hsame]
  · have hstatus := waitsOn_eq_some.mp hon
    rcases hin with ⟨_, hin⟩ | ⟨_, hin | ⟨hin, _⟩⟩ <;> simp [hin, hst, hstatus,
      resumed, upstreamFailed]

omit hM in
/-- **Whether an unvisited entry wins does not depend on what was visited**, except that it may
only equal the failure that a cascade has already put in its place. -/
theorem Progress.wins (hfree : L.OrderFree S) (hM : Progress L S P M) (hy : y ∉ P)
    (hnew : S y = some new) : (M.Wins y new ∧ L.Wins y new) ∨ (¬M.Wins y new ∧ (¬L.Wins y new ∨
      ∃ st, L y = some st ∧ (∃ r, L.Dooms S r y) ∧ M y = some st.upstreamFailed ∧
        taskJoinKey new = taskJoinKey st.upstreamFailed)) := by
  rcases hM.unmerged fun h => hy h.1 with hsame | ⟨st, on, hst, hon, hin⟩
  · have hiff : M.Wins y new ↔ L.Wins y new := by rw [Wins, Wins, hsame]
    by_cases hwins : L.Wins y new
    · exact .inl ⟨hiff.mpr hwins, hwins⟩
    · exact .inr ⟨fun h => hwins (hiff.mp h), .inl hwins⟩
  · have hL : L.Wins y new ↔ taskJoinKey st < taskJoinKey new := by simp [Wins, hst]
    have hMwins : ∀ {m : TaskState I}, M y = some m →
        (M.Wins y new ↔ taskJoinKey m < taskJoinKey new) := by
      intro m hm
      simp [Wins, hm]
    have hlow := taskJoinKey_resumed_lt hon
    have hhigh := taskJoinKey_lt_upstreamFailed hon
    rcases hin with ⟨hcomplete, hin⟩ | ⟨⟨r, hdooms⟩, hin⟩
    · -- The incoming key is not between the resumed and the paused one.
      rcases hfree.resumed y st on new hst hon hcomplete hnew with hle | hlt
      · refine .inr ⟨fun h => absurd ((hMwins hin).mp h) (not_lt.mpr hle), .inl fun h => ?_⟩
        exact absurd (hL.mp h) (not_lt.mpr (hle.trans hlow.le))
      · exact .inl ⟨(hMwins hin).mpr (hlow.trans hlt), hL.mpr hlt⟩
    · by_cases hwins : L.Wins y new
      · -- The entry outlasts the cascade, so it wins unless it equals the failure.
        obtain ⟨new', hnew', hle⟩ := hfree.doomed r y st hdooms hst (.inl ⟨new, hnew, hwins⟩)
        rw [hnew] at hnew'
        cases hnew'
        rcases hin with hin | ⟨hin, _⟩
        · rcases hle.lt_or_eq with hlt | heq
          · exact .inl ⟨(hMwins hin).mpr hlt, hwins⟩
          · refine .inr ⟨fun h => ?_, .inr ⟨st, hst, ⟨r, hdooms⟩, hin, heq.symm⟩⟩
            exact absurd ((hMwins hin).mp h) (not_lt.mpr heq.symm.le)
        · exact .inl ⟨(hMwins hin).mpr (hlow.trans (hL.mp hwins)), hwins⟩
      · refine .inr ⟨fun h => ?_, .inl hwins⟩
        have hle := not_lt.mp fun h => hwins (hL.mpr h)
        rcases hin with hin | ⟨_, hout⟩
        · exact absurd ((hMwins hin).mp h) (not_lt.mpr (hle.trans hhigh.le))
        · obtain ⟨new', hnew', hwins'⟩ := hout.takes hst hon
          rw [hnew] at hnew'
          cases hnew'
          exact hwins hwins'

omit hM in
/-- **A cascade runs along old edges only**: whatever fails with `y` in the current ledger still
holds its entry, and fails with `y` in the ledger before the restore. -/
theorem Progress.doomed_old (hfree : L.OrderFree S) (hM : Progress L S P M)
    (hnew : S y = some new) (hwins : L.Wins y new) (hcascade : new.status.isCascadeTerminal = true)
    (hx : x ∈ (M.put y new).doomed y) : M x = L x ∧ x ∈ (L.put y new).doomed y := by
  have hput : ∀ {N : Ledger I} {a b : TaskHash}, a ≠ y → N.Waits a b → (N.put y new).Waits a b := by
    rintro N a b hne ⟨e, he, hon⟩
    exact ⟨e, (put_of_ne hne N new).trans he, hon⟩
  -- An incoming pause on the way to `y` would be one that the failure of `y` dooms.
  have hold : ∀ {a b : TaskHash}, (M.put y new).Waits a b →
      (b = y ∨ Relation.TransGen (fun c d => (L.put y new).Waits c d ∧ M c = L c) b y) →
      (L.put y new).Waits a b ∧ M a = L a := by
    intro a b hab hb
    obtain ⟨hne, hw⟩ := waits_of_put_failed hcascade hab
    rcases hM.waits_cases hw with ⟨hsame, hwL⟩ | ⟨newa, hnewa, _, hwinsa, hina, hona⟩
    · exact ⟨hput hne hwL, hsame⟩
    · exfalso
      have hmoved : M a ≠ L a := by
        intro hsame
        rw [hina] at hsame
        exact absurd (hwinsa newa hsame.symm) (lt_irrefl _)
      refine (hfree.paused a newa b hnewa hwinsa hona).2 y ⟨new, hnew, ?_, hcascade, ?_⟩
      · intro st hst
        rw [put_of_ne hne.symm] at hst
        exact hwins st hst
      · have hab' : ((L.put a newa).put y new).Waits a b := hput hne ⟨newa, put_same L a newa, hona⟩
        rcases hb with rfl | hb
        · exact Board.mem_doomed_of_waits waitsOn hab'
        · refine Board.mem_doomed_of_waits_doomed waitsOn hab' (hb.lift id ?_)
          rintro c d ⟨hcd, hsame⟩
          obtain ⟨hcy, e, he, hond⟩ := waits_of_put_failed hcascade hcd
          have hca : c ≠ a := by
            rintro rfl
            exact hmoved hsame
          exact hput hcy ⟨e, (put_of_ne hca L newa).trans he, hond⟩
  have hchain : Relation.TransGen (fun c d => (L.put y new).Waits c d ∧ M c = L c) x y := by
    induction hx using Relation.TransGen.head_induction_on with
    | single hab => exact .single (hold hab (.inl rfl))
    | head hab _ ih => exact .head (hold hab (.inr ih)) ih
  refine ⟨?_, hchain.lift id fun _ _ h => h.1⟩
  obtain ⟨_, hfirst, _⟩ := Relation.TransGen.head'_iff.mp hchain
  exact hfirst.2

/-- Visiting an entry that does not win. -/
theorem Progress.lose (hnew : S y = some new) (hlose : ¬L.Wins y new ∨
      ∃ st, L y = some st ∧ (∃ r, L.Dooms S r y) ∧ M y = some st.upstreamFailed ∧
        taskJoinKey new = taskJoinKey st.upstreamFailed) : Progress L S (insert y P) M := by
  have hold : ∀ {x}, ¬(x ∈ insert y P ∧ L.Takes S x) → ¬(x ∈ P ∧ L.Takes S x) := fun h hx =>
    h ⟨mem_insert_of_mem y hx.1, hx.2⟩
  -- A completion has another terminal rank than a failure, so the entry does not complete.
  have hcomplete : ¬L.Completes S y := by
    rintro ⟨new', hnew', hwins, hdone, _⟩
    rw [hnew] at hnew'
    cases hnew'
    rcases hlose with hlose | ⟨st, _, _, _, hkey⟩
    · exact hlose hwins
    · rw [taskJoinKey, hdone] at hkey
      cases congrArg TaskJoinKey.terminalRank hkey
  refine ⟨fun x newx hx hnewx hwins => ?_, fun x hx => hM.free x (hold hx), ?_,
    fun x st hx => hM.doomed x st (hold hx), fun x z hw hsame => ?_⟩
  · rcases mem_insert_iff.mp hx with rfl | hx
    · rw [hnew] at hnewx
      cases hnewx
      exact .inr (hlose.resolve_left fun h => h hwins)
    · exact hM.merged x newx hx hnewx hwins
  · intro x st on hx hst hon hdoomed
    obtain ⟨hyes, hno⟩ := hM.waiting x st on (hold hx) hst hon hdoomed
    refine ⟨fun h => hyes ⟨h.1.resolve_left ?_, h.2⟩, fun h => hno fun h' =>
      h ⟨mem_insert_of_mem y h'.1, h'.2⟩⟩
    rintro rfl
    exact hcomplete h.2
  · obtain ⟨hfail, hseen⟩ := hM.closed x z hw hsame
    refine ⟨fun hz => ?_, hseen⟩
    rcases mem_insert_iff.mp hz with rfl | hz
    · rintro ⟨new', hnew', hwins, _⟩
      rw [hnew] at hnew'
      cases hnew'
      obtain ⟨st, hst, hdooms, hin, _⟩ := hlose.resolve_left fun h => h hwins
      exact hseen ⟨hdooms, by rw [hin, hst]; rfl⟩
    · exact hfail hz

/-- Visiting an entry that wins: what is left to show is what happens to the other tasks. -/
theorem Progress.win {M' : Ledger I}
    (hnew : S y = some new) (hwins : L.Wins y new) (hself : M' y = some new)
    (hothers : ∀ x, x ≠ y → M' x = M x ∨
      (∃ st, L x = some st ∧ M x = L x ∧ L.Waits x y ∧ L.Completes S y ∧ M' x = some st.resumed ∧
        ((∃ r, L.Dooms S r x) → S.Outlasts x st)) ∨
      ∃ st, L x = some st ∧ M x = L x ∧ (∃ r, L.Dooms S r x) ∧ M' x = some st.upstreamFailed)
    (hmissed : ∀ x, x ≠ y → L.Waits x y → L.Completes S y → M' x = M x → M x ≠ L x)
    (hclosed : ∀ x z, L.Waits x z → M x = L x → M' x = L x → (z = y → ¬L.Fails S y) ∧
      ((∃ r, L.Dooms S r z) → M' z = (L z).map upstreamFailed →
        M z = (L z).map upstreamFailed)) : Progress L S (insert y P) M' := by
  have htakes : L.Takes S y := ⟨new, hnew, hwins⟩
  have hne : ∀ {x}, ¬(x ∈ insert y P ∧ L.Takes S x) → x ≠ y := by
    rintro x hx rfl
    exact hx ⟨mem_insert x P, htakes⟩
  have hold : ∀ {x}, ¬(x ∈ insert y P ∧ L.Takes S x) → ¬(x ∈ P ∧ L.Takes S x) := fun h hx =>
    h ⟨mem_insert_of_mem y hx.1, hx.2⟩
  refine ⟨fun x newx hx hnewx hwinsx => ?_, fun x hx hopen => ?_,
    fun x st on hx hst hon hdoomed => ?_,
    fun x st hx hst hdoomed => ?_, fun x z hw hsame => ?_⟩
  · rcases mem_insert_iff.mp hx with rfl | hx
    · rw [hnew] at hnewx
      cases hnewx
      exact .inl hself
    · by_cases hxy : x = y
      · subst hxy
        rw [hnew] at hnewx
        cases hnewx
        exact .inl hself
      · -- A merged task no longer holds the entry that a resume or a cascade acts on.
        have hmoved : ∀ {w}, L.Waits x w → M x = L x → False := fun hw hsame =>
          hM.not_merged hw hsame ⟨hx, newx, hnewx, hwinsx⟩
        rcases hothers x hxy with hsame | ⟨_, _, hsame, hw, _⟩ | ⟨_, _, hsame, ⟨r, hdooms⟩, _⟩
        · rw [hsame]
          exact hM.merged x newx hx hnewx hwinsx
        · exact (hmoved hw hsame).elim
        · obtain ⟨w, hw⟩ := hdooms.waits
          exact (hmoved hw hsame).elim
  · rcases hothers x (hne hx) with hsame | ⟨_, _, _, hw, _⟩ | ⟨_, _, _, ⟨r, hdooms⟩, _⟩
    · rw [hsame]
      exact hM.free x (hold hx) hopen
    · exact (hopen y hw).elim
    · obtain ⟨w, hw⟩ := hdooms.waits
      exact (hopen w hw).elim
  · obtain ⟨hyes, hno⟩ := hM.waiting x st on (hold hx) hst hon hdoomed
    rcases hothers x (hne hx) with hsame | ⟨st', hst', _, hw, hcomplete, hin, _⟩ | ⟨_, _, _, hr, _⟩
    · rw [hsame]
      refine ⟨fun h => ?_, fun h => hno fun h' => h ⟨mem_insert_of_mem y h'.1, h'.2⟩⟩
      rcases mem_insert_iff.mp h.1 with rfl | hmem
      · -- The completion would have resumed it.
        by_cases hP : on ∈ P
        · exact hyes ⟨hP, h.2⟩
        · have hstay := hno fun h' => hP h'.1
          exact (hmissed x (hne hx) ⟨st, hst, hon⟩ h.2 hsame (hstay.trans hst.symm)).elim
      · exact hyes ⟨hmem, h.2⟩
    · obtain ⟨e, he, hey⟩ := hw
      rw [hst] at he hst'
      cases he
      cases hst'
      rw [hon] at hey
      cases hey
      exact ⟨fun _ => hin, fun h => (h ⟨mem_insert y P, hcomplete⟩).elim⟩
    · exact (not_exists.mpr hdoomed hr).elim
  · rcases hothers x (hne hx) with hsame | ⟨st', hst', _, _, _, hin, hout⟩ | ⟨st', hst', _, _, hin⟩
    · rw [hsame]
      exact hM.doomed x st (hold hx) hst hdoomed
    · rw [hst] at hst'
      cases hst'
      exact .inr (.inr ⟨hin, hout hdoomed⟩)
    · rw [hst] at hst'
      cases hst'
      exact .inr (.inl hin)
  · obtain ⟨st, hst, hon⟩ := hw
    have hxy : x ≠ y := by
      rintro rfl
      rw [hself] at hsame
      exact absurd (hwins new hsame.symm) (lt_irrefl _)
    have hsameM : M x = L x := by
      rcases hothers x hxy with h | ⟨_, _, h, _⟩ | ⟨_, _, h, _⟩
      · exact h ▸ hsame
      · exact h
      · exact h
    obtain ⟨hfail, hseen⟩ := hM.closed x z ⟨st, hst, hon⟩ hsameM
    obtain ⟨hfail', hseen'⟩ := hclosed x z ⟨st, hst, hon⟩ hsameM hsame
    refine ⟨fun hz => ?_, fun h => hseen ⟨h.1, hseen' h.1 h.2⟩⟩
    rcases mem_insert_iff.mp hz with rfl | hz
    · exact hfail' rfl
    · exact hfail hz

omit hM in
omit [DefaultHasher] in
/-- A failed entry is not what a completion, a resume or an open write stores. -/
theorem ne_map_upstreamFailed {e : TaskState I} (he : e.status.isCascadeTerminal = false)
    {z : TaskHash} : some e ≠ (L z).map upstreamFailed := by
  intro h
  obtain ⟨st, _, rfl⟩ := Option.map_eq_some_iff.mp h.symm
  cases he

omit hM in
/-- The progress made by a first completion. -/
theorem Progress.complete (hfree : L.OrderFree S) (hM : Progress L S P M)
    (hnew : S y = some new) (hwins : L.Wins y new) (hfirst : L.FirstCompletion y new) :
    Progress L S (insert y P) ((M.resumeOn y).put y new) := by
  have hcomplete : L.Completes S y := ⟨new, hnew, hwins, hfirst⟩
  have hresumed : ∀ {x st}, x ≠ y → M x = some st → st.waitsOn = some y →
      ((M.resumeOn y).put y new) x = some st.resumed := fun hx hst hon =>
    (put_of_ne hx _ _).trans (resumeOn_of_waits hst hon)
  have hkept : ∀ {x}, x ≠ y → ¬M.Waits x y → ((M.resumeOn y).put y new) x = M x := fun hx hw =>
    (put_of_ne hx _ _).trans (resumeOn_of_not_waits hw)
  refine hM.win hnew hwins (put_same _ _ _) (fun x hx => ?_) (fun x hx hw _ hsame hstay => ?_)
    fun x z hw hsame hsame' => ⟨fun _ => hcomplete.not_fails, fun _ hfailed => ?_⟩
  · by_cases hw : M.Waits x y
    · obtain ⟨hsame, st, hst, hon⟩ := (hM.waits_cases hw).resolve_right
        fun ⟨new, hnew, _, hwins, _, hon⟩ => (hfree.paused x new y hnew hwins hon).1 hcomplete
      refine .inr (.inl ⟨st, hst, hsame, ⟨st, hst, hon⟩, hcomplete,
        hresumed hx (hsame.trans hst) hon, ?_⟩)
      rintro ⟨r, hdooms⟩
      exact hfree.doomed r x st hdooms hst (.inr ⟨y, hon, hcomplete.takes, hcomplete.not_fails⟩)
    · exact .inl (hkept hx hw)
  · obtain ⟨st, hst, hon⟩ := hw
    rw [hresumed hx (hstay.trans hst) hon, hstay, hst] at hsame
    rw [← Option.some.inj hsame] at hon
    cases hon
  · by_cases hz : z = y
    · subst hz
      rw [put_same] at hfailed
      exact (ne_map_upstreamFailed (by rw [hfirst.1]; rfl) hfailed).elim
    · by_cases hwz : M.Waits z y
      · obtain ⟨st, hst, hon⟩ := hwz
        rw [hresumed hz hst hon] at hfailed
        exact (ne_map_upstreamFailed rfl hfailed).elim
      · rwa [hkept hz hwz] at hfailed

/-- The progress made by an entry that resumes and fails nothing. -/
theorem Progress.store
    (hnew : S y = some new) (hwins : L.Wins y new) (hfirst : ¬L.FirstCompletion y new)
    (hopen : new.status.isCascadeTerminal = false) : Progress L S (insert y P) (M.put y new) := by
  refine hM.win hnew hwins (put_same _ _ _) (fun x hx => .inl (put_of_ne hx _ _))
    (fun x _ _ hcomplete => ?_) fun x z hw hsame hsame' => ⟨fun _ => ?_, fun _ hfailed => ?_⟩
  · obtain ⟨new', hnew', _, hfirst'⟩ := hcomplete
    rw [hnew] at hnew'
    cases hnew'
    exact (hfirst hfirst').elim
  · rintro ⟨new', hnew', _, hcascade⟩
    rw [hnew] at hnew'
    cases hnew'
    rw [hopen] at hcascade
    cases hcascade
  · by_cases hz : z = y
    · subst hz
      rw [put_same] at hfailed
      exact (ne_map_upstreamFailed hopen hfailed).elim
    · rwa [put_of_ne hz] at hfailed

end

/-- The progress made by a failure for good. -/
theorem Progress.fail (hfree : L.OrderFree S) (hM : Progress L S P M)
    (hnew : S y = some new) (hwins : L.Wins y new)
    (hcascade : new.status.isCascadeTerminal = true) :
    Progress L S (insert y P) ((M.put y new).failOn y) := by
  have hfails : L.Fails S y := ⟨new, hnew, hwins, hcascade⟩
  have hself : y ∉ (M.put y new).doomed y := fun h => ne_of_doomed hcascade h rfl
  have hkept : ∀ {x}, x ≠ y → x ∉ (M.put y new).doomed y → ((M.put y new).failOn y) x = M x :=
    fun hx hd => (failOn_of_not_doomed hd).trans (put_of_ne hx _ _)
  have hfailed : ∀ {x}, x ∈ (M.put y new).doomed y →
      ((M.put y new).failOn y) x = (M x).map upstreamFailed := fun hd => by
    rw [failOn_of_doomed hd, put_of_ne (ne_of_doomed hcascade hd)]
  refine hM.win hnew hwins ((failOn_of_not_doomed hself).trans (put_same _ _ _)) (fun x hx => ?_)
    (fun _ _ _ hcomplete => (hcomplete.not_fails hfails).elim) fun x z hw hsame hsame' => ?_
  · by_cases hd : x ∈ (M.put y new).doomed y
    · obtain ⟨hsame, hold⟩ := hM.doomed_old hfree hnew hwins hcascade hd
      have hdooms : L.Dooms S y x := ⟨new, hnew, hwins, hcascade, hold⟩
      obtain ⟨_, st, hst, _⟩ := hdooms.waits
      refine .inr (.inr ⟨st, hst, hsame, ⟨y, hdooms⟩, ?_⟩)
      rw [hfailed hd, hsame, hst]
      rfl
    · exact .inl (hkept hx hd)
  · obtain ⟨st, hst, hon⟩ := hw
    have hx : x ≠ y := by
      rintro rfl
      rw [failOn_of_not_doomed hself, put_same] at hsame'
      exact absurd (hwins new hsame'.symm) (lt_irrefl _)
    -- A task that still waits has not been reached by the cascade.
    have hsafe : x ∉ (M.put y new).doomed y := by
      intro hd
      rw [hfailed hd, hsame, hst, Option.map_some, Option.some.injEq] at hsame'
      rw [← hsame'] at hon
      cases hon
    have hwM : (M.put y new).Waits x z := ⟨st, (put_of_ne hx _ _).trans (hsame.trans hst), hon⟩
    have hz : z ≠ y := by
      rintro rfl
      exact hsafe (Board.mem_doomed_of_waits waitsOn hwM)
    have hzsafe : z ∉ (M.put y new).doomed y := fun hd =>
      hsafe (Board.mem_doomed_of_waits_doomed waitsOn hwM hd)
    exact ⟨fun h => (hz h).elim, fun _ h => hkept hz hzsafe ▸ h⟩

/-- **One more entry of the snapshot.** -/
theorem Progress.step (hfree : L.OrderFree S) (hM : Progress L S P M)
    (hy : y ∉ P) (hnew : S y = some new) : Progress L S (insert y P) (M.merge y new) := by
  have hwins := hM.wins hfree hy hnew
  have hwon : M.Wins y new → L.Wins y new := fun h =>
    hwins.elim (fun h' => h'.2) fun h' => (h'.1 h).elim
  rcases M.merge_cases y with
    ⟨hlose, heq⟩ | ⟨hw, hfirst, heq⟩ | ⟨hw, hcascade, heq⟩ | ⟨hw, hfirst, hopen, heq⟩
  · rw [heq]
    exact hM.lose hnew (hwins.elim (fun h => (hlose h.1).elim) fun h => h.2)
  · rw [heq]
    exact hM.complete hfree hnew (hwon hw) ((hM.firstCompletion hy).mp hfirst)
  · rw [heq]
    exact hM.fail hfree hnew (hwon hw) hcascade
  · rw [heq]
    exact hM.store hnew (hwon hw) (fun h => hfirst ((hM.firstCompletion hy).mpr h)) hopen

/-- A list that visits every incoming entry once. -/
structure Enumerates (S : Ledger I) (order : List (TaskHash × TaskState I)) : Prop where
  nodup : (order.map Prod.fst).Nodup
  mem : ∀ x st, (x, st) ∈ order ↔ S x = some st

/-- The whole restore. -/
theorem Progress.run (hfree : L.OrderFree S) (hM : Progress L S P M)
    {order : List (TaskHash × TaskState I)} (hnodup : (order.map Prod.fst).Nodup)
    (hmem : ∀ e ∈ order, S e.1 = some e.2) (hnew : ∀ e ∈ order, e.1 ∉ P) :
    Progress L S (P ∪ {x | x ∈ order.map Prod.fst}) (M.mergeAll order) := by
  induction order generalizing P M with
  | nil => simpa [mergeAll] using hM
  | cons e order ih =>
    rw [map_cons, nodup_cons] at hnodup
    have hstep := hM.step hfree (hnew e mem_cons_self) (hmem e mem_cons_self)
    have hrest := ih hstep hnodup.2 (fun e' he' => hmem e' (mem_cons_of_mem e he')) (by
      intro e' he' hin
      rcases mem_insert_iff.mp hin with heq | hin
      · exact hnodup.1 (heq ▸ mem_map_of_mem he')
      · exact hnew e' (mem_cons_of_mem e he') hin)
    have hset : insert e.1 P ∪ {x | x ∈ order.map Prod.fst} =
        P ∪ {x | x ∈ (e :: order).map Prod.fst} := by
      ext x
      simp only [mem_union, mem_insert_iff, mem_ofPred_eq, map_cons, mem_cons]
      tauto
    rw [← hset]
    exact hrest

end Step

section Finished

variable {P : Set TaskHash}

variable (hfree : L.OrderFree S)
include hfree

variable (hM : Progress L S P M)
include hM

/-- When all incoming entries have been visited, a doomed task that does not outlast its
failure has failed. -/
theorem Progress.failed (hall : ∀ x new, S x = some new → x ∈ P) (hdooms : L.Dooms S r x)
    (hst : L x = some st) (hweak : ¬S.Outlasts x st) :
    M x = some st.upstreamFailed := by
  have hvisited : ∀ {y}, L.Takes S y → y ∈ P := fun ⟨new, hnew, _⟩ => hall _ new hnew
  obtain ⟨new, hnew, hwins, hcascade, hx⟩ := hdooms
  have hfails : L.Fails S r := ⟨new, hnew, hwins, hcascade⟩
  have hpast : ∀ {z}, z ∈ (L.put r new).doomed r → L.Dooms S r z := fun hz =>
    ⟨new, hnew, hwins, hcascade, hz⟩
  have htakes : ∀ {z st}, L.Dooms S r z → L z = some st → ¬S.Outlasts z st → ¬L.Takes S z :=
    fun hd hst hweak ht => hweak (hfree.doomed r _ _ hd hst (.inl ht))
  -- Along the chain: a task that still waits would wait on one that still waits, or on a failure.
  have hgone : M x ≠ L x := by
    induction hx using Relation.TransGen.head_induction_on generalizing st with
    | single hw =>
      intro hsame
      exact (hM.closed _ r (waits_of_put_failed hcascade hw).2 hsame).1 (hvisited hfails.takes)
        hfails
    | @head a c hw htail ih =>
      intro hsame
      obtain ⟨_, hwL⟩ := waits_of_put_failed hcascade hw
      have hclosed := hM.closed a c hwL hsame
      obtain ⟨e, he, hon⟩ := hwL
      rw [hst] at he
      cases he
      have hcdooms : L.Dooms S r c := hpast htail
      obtain ⟨_, stc, hstc, honc⟩ := hcdooms.waits
      have hcfails : ¬L.Fails S c := fun h => hclosed.1 (hvisited h.takes) h
      have hctakes : ¬L.Takes S c := fun h =>
        hweak (hfree.doomed r a st (hpast (.head hw htail)) hst (.inr ⟨c, hon, h, hcfails⟩))
      have hcweak : ¬S.Outlasts c stc := fun h => hctakes (h.takes hstc honc)
      have hcgone := ih hstc hcweak
      rcases hM.doomed c stc (fun h => hctakes h.2) hstc ⟨r, hcdooms⟩ with hin | hin | ⟨_, hout⟩
      · exact hcgone (hin.trans hstc.symm)
      · exact hclosed.2 ⟨⟨r, hcdooms⟩, by rw [hin, hstc]; rfl⟩
      · exact hcweak hout
  have hd := hpast hx
  rcases hM.doomed x st (fun h => htakes hd hst hweak h.2) hst ⟨r, hd⟩ with hin | hin | ⟨_, hout⟩
  · exact (hgone (hin.trans hst.symm)).elim
  · exact hin
  · exact (hweak hout).elim

/-- **The keys at the end do not depend on the order.** -/
theorem Progress.keyOf_eq {M' : Ledger I}
    (hM' : Progress L S P M') (hall : ∀ x new, S x = some new → x ∈ P) (x : TaskHash) :
    M.keyOf x = M'.keyOf x := by
  by_cases htakes : L.Takes S x
  · obtain ⟨new, hnew, hwins⟩ := htakes
    have hkey : ∀ {N : Ledger I}, Progress L S P N → N.keyOf x = some (taskJoinKey new) := by
      intro N hN
      rcases hN.merged x new (hall x new hnew) hnew hwins with hin | ⟨st, _, _, hin, hkey⟩
      · rw [keyOf, hin, Option.map_some]
      · rw [keyOf, hin, Option.map_some, hkey]
    rw [hkey hM, hkey hM']
  · have hmerged : ¬(x ∈ P ∧ L.Takes S x) := fun h => htakes h.2
    suffices hsame : M x = M' x by rw [keyOf, keyOf, hsame]
    by_cases hopen : ∀ y, ¬L.Waits x y
    · rw [hM.free x hmerged hopen, hM'.free x hmerged hopen]
    · obtain ⟨on, st, hst, hon⟩ := not_forall_not.mp hopen
      by_cases hdoomed : ∃ r, L.Dooms S r x
      · obtain ⟨r, hdooms⟩ := hdoomed
        have hweak : ¬S.Outlasts x st := fun h => htakes (h.takes hst hon)
        rw [hM.failed hfree hall hdooms hst hweak, hM'.failed hfree hall hdooms hst hweak]
      · have hwaiting := hM.waiting x st on hmerged hst hon (not_exists.mp hdoomed)
        have hwaiting' := hM'.waiting x st on hmerged hst hon (not_exists.mp hdoomed)
        by_cases hcomplete : on ∈ P ∧ L.Completes S on
        · rw [hwaiting.1 hcomplete, hwaiting'.1 hcomplete]
        · rw [hwaiting.2 hcomplete, hwaiting'.2 hcomplete]

/-- When all incoming entries have been visited, none of them wins any more. -/
theorem Progress.not_wins (hall : ∀ x new, S x = some new → x ∈ P)
    (hnew : S x = some new) : ¬M.Wins x new := by
  intro hwinsM
  have hcontra : ∀ {e : TaskState I}, M x = some e → taskJoinKey new ≤ taskJoinKey e → False :=
    fun he hle => absurd (hwinsM _ he) (not_lt.mpr hle)
  by_cases hwins : L.Wins x new
  · rcases hM.merged x new (hall x new hnew) hnew hwins with hin | ⟨st, _, _, hin, hkey⟩
    · exact hcontra hin le_rfl
    · exact hcontra hin hkey.le
  · have hmerged : ¬(x ∈ P ∧ L.Takes S x) := by
      rintro ⟨_, new', hnew', hwins'⟩
      rw [hnew] at hnew'
      cases hnew'
      exact hwins hwins'
    obtain ⟨st, hst, hle⟩ : ∃ st, L x = some st ∧ taskJoinKey new ≤ taskJoinKey st := by
      simpa [Wins] using hwins
    rcases hM.unmerged hmerged with hsame | ⟨st', on, hst', hon, hin⟩
    · exact hcontra (hsame.trans hst) hle
    · rw [hst] at hst'
      cases hst'
      rcases hin with ⟨hcomplete, hin⟩ | ⟨_, hin | ⟨_, hout⟩⟩
      · rcases hfree.resumed x st on new hst hon hcomplete hnew with hlow | hhigh
        · exact hcontra hin hlow
        · exact absurd hle (not_le.mpr hhigh)
      · exact hcontra hin (hle.trans (taskJoinKey_lt_upstreamFailed hon).le)
      · obtain ⟨new', hnew', hwins'⟩ := hout.takes hst hon
        rw [hnew] at hnew'
        cases hnew'
        exact hwins hwins'

end Finished

variable {order : List (TaskHash × TaskState I)}

/-- Entries that do not win leave the ledger as it is. -/
theorem mergeAll_of_not_wins (hlose : ∀ e ∈ order, ¬M.Wins e.1 e.2) : M.mergeAll order = M := by
  induction order with
  | nil => rfl
  | cons e order ih =>
    have hmerge : M.merge e.1 e.2 = M := if_neg (hlose e mem_cons_self)
    change (M.merge e.1 e.2).mergeAll order = M
    rw [hmerge]
    exact ih fun e' he' => hlose e' (mem_cons_of_mem e he')

/-- What a restore should be: the keys do not depend on the order in which the entries are
visited, and a second restore changes nothing. -/
structure MergesAlike (L S : Ledger I) : Prop where
  keys : ∀ order order', Enumerates S order → Enumerates S order' →
    ∀ x, (L.mergeAll order).keyOf x = (L.mergeAll order').keyOf x
  again : ∀ order order', Enumerates S order → Enumerates S order' →
    (L.mergeAll order).mergeAll order' = L.mergeAll order

/-- Merging all of an enumeration makes all the progress. -/
theorem Enumerates.progress (hfree : L.OrderFree S) (horder : Enumerates S order) :
    Progress L S {x | ∃ new, S x = some new} (L.mergeAll order) := by
  have hrun := (Progress.start L S).run hfree horder.nodup
    (fun e he => (horder.mem e.1 e.2).mp he) fun _ _ h => h.elim
  have hset : (∅ : Set TaskHash) ∪ {x | x ∈ order.map Prod.fst} = {x | ∃ new, S x = some new} := by
    ext x
    simp [horder.mem]
  rwa [hset] at hrun

/-- **Without a conflict a restore is deterministic and idempotent.** -/
theorem OrderFree.mergesAlike (hfree : L.OrderFree S) : MergesAlike L S where
  keys := fun _ _ horder horder' =>
    (horder.progress hfree).keyOf_eq hfree (horder'.progress hfree) fun _ new h => ⟨new, h⟩
  again := fun _ _ horder horder' => mergeAll_of_not_wins fun e he =>
    (horder.progress hfree).not_wins hfree (fun _ new h => ⟨new, h⟩) ((horder'.mem e.1 e.2).mp he)

end Ledger

end DynRunner
