import DynRunner.Lib.Runs
import DynRunner.Primary.Frame

/-!
# The in-flight counters of the phases

The pool counts the tasks of each phase that are in flight, and a phase drains when its count and
its queue are empty. The count is kept apart from the in-flight ledger, which has an entry for
every task that was dispatched and has not been settled. This file follows the two through the
runs of a primary. They agree as long as no operation counts a task down that was not counted, or
twice: a permanent failure that is commanded counts down twice, whether its task was in flight or
not, a failed setup task takes the same way after its entry is gone, and the death of the executor
of a setup task drops the entry without counting at all.
-/

namespace DynRunner

open HashMap PendingPool InFlightEntry List

variable {I : Type}

namespace PendingPool

variable {pool : PendingPool I} {p q : PhaseId}

/-- Counting an item, phase by phase. -/
theorem inFlight_markInFlight :
    (pool.markInFlight p).inFlight q = pool.inFlight q + if q = p then 1 else 0 := by
  rw [inFlight, markInFlight, lookup_insert_eq]
  split_ifs with hq
  · subst hq
    rfl
  · rfl

/-- Counting an item down, phase by phase. -/
theorem inFlight_decrementInFlight :
    (pool.decrementInFlight p).inFlight q = pool.inFlight q - if q = p then 1 else 0 := by
  rw [inFlight, decrementInFlight, lookup_adjust]
  split_ifs with hq
  · subst hq
    rw [inFlight]
    cases pool.inFlightPerPhase.lookup q <;> rfl
  · rfl

/-- The preference of an item says nothing about its bucket. -/
theorem filed_updateFirstMatchInPlace (hfiled : pool.Filed)
    {pred : TaskInfo I → Bool} {update : TaskInfo I → TaskInfo I}
    (hupdate : ∀ item, (update item).bucketKey = item.bucketKey) :
    (pool.updateFirstMatchInPlace pred update).Filed := by
  intro key bucket hbucket i hi
  obtain ⟨old, hold, hitems⟩ := exists_of_get?_updateFirstMatch hbucket
  obtain ⟨item, hitem, rfl | rfl⟩ := hitems i hi
  · exact hfiled key old hold i hitem
  · rw [hupdate]
    exact hfiled key old hold item hitem

end PendingPool

namespace InFlightEntry

/-- Whether the phase of an entry counts it. Imports and eager preparations are not counted. -/
def Counts (entry : InFlightEntry I) : Prop := entry.task.kind.countsForPhaseDrain = true

/-- The phase that counts an entry. -/
def counted (entry : InFlightEntry I) : Option PhaseId :=
  if entry.task.kind.countsForPhaseDrain then some entry.phase else none

/-- A counted entry is counted for its phase. -/
theorem counted_of_counts {entry : InFlightEntry I} (h : entry.Counts) :
    entry.counted = some entry.phase :=
  if_pos h

/-- Any other entry is counted nowhere. -/
theorem counted_of_not_counts {entry : InFlightEntry I} (h : ¬ entry.Counts) :
    entry.counted = none :=
  if_neg h

end InFlightEntry

namespace Coordinator

variable (c : Coordinator I)

/-- The counters of the pool are right, and what they are counted by is in order. -/
structure Accounted (c : Coordinator I) : Prop where
  counts : TalliesSome c.pool.inFlightPerPhase counted c.inFlight
  phases : ∀ h e, c.inFlight.lookup h = some e → e.task.phaseId = e.phase
  filed : c.pool.Filed

/-- A change beside the counters and the in-flight ledger. -/
structure SameAccount (c c' : Coordinator I) : Prop where
  inFlight : c'.inFlight = c.inFlight
  counts : c'.pool.inFlightPerPhase = c.pool.inFlightPerPhase
  filed : c.pool.Filed → c'.pool.Filed

def countDown (p : PhaseId) : Coordinator I :=
  { c with pool := c.pool.decrementInFlight p }

def countUp (p : PhaseId) : Coordinator I :=
  { c with pool := c.pool.markInFlight p }

section Account

variable {c c' c'' : Coordinator I}

theorem SameAccount.refl (c : Coordinator I) : c.SameAccount c := ⟨rfl, rfl, id⟩

theorem SameAccount.trans (h : c.SameAccount c') (h' : c'.SameAccount c'') : c.SameAccount c'' :=
  ⟨h'.inFlight.trans h.inFlight, h'.counts.trans h.counts, fun hfiled => h'.filed (h.filed hfiled)⟩

/-- The same account stays the same when it is counted down. -/
theorem SameAccount.countDown (h : c.SameAccount c') (p : PhaseId) :
    (c.countDown p).SameAccount (c'.countDown p) := by
  refine ⟨h.inFlight, ?_, fun hfiled => (h.filed (hfiled.congr rfl)).congr rfl⟩
  change c'.pool.inFlightPerPhase.adjust _ p = c.pool.inFlightPerPhase.adjust _ p
  rw [h.counts]

/-- The account is a matter of the pool and of what is in flight. -/
theorem sameAccount_of_eq (hinFlight : c'.inFlight = c.inFlight)
    (hpool : c'.pool = c.pool) : c.SameAccount c' :=
  ⟨hinFlight, by rw [hpool], fun hfiled => by rwa [hpool]⟩

variable {pool : PendingPool I} {hash : TaskHash} {p : PhaseId} {entry : InFlightEntry I}

/-- A pool that lets items in or out keeps its counters. -/
theorem sameAccount_of_draws {pushed : Multiset (TaskInfo I)}
    (h : c.pool.Draws pushed pool) : c.SameAccount { c with pool } :=
  ⟨rfl, h.inFlight, h.filed⟩

/-- A pool that an item has left keeps its counters. -/
theorem sameAccount_of_sheds {task : TaskInfo I} (h : c.pool.Sheds task pool) :
    c.SameAccount { c with pool } :=
  ⟨rfl, h.inFlight, h.filed⟩

section

variable (h : c.Accounted)
include h

/-- The same account is right if it was. -/
theorem Accounted.same (hsame : c.SameAccount c') : c'.Accounted where
  counts := by
    rw [hsame.counts, hsame.inFlight]
    exact h.counts
  phases := by
    rw [hsame.inFlight]
    exact h.phases
  filed := hsame.filed h.filed

/-- An entry that is settled is counted down. -/
theorem Accounted.settled (hentry : c.inFlight.lookup hash = some entry) (hcounts : entry.Counts) :
    ((c.dropInFlight hash).countDown entry.phase).Accounted where
  counts := h.counts.erase hentry (counted_of_counts hcounts)
  phases hash' entry' hentry' := h.phases hash' entry' (lookup_of_erase hentry')
  filed := h.filed.congr rfl

/-- An entry that is not counted can be dropped. -/
theorem Accounted.dropped
    (hcounts : ∀ entry, c.inFlight.lookup hash = some entry → ¬ entry.Counts) :
    (c.dropInFlight hash).Accounted where
  counts := by
    cases hentry : c.inFlight.lookup hash with
    | none =>
      change TalliesSome _ _ (c.inFlight.erase hash)
      rw [erase_of_lookup_none hentry]
      exact h.counts
    | some entry => exact h.counts.erase_none hentry (counted_of_not_counts (hcounts entry hentry))
  phases hash' entry' hentry' := h.phases hash' entry' (lookup_of_erase hentry')
  filed := h.filed.congr rfl

/-- The phases of the entries stay right when one is written. -/
theorem Accounted.phases_insert (hphase : entry.task.phaseId = entry.phase)
    {hash' : TaskHash} {entry' : InFlightEntry I}
    (hentry' : (c.inFlight.insert hash entry).lookup hash' = some entry') :
    entry'.task.phaseId = entry'.phase := by
  rw [lookup_insert_eq] at hentry'
  split_ifs at hentry'
  · cases hentry'
    exact hphase
  · exact h.phases hash' entry' hentry'

/-- A dispatched task is counted. -/
theorem Accounted.dispatched (entry : InFlightEntry I) (hnew : hash ∉ c.inFlight)
    (hcounts : entry.Counts) (hphase : entry.task.phaseId = entry.phase) :
    ({ c with inFlight := c.inFlight.insert hash entry }.countUp entry.phase).Accounted where
  counts := h.counts.insert (AList.lookup_eq_none.mpr hnew) (counted_of_counts hcounts)
  phases _ _ hentry' := h.phases_insert hphase hentry'
  filed := h.filed.congr rfl

/-- An import is not counted, even if it is in flight on another secondary. -/
theorem Accounted.celled (hash : TaskHash) (entry : InFlightEntry I) (hcounts : ¬ entry.Counts)
    (hphase : entry.task.phaseId = entry.phase)
    (hold : ∀ old, c.inFlight.lookup hash = some old → ¬ old.Counts) :
    ({ c with inFlight := c.inFlight.insert hash entry } : Coordinator I).Accounted where
  counts := h.counts.insert_none (counted_of_not_counts hcounts)
    fun old hlookup => counted_of_not_counts (hold old hlookup)
  phases _ _ hentry' := h.phases_insert hphase hentry'
  filed := h.filed

/-- Seating a task elsewhere keeps the account. -/
theorem Accounted.reseated (hreseats : c.Reseats c') : c'.Accounted := by
  cases hreseats with
  | slots workers => exact h.same (sameAccount_of_eq rfl rfl)
  | @moved workers hash entry hentry secondaryId localWorkerId =>
    have hphase : ({ entry with secondaryId, localWorkerId } : InFlightEntry I).task.phaseId =
        ({ entry with secondaryId, localWorkerId } : InFlightEntry I).phase :=
      h.phases hash entry hentry
    exact ⟨h.counts.replace hentry rfl, fun _ _ hlookup => h.phases_insert hphase hlookup, h.filed⟩

/-- A count that only the counters see. -/
theorem Accounted.of_inFlight (hinFlight : c'.inFlight = c.inFlight)
    (hcounts : ∀ p, c'.pool.inFlight p = c.pool.inFlight p) (hfiled : c'.pool.Filed) :
    c'.Accounted where
  counts := by
    intro p
    rw [hinFlight]
    exact (hcounts p).trans (h.counts p)
  phases := by
    rw [hinFlight]
    exact h.phases
  filed := hfiled

/-- Counting a task up and down again. -/
theorem Accounted.countUp_countDown (p : PhaseId) : ((c.countUp p).countDown p).Accounted := by
  refine h.of_inFlight rfl (fun q => ?_) (h.filed.congr rfl)
  change ((c.pool.markInFlight p).decrementInFlight p).inFlight q = _
  rw [inFlight_decrementInFlight, inFlight_markInFlight]
  omega

omit h in
/-- Counting down a phase with nothing in flight changes nothing. -/
theorem inFlight_countDown_of_zero (hp : c.pool.inFlight p = 0) (q : PhaseId) :
    (c.countDown p).pool.inFlight q = c.pool.inFlight q := by
  change (c.pool.decrementInFlight p).inFlight q = _
  rw [inFlight_decrementInFlight]
  split_ifs with hq
  · rw [hq, hp]
  · rfl

/-- Counting down where nothing is counted. -/
theorem Accounted.countDown_of_zero (hp : c.pool.inFlight p = 0) : (c.countDown p).Accounted :=
  h.of_inFlight rfl (inFlight_countDown_of_zero hp) (h.filed.congr rfl)

end

/-- The same account has the same counts. -/
theorem SameAccount.inFlight_pool (h : c.SameAccount c') {p : PhaseId} :
    c'.pool.inFlight p = c.pool.inFlight p := by
  rw [PendingPool.inFlight, PendingPool.inFlight, h.counts]

/-- A task that came back is counted down and queued. -/
theorem sameAccount_requeue (c : Coordinator I) (task : TaskInfo I) :
    (c.countDown task.phaseId).SameAccount { c with pool := c.pool.requeue task } := by
  obtain ⟨-, hcounts, hfiled⟩ := stock_requeue
  exact ⟨rfl, hcounts, fun h => hfiled (h.congr rfl)⟩

/-- A finished item is counted down. -/
theorem sameAccount_onItemFinished (c : Coordinator I) (p : PhaseId) (taskId : Option String) :
    (c.countDown p).SameAccount { c with pool := c.pool.onItemFinished p taskId } := by
  obtain ⟨-, hcounts, hfiled⟩ := sameStock_onItemFinished
  exact ⟨rfl, hcounts, hfiled⟩

/-- A completed item is counted down. -/
theorem accounted_noteItemCompleted (h : (c.countDown p).Accounted) (taskId : Option String) :
    (c.noteItemCompleted p taskId).Accounted :=
  h.same (sameAccount_onItemFinished c p taskId)

/-- A finished import is not counted. -/
theorem sameAccount_noteAffineTerminal (c : Coordinator I) (p : PhaseId) (taskId : String) :
    c.SameAccount { c with pool := c.pool.noteAffineTerminal p taskId } :=
  sameAccount_of_draws ((sameStock_noteAffineTerminal c.pool p taskId).draws 0)

/-- A failed import is not counted. -/
theorem sameAccount_noteAffineFailed (c : Coordinator I) (p : PhaseId) (taskId : String) :
    c.SameAccount { c with pool := c.pool.noteAffineFailed p taskId } :=
  sameAccount_of_draws ((sameStock_noteAffineFailed c.pool p taskId).draws 0)

/-- Marking imports keeps the account. -/
theorem sameAccount_markAffinePrereqs {totalTasks : ℕ} :
    c.SameAccount { c with pool := c.pool.markAffinePrereqs ids, totalTasks } :=
  ⟨rfl, rfl, fun hfiled => hfiled.congr rfl⟩

end Account

section Parts

variable [DefaultHasher] [Identifier I]

/-- Recording failed dependents keeps the account. -/
theorem sameAccount_buildCascade (c : Coordinator I) (rootId : String)
    (cascaded : List (TaskInfo I)) :
    c.SameAccount (c.buildCascadeTerminalMutations rootId cascaded).1 := by
  obtain ⟨failedTasks, heq⟩ := buildCascadeTerminalMutations_frame c
  rw [heq]
  exact sameAccount_of_eq rfl rfl

variable [RecordCodec I] [DonePayloadCodec]

/-- Originating mutations keeps the account. -/
theorem sameAccount_applyAndBroadcast (c : Coordinator I) (ms : List (ClusterMutation I)) :
    c.SameAccount (c.applyAndBroadcast ms) :=
  ⟨applyAndBroadcast_inFlight c ms, draws_applyAndBroadcast.inFlight, draws_applyAndBroadcast.filed⟩

/-- Recording an import keeps the account. -/
theorem sameAccount_recordImport (c : Coordinator I) (hash : TaskHash) :
    c.SameAccount (c.recordImport hash) := by
  unfold recordImport
  split
  · exact .refl c
  · dsimp only
    split_ifs
    · exact sameAccount_noteAffineTerminal c _ _
    · exact .refl c
    · exact (sameAccount_applyAndBroadcast c _).trans (sameAccount_noteAffineTerminal _ _ _)
    · exact sameAccount_applyAndBroadcast c _

/-- A failure is counted down once, whatever follows it. -/
theorem sameAccount_noteItemFailed (c : Coordinator I) (p : PhaseId) (taskId : Option String)
    (kind : Option ErrorType) : (c.countDown p).SameAccount (c.noteItemFailed p taskId kind) := by
  unfold noteItemFailed
  split
  · obtain ⟨-, hcounts, hfiled⟩ := sameStock_onItemFailedPendingRetry
    exact ⟨rfl, hcounts, hfiled⟩
  · rename_i id _
    have hpool := cascades_onItemFailedPermanent c.pool p id
    have hfailed : (c.countDown p).SameAccount
        { c with pool := (c.pool.onItemFailedPermanent p id).1 } :=
      ⟨rfl, hpool.inFlight, hpool.filed⟩
    refine hfailed.trans ?_
    exact (sameAccount_buildCascade _ id _).trans (sameAccount_applyAndBroadcast _ _)
  · exact sameAccount_onItemFinished c p none

variable {c c' : Coordinator I} {p : PhaseId} {hash : TaskHash} {task : TaskInfo I}

/-- A failed item is counted down. -/
theorem accounted_noteItemFailed
    (h : (c.countDown p).Accounted) {taskId : Option String} {kind : Option ErrorType} :
    (c.noteItemFailed p taskId kind).Accounted :=
  h.same (sameAccount_noteItemFailed c p taskId kind)

omit [RecordCodec I] [DonePayloadCodec] in
/-- What is left of a task that counts is to be counted down; what is taken out of the queue has
been counted for it. -/
theorem Accounted.frees (h : c.Accounted) (hfrees : c.Frees hash task p c')
    (hcounts : ∀ entry, c.inFlight.lookup hash = some entry → entry.Counts) :
    (c'.countDown p).Accounted ∧ task.phaseId = p := by
  cases hfrees with
  | @entry entry workers hentry =>
    exact ⟨(h.settled hentry (hcounts entry hentry)).same (sameAccount_of_eq rfl rfl),
      h.phases hash _ hentry⟩
  | queued _ hshed =>
    exact ⟨(h.same (sameAccount_of_sheds hshed)).countUp_countDown task.phaseId, rfl⟩

end Parts

section Steps

/-- Recording a failed import keeps the account. -/
theorem sameAccount_recordImportFailure (c : Coordinator I) (hash : TaskHash) :
    c.SameAccount (c.recordImportFailure hash) := by
  unfold recordImportFailure
  split
  · exact .refl c
  · exact sameAccount_noteAffineFailed c _ _

/-- Recording a terminal keeps the account. -/
theorem sameAccount_recordTerminal (c : Coordinator I) (hash : TaskHash) (counterCompleted : Bool)
    (failedKind : Option ErrorType) :
    c.SameAccount (c.recordTerminal hash counterCompleted failedKind) := by
  obtain ⟨completedTasks, failedTasks, heq⟩ := recordTerminal_frame c
  rw [heq]
  exact sameAccount_of_eq rfl rfl

/-- Work that its secondary takes along is counted down, whether it is queued again or has ended. -/
theorem recoverInFlight_account (c : Coordinator I) (hash : TaskHash) {entry : InFlightEntry I}
    (hphase : entry.task.phaseId = entry.phase) (hkind : entry.task.kind.isReassignable = true) :
    ((c.dropInFlight hash).countDown entry.phase).SameAccount (c.recoverInFlight hash entry).1 := by
  have hcell : entry.task.kind.hasSecondaryCell = false := by
    cases hk : entry.task.kind <;> rw [hk] at hkind <;> first | rfl | cases hkind
  unfold recoverInFlight
  rw [hcell, if_neg Bool.false_ne_true, if_pos hkind, ← hphase]
  split_ifs
  · exact sameAccount_onItemFinished _ _ _
  · exact sameAccount_requeue _ _

/-- Routing a spawned task keeps the account. -/
theorem sameAccount_routeSpawned (c : Coordinator I) (hash : TaskHash) :
    c.SameAccount (c.routeSpawned hash) := by
  unfold routeSpawned
  split
  · exact .refl c
  · split
    · exact sameAccount_of_draws (draws_reinject _ _)
    · exact sameAccount_of_eq rfl rfl
    · exact .refl c

variable [DefaultHasher] [Identifier I] [RecordCodec I] [DonePayloadCodec] {c : Coordinator I}
  {hash : TaskHash} {error : ErrorType} {reason : String} {outcome : SetupOutcome}
  {delivered budgetLeft : Bool} {phase : PhaseId} {secondaries : List String}

variable {p : PhaseId} {c' : Coordinator I}

section

variable (h : c.Accounted)
include h

variable {counterCompleted successLike : Bool} {errorMessage member taskId : String}
  {index workerIdx : ℕ}

/-- What is left of a counted task is counted down with it. -/
theorem accounted_settleResidue
    (hcounts : ∀ entry, c.inFlight.lookup hash = some entry → entry.Counts)
    {failedKind : Option ErrorType} :
    (c.settleResidue hash counterCompleted failedKind successLike).Accounted := by
  unfold settleResidue
  split
  · exact h.same (sameAccount_recordTerminal c hash counterCompleted failedKind)
  · rename_i p taskId c' hresidue
    obtain ⟨task, hfrees⟩ := frees_of_residue hresidue
    have hbase := (h.frees hfrees hcounts).1.same
      ((sameAccount_recordTerminal c' hash counterCompleted failedKind).countDown p)
    split_ifs
    · exact accounted_noteItemCompleted hbase _
    · exact accounted_noteItemFailed hbase

/-- The same for a task that the ledger knows to have ended. -/
theorem accounted_settleLocalState
    (hcounts : ∀ entry, c.inFlight.lookup hash = some entry → entry.Counts) :
    (c.settleLocalState hash).Accounted := by
  unfold settleLocalState
  split
  · split <;> first | exact accounted_settleResidue h hcounts | exact h
  · split
    · split <;> exact accounted_settleResidue h hcounts
    · exact h

omit [DefaultHasher] [Identifier I] [RecordCodec I] [DonePayloadCodec] in
/-- A report about an import drops no entry that counts. -/
theorem accounted_freeAffineSlotOnTerminal {secondary : String} {workerId : ℕ}
    (hcounts : ∀ entry, c.inFlight.lookup hash = some entry → ¬ entry.Counts) :
    (c.freeAffineSlotOnTerminal secondary workerId hash).Accounted := by
  obtain ⟨workers, inFlight, rfl | rfl, heq⟩ :=
    freeAffineSlotOnTerminal_frame c secondary workerId hash
  · rw [heq]
    exact h.same (sameAccount_of_eq rfl rfl)
  · rw [heq]
    exact (h.dropped hcounts).same (sameAccount_of_eq rfl rfl)

/-- A completed import keeps the account. -/
theorem accounted_handleAffineTaskComplete {secondary : String} {workerId : ℕ}
    (hcounts : ∀ entry, c.inFlight.lookup hash = some entry → ¬ entry.Counts) :
    (c.handleAffineTaskComplete secondary workerId hash).Accounted := by
  have hsame := sameAccount_recordImport c hash
  exact accounted_freeAffineSlotOnTerminal (h.same hsame) fun entry hentry =>
    hcounts entry (hsame.inFlight ▸ hentry)

/-- A completion counts its task down once. -/
theorem accounted_handleTaskComplete {secondary : String} {workerId : ℕ}
    {resultData : Option (List ℕ)}
    (hcells : (c.cluster.affineIdForHash hash).isSome = true →
      ∀ entry, c.inFlight.lookup hash = some entry → ¬ entry.Counts)
    (hcounts : (c.cluster.affineIdForHash hash).isSome = false → hash ∉ c.completedTasks →
      ∀ entry, c.inFlight.lookup hash = some entry → entry.Counts) :
    (c.handleTaskComplete secondary workerId hash resultData).Accounted := by
  unfold handleTaskComplete
  split_ifs with haffine hdone
  · exact accounted_handleAffineTaskComplete h (hcells haffine)
  · exact h
  · dsimp only
    have hrecorded : c.SameAccount { c with
        failedTasks := c.failedTasks.erase hash
        completedTasks := insert hash c.completedTasks } := sameAccount_of_eq rfl rfl
    have hsame := hrecorded.trans
      (sameAccount_applyAndBroadcast _ [.taskCompleted hash resultData 0])
    have hbase := h.same hsame
    have hcounts' := hcounts (Bool.eq_false_iff.mpr haffine) hdone
    rw [← hsame.inFlight] at hcounts'
    split
    · rename_i entry c' hfree
      exact accounted_noteItemCompleted (hbase.frees (frees_of_slot hfree) hcounts').1 _
    · split
      · rename_i task c' hreclaim
        exact accounted_noteItemCompleted (hbase.frees (frees_of_queue hreclaim) hcounts').1 _
      · exact hbase

/-- A task that was returned has to be alive: the entry of one that has ended is dropped without
being counted. -/
theorem accounted_failDispatched {errorType : ErrorType}
    (hcounts : ∀ entry, c.inFlight.lookup hash = some entry →
      isBackpressureShaped errorMessage = true ∨ hash ∉ c.completedTasks ∧ hash ∉ c.failedTasks →
      entry.Counts)
    (hlive : isBackpressureShaped errorMessage = true → hash ∈ c.inFlight →
      c.cluster.viewIsTerminal hash = false) :
    (c.failDispatched hash errorType errorMessage).Accounted := by
  unfold failDispatched
  by_cases hshape : isBackpressureShaped errorMessage = true
  · rw [if_pos hshape]
    have hcounts' := fun entry hentry => hcounts entry hentry (.inl hshape)
    cases hfree : c.freeSlotOnTerminal hash with
    | none =>
      split_ifs
      · exact accounted_settleLocalState h hcounts'
      · exact h
    | some freed =>
      obtain ⟨entry, c'⟩ := freed
      obtain ⟨hbase, hphase⟩ := h.frees (frees_of_slot hfree) hcounts'
      obtain ⟨hentry, -⟩ := freeSlotOnTerminal_eq_some hfree
      have hcluster : c'.cluster = c.cluster := by
        obtain ⟨workers, rfl⟩ := freeSlotOnTerminal_frame hfree
        rfl
      dsimp only
      rw [hcluster, hlive hshape (mem_iff_lookup.mpr ⟨entry, hentry⟩), if_neg Bool.false_ne_true]
      rw [← hphase] at hbase
      exact (hbase.same (sameAccount_requeue c' entry.task)).same
        (sameAccount_applyAndBroadcast _ _)
  · rw [if_neg hshape]
    by_cases hdone : hash ∈ c.completedTasks ∨ hash ∈ c.failedTasks
    · rw [if_pos hdone]
      exact h
    · rw [if_neg hdone]
      have hcounts' := fun entry hentry => hcounts entry hentry (.inr (not_or.mp hdone))
      unfold recordFailure
      cases hrecovered : c.recoverOnTerminal hash with
      | none =>
        have hrecorded : c.SameAccount { c with
            failedTasks := c.failedTasks.insert hash errorType } := sameAccount_of_eq rfl rfl
        exact h.same (hrecorded.trans (sameAccount_applyAndBroadcast _ _))
      | some recovered =>
        obtain ⟨task, c'⟩ := recovered
        obtain ⟨p, hfrees⟩ := frees_of_recovered hrecovered
        obtain ⟨hfreed, rfl⟩ := h.frees hfrees hcounts'
        have hrecorded : c'.SameAccount { c' with
            failedTasks := c'.failedTasks.insert hash errorType } := sameAccount_of_eq rfl rfl
        exact accounted_noteItemFailed (hfreed.same ((hrecorded.trans
          (sameAccount_applyAndBroadcast _ _)).countDown _))

omit h in
omit [RecordCodec I] [DonePayloadCodec] in
/-- What a commanded failure does before it is originated. -/
theorem failPermanentCascadeMutations_eq_some {mutations : List (ClusterMutation I)}
    (hcascade : c.failPermanentCascadeMutations hash error reason = some (p, mutations, c')) :
    ∃ pool, ∃ cascaded : List (TaskInfo I), (c.pool.decrementInFlight p).Cascades ↑cascaded pool ∧
      ((error.isUnfulfillable = true ∧ mutations = .taskFailed hash error reason .default 0 ::
            (cascaded.map computeTaskHash).map (fun x => .taskBlocked x hash) ∧
          c' = { c with pool, failedTasks := c.failedTasks.insert hash error }) ∨
        (error.isUnfulfillable = false ∧ mutations = [.taskFailed hash error reason .default 0] ∧
          c' = { c with
            pool
            failedTasks := (cascaded.map computeTaskHash).foldl (fun m x => m.insert x error)
              (c.failedTasks.insert hash error) })) := by
  obtain ⟨⟨p', taskId⟩, -, heq⟩ := Option.map_eq_some_iff.mp hcascade
  have hpool := cascades_onItemFailedPermanent c.pool p' taskId
  split_ifs at heq with hkind
  · cases heq
    exact ⟨_, _, hpool, .inl ⟨hkind, rfl, rfl⟩⟩
  · cases heq
    exact ⟨_, _, hpool, .inr ⟨by simpa using hkind, rfl, rfl⟩⟩

omit h in
omit [RecordCodec I] [DonePayloadCodec] in
/-- The first half of a commanded failure counts the phase of its task down. -/
theorem failPermanentCascadeMutations_account {mutations : List (ClusterMutation I)}
    (hcascade : c.failPermanentCascadeMutations hash error reason = some (p, mutations, c')) :
    (∃ taskId, c.cluster.taskMetaForHash hash = some (p, taskId)) ∧ c'.cluster = c.cluster ∧
      (c.countDown p).SameAccount c' := by
  obtain ⟨⟨p', taskId⟩, hmeta, heq⟩ := Option.map_eq_some_iff.mp hcascade
  have hpool := cascades_onItemFailedPermanent c.pool p' taskId
  split_ifs at heq
  all_goals
    cases heq
    exact ⟨⟨taskId, hmeta⟩, rfl, rfl, hpool.inFlight, hpool.filed⟩

omit h in
/-- A commanded failure counts the phase of its task down twice. -/
theorem applyFailPermanent_account (hmeta : c.cluster.taskMetaForHash hash = some (p, taskId))
    (error : ErrorType) (reason : String) :
    ((c.countDown p).countDown p).SameAccount (c.applyFailPermanent hash error reason).1 := by
  unfold applyFailPermanent
  cases hcascade : c.failPermanentCascadeMutations hash error reason with
  | none => cases hmeta.symm.trans (Option.map_eq_none_iff.mp hcascade)
  | some result =>
    obtain ⟨p', mutations, c'⟩ := result
    obtain ⟨⟨taskId', hmeta'⟩, -, hsame⟩ := failPermanentCascadeMutations_account hcascade
    cases hmeta.symm.trans hmeta'
    exact ((hsame.trans (sameAccount_applyAndBroadcast c' mutations)).countDown p).trans
      (sameAccount_noteItemFailed _ p none none)

/-- A commanded failure leaves the counters right if its phase has nothing in flight. -/
theorem accounted_applyFailPermanent (hidle : ∀ p taskId,
    c.cluster.taskMetaForHash hash = some (p, taskId) → c.pool.inFlight p = 0) :
    (c.applyFailPermanent hash error reason).1.Accounted := by
  cases hmeta : c.cluster.taskMetaForHash hash with
  | none =>
    rw [applyFailPermanent, failPermanentCascadeMutations, hmeta]
    exact h
  | some =>
    have hzero := hidle _ _ hmeta
    refine ((h.countDown_of_zero hzero).countDown_of_zero ?_).same
      (applyFailPermanent_account hmeta error reason)
    rw [inFlight_countDown_of_zero hzero, hzero]

omit h in
omit [RecordCodec I] [DonePayloadCodec] in
/-- The first part of a batch, in which every task belongs to a phase with nothing in flight. -/
theorem accounted_failPermanentAll (items : List (TaskHash × ErrorType × String)) (h : c.Accounted)
    (hidle : ∀ item ∈ items, ∀ p taskId, c.cluster.taskMetaForHash item.1 = some (p, taskId) →
      c.pool.inFlight p = 0) : (c.failPermanentAll items).2.2.Accounted ∧
      (∀ q, (c.failPermanentAll items).2.2.pool.inFlight q = c.pool.inFlight q) ∧
      ∀ p ∈ (c.failPermanentAll items).1, c.pool.inFlight p = 0 := by
  induction items generalizing c with
  | nil => exact ⟨h, fun q => rfl, fun p hp => by cases hp⟩
  | cons item items ih =>
    obtain ⟨hash, error, reason⟩ := item
    have hrest := fun item hitem => hidle item (mem_cons_of_mem _ hitem)
    unfold failPermanentAll
    cases hcascade : c.failPermanentCascadeMutations hash error reason with
    | none => exact ih h hrest
    | some result =>
      obtain ⟨p, mutations, c'⟩ := result
      obtain ⟨⟨taskId, hmeta⟩, hcluster, hsame⟩ := failPermanentCascadeMutations_account hcascade
      have hzero := hidle _ mem_cons_self p taskId hmeta
      have hcounts : ∀ q, c'.pool.inFlight q = c.pool.inFlight q := fun q =>
        (hsame.inFlight_pool).trans (inFlight_countDown_of_zero hzero q)
      obtain ⟨hacc, hkept, hphases⟩ := ih ((h.countDown_of_zero hzero).same hsame) (by
        intro item hitem q id hq
        rw [hcounts]
        exact hrest item hitem q id (hcluster ▸ hq))
      exact ⟨hacc, fun q => (hkept q).trans (hcounts q), forall_mem_cons.mpr
        ⟨hzero, fun q hq => (hcounts q).symm.trans (hphases q hq)⟩⟩

/-- A batch of commanded failures leaves the counters right if none of its phases has anything in
flight. -/
theorem accounted_applyFailPermanentBatch {items : List (TaskHash × ErrorType × String)}
    (hidle : ∀ item ∈ items, ∀ p taskId, c.cluster.taskMetaForHash item.1 = some (p, taskId) →
      c.pool.inFlight p = 0) : (c.applyFailPermanentBatch items).Accounted := by
  obtain ⟨hacc, hkept, hphases⟩ := accounted_failPermanentAll items h hidle
  have hsame := sameAccount_applyAndBroadcast (c.failPermanentAll items).2.2
    (c.failPermanentAll items).2.1
  -- The second round counts every phase of the batch down once more.
  have hround : ∀ (phases : List PhaseId) (c' : Coordinator I), c'.Accounted →
      (∀ p ∈ phases, c'.pool.inFlight p = 0) →
      (phases.foldl (fun c phaseId => { c with pool := c.pool.onItemFinished phaseId none })
        c').Accounted := by
    intro phases
    induction phases with
    | nil => exact fun c' hc' _ => hc'
    | cons p phases ih =>
      intro c' hc' hzero
      have hp := hzero p mem_cons_self
      have hfinished := sameAccount_onItemFinished c' p none
      refine ih _ ((hc'.countDown_of_zero hp).same hfinished) fun q hq => ?_
      rw [hfinished.inFlight_pool, inFlight_countDown_of_zero hp]
      exact hzero q (mem_cons_of_mem _ hq)
  refine hround _ _ (hacc.same hsame) fun p hp => ?_
  rw [hsame.inFlight_pool, hkept]
  exact hphases p hp

omit h in
omit [RecordCodec I] [DonePayloadCodec] in
/-- The setup task that is taken is the one asked for. -/
theorem hash_of_takeSetupTask {task : TaskInfo I} {pool : PendingPool I}
    (htake : c.takeSetupTask hash = some (task, pool)) : computeTaskHash task = hash := by
  unfold takeSetupTask at htake
  split_ifs at htake
  exact of_decide_eq_true (takes_takeFirstMatch htake).2

omit h in
omit [RecordCodec I] [DonePayloadCodec] in
/-- The setup task that is taken leaves the stock. -/
theorem takeSetupTask_sheds {task : TaskInfo I} {pool : PendingPool I}
    (htake : c.takeSetupTask hash = some (task, pool)) : c.pool.Sheds task pool := by
  unfold takeSetupTask at htake
  split_ifs at htake
  exact sheds_takeFirstMatch htake

/-- A setup task that the primary runs itself is counted up and down. -/
theorem accounted_executeSetupLocally (halone : ∀ task pool, outcome ≠ .success →
      c.takeSetupTask hash = some (task, pool) →
      (∃ taskId, c.cluster.taskMetaForHash hash = some (task.phaseId, taskId)) ∧
        c.pool.inFlight task.phaseId = 0) :
    (c.executeSetupLocally hash outcome).Accounted := by
  unfold executeSetupLocally
  cases htake : c.takeSetupTask hash with
  | none => exact h
  | some taken =>
    obtain ⟨task, pool⟩ := taken
    have hpool := sameAccount_of_sheds (takeSetupTask_sheds htake)
    have hcounted := (h.same hpool).countUp_countDown task.phaseId
    cases outcome with
    | success =>
      refine accounted_noteItemCompleted (hcounted.same ?_) _
      exact (sameAccount_applyAndBroadcast _ [.setupCompleted hash]).countDown _
    | failure reason =>
      obtain ⟨⟨taskId, hmeta⟩, hzero⟩ := halone task pool SetupOutcome.noConfusion htake
      refine (hcounted.countDown_of_zero ?_).same
        (applyFailPermanent_account (c := { c with pool := pool.markInFlight task.phaseId }) hmeta
          .nonRecoverable reason)
      change ((pool.markInFlight task.phaseId).decrementInFlight task.phaseId).inFlight _ = 0
      rw [inFlight_decrementInFlight, inFlight_markInFlight, hpool.inFlight_pool, hzero]
      simp

/-- An assigned setup task is counted, and counted down if it comes back. -/
theorem accounted_assignSetupOffPrimary (hnew : ∀ task pool,
      c.takeSetupTask hash = some (task, pool) →
      task.kind.countsForPhaseDrain = true ∧ hash ∉ c.inFlight) :
    (c.assignSetupOffPrimary hash member delivered).Accounted := by
  unfold assignSetupOffPrimary
  cases htake : c.takeSetupTask hash with
  | none => exact h
  | some taken =>
    obtain ⟨task, pool⟩ := taken
    have hpool := sameAccount_of_sheds (takeSetupTask_sheds htake)
    obtain ⟨hkind, hnew⟩ := hnew task pool htake
    have hassigned := (h.same hpool).dispatched ⟨task.phaseId, member, none, task⟩
      hnew hkind rfl
    have hbase := hassigned.same
      (sameAccount_applyAndBroadcast _ [.taskAssigned hash member 0 .default 0])
    split_ifs
    · exact hbase
    · -- The entry is dropped again, and the task comes back to the queue.
      have hentry : ((({ c with
          pool := pool.markInFlight task.phaseId
          inFlight := c.inFlight.insert hash ⟨task.phaseId, member, none, task⟩ } :
            Coordinator I).applyAndBroadcast [.taskAssigned hash member 0 .default
              0]).inFlight).lookup
          hash = some ⟨task.phaseId, member, none, task⟩ := by
        exact AList.lookup_insert _
      have hdropped := hbase.settled hentry hkind
      refine (hdropped.same ?_).same (sameAccount_requeue _ task)
      exact (sameAccount_applyAndBroadcast _ [.taskRequeued hash .default]).countDown _

/-- The terminal of a setup task. A failure counts its phase down twice. -/
theorem accounted_handleSetupTerminal
    (honce : ∀ entry, c.inFlight.lookup hash = some entry → entry.Counts ∧ (outcome ≠ .success →
      (∃ taskId, c.cluster.taskMetaForHash hash = some (entry.phase, taskId)) ∧
        c.pool.inFlight entry.phase = 1)) :
    (c.handleSetupTerminal hash outcome).Accounted := by
  unfold handleSetupTerminal
  cases hentry : c.inFlight.lookup hash with
  | none => exact h
  | some entry =>
    obtain ⟨hcounts, halone⟩ := honce entry hentry
    have hsettled := h.settled hentry hcounts
    cases outcome with
    | success =>
      refine accounted_noteItemCompleted (hsettled.same ?_) _
      exact (sameAccount_applyAndBroadcast _ [.setupCompleted hash]).countDown _
    | failure reason =>
      obtain ⟨⟨taskId, hmeta⟩, hone⟩ := halone SetupOutcome.noConfusion
      refine (hsettled.countDown_of_zero ?_).same
        (applyFailPermanent_account (c := c.dropInFlight hash) hmeta .nonRecoverable reason)
      change (c.pool.decrementInFlight entry.phase).inFlight entry.phase = 0
      rw [inFlight_decrementInFlight, hone]
      simp

/-- A task that is handed out is counted, and counted down again if it does not get there. -/
theorem accounted_dispatches {key : BucketKey}
    (hnew : ∀ task evicted, c.pool.removeAt key index = some (task, evicted) →
      task.kind.countsForPhaseDrain = true ∧ computeTaskHash task ∉ c.inFlight)
    (hcases : c.Dispatches key index c') : c'.Accounted := by
  have hevicted : ∀ {task evicted}, c.pool.removeAt key index = some (task, evicted) →
      ({ c with pool := evicted } : Coordinator I).Accounted ∧ key.phaseId = task.phaseId := by
    intro task evicted hremove
    exact ⟨h.same (sameAccount_of_sheds (sheds_removeAt hremove)),
      (h.filed.phaseId_of_removeAt hremove).symm⟩
  cases hcases with
  | nothing hdraws => exact h.same (sameAccount_of_draws hdraws)
  | @returned task evicted pool workers inFlight hremove hout hinFlight =>
    obtain ⟨hbase, hkey⟩ := hevicted hremove
    rw [hkey] at hout
    have htaken : ({ c with pool := evicted }.countUp task.phaseId).SameAccount { c with pool } :=
      ⟨rfl, hout.inFlight, hout.filed⟩
    have hnone := AList.lookup_eq_none.mpr (hnew task evicted hremove).2
    rw [erase_of_lookup_none hnone, or_self] at hinFlight
    exact (((hbase.countUp_countDown task.phaseId).same (htaken.countDown task.phaseId)).same
      (sameAccount_requeue { c with pool } task)).same (sameAccount_of_eq hinFlight rfl)
  | @assigned evicted pool workers entry hremove hout hphase =>
    obtain ⟨hbase, hkey⟩ := hevicted hremove
    rw [hkey, ← hphase] at hout
    obtain ⟨hkind, hfresh⟩ := hnew _ evicted hremove
    have hassigned := hbase.dispatched entry hfresh hkind hphase.symm
    refine Accounted.same ?_ (sameAccount_applyAndBroadcast _ _)
    exact hassigned.same ⟨rfl, hout.inFlight, hout.filed⟩

end

section Recovery

variable {secondary : String}

omit [DefaultHasher] [Identifier I] [RecordCodec I] [DonePayloadCodec] in
/-- What a secondary that ran no setup task takes along is recovered. -/
theorem accounted_recoverInFlightForDeadSecondary (h : c.Accounted)
    (hkind : ∀ hash entry, c.inFlight.lookup hash = some entry → entry.secondaryId = secondary →
      entry.Counts → entry.task.kind.isReassignable = true) :
    (c.recoverInFlightForDeadSecondary secondary).1.Accounted := by
  refine (recoverInFlightForDeadSecondary_frame (P := Accounted) (Q := fun _ => True) h
    fun c' hash entry hc' hentry hsecondary hstill => ⟨?_, fun _ _ => trivial⟩).1
  by_cases hcounts : entry.Counts
  · have hwork := hkind hash entry hentry hsecondary hcounts
    exact (hc'.settled hstill hcounts).same
      (recoverInFlight_account c' hash (hc'.phases hash entry hstill) hwork)
  · have hcell : entry.task.kind.hasSecondaryCell = true := by
      cases hk : entry.task.kind with
      | secondaryAffine | secondaryEagerPrep => rfl
      | _ => exact absurd (by rw [InFlightEntry.Counts, hk]; rfl) hcounts
    unfold recoverInFlight
    rw [if_pos hcell]
    refine hc'.dropped fun entry' hentry' => ?_
    cases hstill.symm.trans hentry'
    exact hcounts

/-- The death of a secondary that ran no setup task. -/
theorem accounted_requeueDeadSecondary (h : c.Accounted)
    (hkind : ∀ hash entry, c.inFlight.lookup hash = some entry → entry.secondaryId = secondary →
      entry.Counts → entry.task.kind.isReassignable = true) :
    (c.requeueDeadSecondary secondary).Accounted := by
  have hrecovered := accounted_recoverInFlightForDeadSecondary h hkind
  have hpool := sameStock_releaseAll
    (((c.recoverInFlightForDeadSecondary secondary).1.workers.filter
      fun w => w.secondaryId = secondary).map RemoteWorkerState.workerId)
    (c.recoverInFlightForDeadSecondary secondary).1.pool
  refine Accounted.same ?_ (sameAccount_applyAndBroadcast _ _)
  exact hrecovered.same ⟨rfl, hpool.inFlight, hpool.filed⟩

/-- The imports of a silent secondary are dropped first. -/
theorem accounted_requeueSilentHeldWork (h : c.Accounted)
    (hkind : ∀ hash entry, c.inFlight.lookup hash = some entry → entry.secondaryId = secondary →
      entry.Counts → entry.task.kind.isReassignable = true) :
    (c.requeueSilentHeldWork secondary).Accounted := by
  have hlegs : ∀ leg ∈ c.affineLegs secondary, ∀ entry,
      c.inFlight.lookup leg.1 = some entry → ¬ entry.Counts := by
    intro leg hleg entry hentry hcounts
    obtain ⟨⟨hash, entry'⟩, hmem, hsome⟩ := mem_filterMap.mp hleg
    split_ifs at hsome with hcell
    obtain ⟨workerId, -, rfl⟩ := Option.map_eq_some_iff.mp hsome
    cases hentry.symm.trans (mem_entries_iff.mp hmem)
    simp only [Bool.and_eq_true] at hcell
    obtain ⟨⟨-, haffine⟩, -⟩ := hcell
    rw [InFlightEntry.Counts] at hcounts
    cases hk : entry.task.kind with
    | secondaryAffine =>
      rw [hk] at hcounts
      cases hcounts
    | _ =>
      rw [hk] at haffine
      cases haffine
  have hfreed : ∀ c' : Coordinator I, c' = (c.affineLegs secondary).foldl (fun c leg =>
      c.freeAffineSlotOnTerminal secondary leg.2 leg.1) c → c'.Accounted ∧
      ∀ hash entry, c'.inFlight.lookup hash = some entry → c.inFlight.lookup hash = some entry := by
    rintro c' rfl
    refine foldlRecOn (motive := fun c' : Coordinator I => c'.Accounted ∧ ∀ hash entry,
      c'.inFlight.lookup hash = some entry → c.inFlight.lookup hash = some entry) _ _
      ⟨h, fun _ _ => id⟩ ?_
    rintro c' ⟨hacc, hsub⟩ leg hleg
    refine ⟨accounted_freeAffineSlotOnTerminal hacc fun entry hentry =>
      hlegs leg hleg entry (hsub _ _ hentry), fun hash entry hentry => ?_⟩
    obtain ⟨workers, inFlight, rfl | rfl, heq⟩ :=
      freeAffineSlotOnTerminal_frame c' secondary leg.2 leg.1
    · rw [heq] at hentry
      exact hsub hash entry hentry
    · rw [heq] at hentry
      exact hsub hash entry (lookup_of_erase hentry)
  obtain ⟨hacc, hsub⟩ := hfreed _ rfl
  have hrecovered := accounted_recoverInFlightForDeadSecondary hacc fun hash entry hentry =>
    hkind hash entry (hsub hash entry hentry)
  unfold requeueSilentHeldWork
  dsimp only
  split_ifs
  · exact hrecovered
  · refine Accounted.same ?_ (sameAccount_applyAndBroadcast _ _)
    have hpool := sameStock_releaseAll (((((c.affineLegs secondary).foldl (fun c leg =>
      c.freeAffineSlotOnTerminal secondary leg.2 leg.1) c).recoverInFlightForDeadSecondary
        secondary).1.workers.filter fun w => w.secondaryId = secondary &&
          w.state.holds.isSome).map RemoteWorkerState.workerId)
      (((c.affineLegs secondary).foldl (fun c leg =>
        c.freeAffineSlotOnTerminal secondary leg.2 leg.1) c).recoverInFlightForDeadSecondary
          secondary).1.pool
    exact hrecovered.same ⟨rfl, hpool.inFlight, hpool.filed⟩

end Recovery

/-- A published chunk keeps the account. -/
theorem sameAccount_applySpawnTasksChunk (c : Coordinator I) (tasks : List (TaskInfo I))
    (baseIndex : ℕ) : c.SameAccount (c.applySpawnTasksChunk tasks baseIndex).1 := by
  unfold applySpawnTasksChunk
  dsimp only
  split_ifs
  · exact sameAccount_of_eq rfl rfl
  · refine SameAccount.trans ?_ (foldl_related .refl .trans (fun c => c)
      sameAccount_routeSpawned _ _)
    refine (sameAccount_applyAndBroadcast c [.tasksSpawned (c.validateChunk tasks).1 []]).trans ?_
    exact sameAccount_markAffinePrereqs

/-- Publishing keeps the account. -/
theorem sameAccount_pumpSpawnContinuation : c.SameAccount c.pumpSpawnContinuation.1 :=
  pumpSpawnContinuation_frame (.refl c) (fun _ h => h.trans (sameAccount_of_eq rfl rfl))
    fun tasks baseIndex h => h.trans (sameAccount_applySpawnTasksChunk _ tasks baseIndex)

/-- Spawning keeps the account. -/
theorem sameAccount_applySpawnTasks {tasks : List (TaskInfo I)} :
    c.SameAccount (c.applySpawnTasks tasks) := by
  unfold applySpawnTasks
  split
  · exact .refl c
  · split
    · exact (sameAccount_applyAndBroadcast _ _).trans (sameAccount_applyAndBroadcast _ _)
    · exact sameAccount_of_eq rfl rfl

/-- Offering a task again keeps the account. -/
theorem sameAccount_applyReinjectTask : c.SameAccount (c.applyReinjectTask hash budgetLeft).1 := by
  unfold applyReinjectTask
  split
  · exact .refl c
  · rename_i st _
    split
    · split
      · have hqueued : c.SameAccount { c with
            failedTasks := c.failedTasks.erase hash
            pool := c.pool.reinject (c.cluster.taskToInfo st) } := by
          have hpool := draws_reinject c.pool (c.cluster.taskToInfo st)
          exact ⟨rfl, hpool.inFlight, hpool.filed⟩
        dsimp only
        exact hqueued.trans (sameAccount_applyAndBroadcast _ _)
      · exact .refl c
    · exact .refl c

/-- Changing the preferred secondaries keeps the account. -/
theorem sameAccount_applyUpdatePreferredSecondaries :
    c.SameAccount (c.applyUpdatePreferredSecondaries hash secondaries).1 := by
  unfold applyUpdatePreferredSecondaries
  split
  · have hupdated : c.SameAccount { c with
        pool := c.pool.updateFirstMatchInPlace (fun task => computeTaskHash task = hash)
          fun task => { task with preferredSecondaries := secondaries } } := by
      refine ⟨rfl, ?_, fun hfiled => ?_⟩
      · rw [updateFirstMatchInPlace_eq]
      · exact filed_updateFirstMatchInPlace hfiled fun _ => rfl
    dsimp only
    exact hupdated.trans (sameAccount_applyAndBroadcast _ _)
  · exact .refl c

/-- A retry pass keeps the account. -/
theorem sameAccount_tryRunPhaseRetryBucket {plan : MemoryPlan I} {kind : BucketKind} :
    c.SameAccount (c.tryRunPhaseRetryBucket plan phase kind budgetLeft).1 := by
  unfold tryRunPhaseRetryBucket
  dsimp only
  split_ifs
  · exact .refl c
  · refine SameAccount.trans ?_ (sameAccount_applyAndBroadcast _ _)
    refine foldl_related .refl .trans (fun c => c) (fun c task => ?_) _ c
    have hpool := draws_reinject c.pool task
    exact ⟨rfl, hpool.inFlight, hpool.filed⟩

/-- Finalizing the failures of a phase keeps the account. -/
theorem sameAccount_finalizePhaseSoftFailures :
    c.SameAccount (c.finalizePhaseSoftFailures phase) := by
  refine SameAccount.trans ?_ (sameAccount_applyAndBroadcast _ _)
  have hpool := (cascades_finalizeSoftFailures c.pool phase).draws
  refine foldlRecOn (motive := fun acc : Coordinator I × List (ClusterMutation I) =>
    c.SameAccount acc.1) _ _ (sameAccount_of_draws hpool) ?_
  exact fun acc h pair _ => h.trans (sameAccount_buildCascade acc.1 pair.1 pair.2)

/-- The end of a phase keeps the account. -/
theorem sameAccount_recordPhaseEnd : c.SameAccount (c.recordPhaseEnd phase) :=
  (sameAccount_applyAndBroadcast c [.control (.phaseEnded phase)]).trans
    (sameAccount_of_draws draws_markPhaseDone)

omit [DefaultHasher] [Identifier I] [RecordCodec I] [DonePayloadCodec] in
/-- Queuing the orphans keeps the account. -/
theorem sameAccount_requeueOrphans (depAlive : String → Bool) :
    c.SameAccount (c.requeueOrphans depAlive) := by
  have hout := cascades_reconcileBlocked c.pool depAlive
  have hback := Draws.foldl draws_pushToQueueHead (c.pool.reconcileBlocked depAlive).2
    (c.pool.reconcileBlocked depAlive).1
  exact ⟨rfl, hback.inFlight.trans hout.inFlight, fun hfiled => hback.filed (hout.filed hfiled)⟩

end Steps

section Reconcile

variable [DefaultHasher] [Identifier I] [RecordCodec I] [DonePayloadCodec] {c : Coordinator I}
  (h : c.Accounted)
include h

/-- A task that is counted is dispatched, or comes back and is counted down. -/
theorem accounted_dispatchOrRequeue {task : TaskInfo I} (workerIdx : ℕ) (delivered : Bool)
    (hnew : computeTaskHash task ∉ c.inFlight) (hkind : task.kind.countsForPhaseDrain = true) :
    ((c.countUp task.phaseId).dispatchOrRequeue workerIdx task delivered).Accounted := by
  unfold dispatchOrRequeue
  rcases dispatchOneAssignment_cases (c.countUp task.phaseId) workerIdx task delivered with
    ⟨workers, entry, rfl, hphase, heq⟩ | ⟨workers, inFlight, hinFlight, heq⟩
  · rw [heq]
    refine Accounted.same ?_ (sameAccount_applyAndBroadcast _ _)
    have hassigned := h.dispatched entry hnew hkind hphase.symm
    rw [hphase] at hassigned
    exact hassigned.same (sameAccount_of_eq rfl rfl)
  · rw [heq]
    change inFlight = c.inFlight ∨ inFlight = c.inFlight.erase _ at hinFlight
    rw [erase_of_lookup_none (AList.lookup_eq_none.mpr hnew), or_self] at hinFlight
    exact ((h.countUp_countDown task.phaseId).same
      (sameAccount_requeue (c.countUp task.phaseId) task)).same (sameAccount_of_eq hinFlight rfl)

/-- Dispatched affine work is counted. -/
theorem accounted_dispatchAffineWork {hash : TaskHash} (workerIdx : ℕ) (delivered : Bool)
    (hnew : ∀ st taken, c.cluster.tasks.lookup hash = some st →
      c.pool.takeFirstMatch (fun task => computeTaskHash task = hash) = some taken →
      (c.cluster.taskToInfo st).kind.countsForPhaseDrain = true ∧
        computeTaskHash (c.cluster.taskToInfo st) ∉ c.inFlight) :
    (c.dispatchAffineWork workerIdx hash delivered).Accounted := by
  unfold dispatchAffineWork
  split
  · exact h
  · rename_i st hst
    dsimp only
    split
    · exact h
    · rename_i task pool htake
      obtain ⟨hkind, hfresh⟩ := hnew st _ hst htake
      exact accounted_dispatchOrRequeue (h.same (sameAccount_of_sheds (sheds_takeFirstMatch htake)))
        workerIdx delivered hfresh hkind

/-- An import or an eager preparation is not counted. -/
theorem accounted_dispatchCell {hash : TaskHash} (workerIdx : ℕ) (delivered : Bool)
    (hcell : ∀ st, c.cluster.tasks.lookup hash = some st →
      (c.cluster.taskToInfo st).kind.countsForPhaseDrain = false ∧ ∀ entry,
        c.inFlight.lookup (computeTaskHash (c.cluster.taskToInfo st)) = some entry →
          ¬ entry.Counts) : (c.dispatchCell workerIdx hash delivered).Accounted := by
  unfold dispatchCell
  split
  · exact h
  · rename_i st hst
    obtain ⟨hkind, hold⟩ := hcell st hst
    split_ifs
    · exact h
    · rcases dispatchOneAssignment_cases c workerIdx (c.cluster.taskToInfo st) delivered with
        ⟨workers, entry, htask, hphase, heq⟩ | ⟨workers, inFlight, rfl | rfl, heq⟩
      · rw [heq]
        dsimp only
        refine Accounted.same ?_ (sameAccount_applyAndBroadcast _ _)
        have hcelled := h.celled (computeTaskHash (c.cluster.taskToInfo st)) entry
          (by rw [InFlightEntry.Counts, htask, hkind]; exact Bool.false_ne_true)
          (by rw [htask, hphase]) hold
        exact hcelled.same (sameAccount_of_eq rfl rfl)
      · rw [heq]
        exact h.same (sameAccount_of_eq rfl rfl)
      · rw [heq]
        exact (h.dropped hold).same (sameAccount_of_eq rfl rfl)

/-- An entry whose task is queued again is counted down. -/
theorem Accounted.returned {hash : TaskHash} {entry : InFlightEntry I} {task : TaskInfo I}
    (hentry : c.inFlight.lookup hash = some entry) (hcounts : entry.Counts)
    (hphase : task.phaseId = entry.phase) (workers : List (RemoteWorkerState I)) :
    (({ c with workers, inFlight := c.inFlight.erase hash, pool := c.pool.requeue task } :
      Coordinator I).applyAndBroadcast [.taskRequeued hash .default]).Accounted := by
  refine Accounted.same ?_ (sameAccount_applyAndBroadcast _ _)
  have hsettled := h.settled hentry hcounts
  rw [← hphase] at hsettled
  exact (hsettled.same (sameAccount_requeue (c.dropInFlight hash) task)).same
    (sameAccount_of_eq rfl rfl)

/-- A bounced task is counted down. -/
theorem accounted_handleIllegallyAssigned {secondary : String} {workerId : ℕ} {assigned : TaskHash}
    {incumbent : Option TaskHash}
    (hcounts : ∀ entry, c.inFlight.lookup assigned = some entry →
      (entry.Counts ↔ (c.cluster.affineIdForHash assigned).isSome = false)) :
    (c.handleIllegallyAssigned secondary workerId assigned incumbent).Accounted := by
  have hbounced : (c.handleIllegallyAssigned secondary workerId assigned none).Accounted := by
    unfold handleIllegallyAssigned
    dsimp only
    split_ifs with haffine
    · refine accounted_freeAffineSlotOnTerminal h fun entry hentry hcounts' => ?_
      rw [(hcounts entry hentry).mp hcounts'] at haffine
      cases haffine
    · split
      · rename_i entry c' hbounce
        obtain ⟨entry', hentry, heq⟩ := Option.map_eq_some_iff.mp hbounce
        cases heq
        obtain ⟨workers, hvacated⟩ := vacateHolding_frame c (c.slotOf entry) assigned
        rw [hvacated]
        exact h.returned hentry ((hcounts _ hentry).mpr (Bool.eq_false_iff.mpr haffine))
          (h.phases _ _ hentry) workers
      · exact h
  cases incumbent with
  | none => exact hbounced
  | some => exact hbounced.reseated (seatIncumbent_reseats _ _ _ _)

omit [DefaultHasher] [Identifier I] [RecordCodec I] [DonePayloadCodec] in
/-- A roster keeps the account. -/
theorem accounted_handleInflightRoster [DecidableEq I] (secondary : String) (current : Bool)
    (entries : List (TaskHash × ℕ)) :
    (c.handleInflightRoster secondary current entries).Accounted := by
  unfold handleInflightRoster
  split_ifs
  · exact foldlRecOn (motive := Accounted) _ _ h fun c' hc' _ _ =>
      hc'.reseated (reconcileAuthoritativeHolder_reseats _ _ _ _)
  · exact h

/-- A worker that asks for work gives back the task of an earlier primary. -/
theorem accounted_reconcileInheritedSlot {workerIdx : ℕ}
    (hslot : ∀ hash task, (c.workers[workerIdx]?).map RemoteWorkerState.state =
      some (.assigned hash task .inherited) →
      if c.cluster.viewIsTerminal hash then
        ∀ entry, c.inFlight.lookup hash = some entry → entry.Counts
      else ∃ entry, c.inFlight.lookup hash = some entry ∧ entry.Counts ∧
        task.phaseId = entry.phase) : (c.reconcileInheritedSlot workerIdx).Accounted := by
  unfold reconcileInheritedSlot
  split
  · rename_i hash task hheld
    have hentry := hslot hash task hheld
    split_ifs at hentry ⊢
    · exact accounted_settleLocalState h hentry
    · obtain ⟨entry, hlookup, hcounts, hphase⟩ := hentry
      exact h.returned hlookup hcounts hphase _
  · exact h

omit [DefaultHasher] [Identifier I] [RecordCodec I] [DonePayloadCodec] in
/-- A failure report about an import drops no entry that counts. -/
theorem accounted_handleAffineTaskFailed {secondary errorMessage : String} {workerId : ℕ}
    {hash : TaskHash} {globallyFailed : Bool}
    (hcounts : ∀ entry, c.inFlight.lookup hash = some entry → ¬ entry.Counts) :
    (c.handleAffineTaskFailed secondary workerId hash errorMessage globallyFailed).Accounted := by
  have htold : c.SameAccount (if isBackpressureShaped errorMessage || !globallyFailed then c
      else c.recordImportFailure hash) := by
    split_ifs
    · exact .refl c
    · exact sameAccount_recordImportFailure c hash
  exact accounted_freeAffineSlotOnTerminal (h.same htold) fun entry hentry =>
    hcounts entry (htold.inFlight ▸ hentry)

end Reconcile

end Coordinator

end DynRunner
