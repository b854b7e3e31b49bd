import DynRunner.Primary.Accounting
import DynRunner.Primary.SpawnOrder

/-!
# Settled tasks are not in flight

The coordinator keeps the hashes of the tasks that have completed or failed. A task that counts for
its phase is in flight only until it is settled, provided that its terminal finds the slot that its
entry names, and that none of the tasks that fail with another one is in flight. This file follows
the two sets and the in-flight ledger through the handlers of the coordinator.
-/

namespace DynRunner.Coordinator

open HashMap PendingPool List

variable {I : Type}

section

variable (c : Coordinator I)

/-- A task that counts for its phase is in flight. -/
def Running (hash : TaskHash) : Prop := ∃ entry, c.inFlight.lookup hash = some entry ∧ entry.Counts

/-- The end of a task has been accounted for. -/
def Settled (hash : TaskHash) : Prop := hash ∈ c.completedTasks ∨ hash ∈ c.failedTasks

/-- The tasks of a phase that have been dispatched and not yet settled. -/
def outstanding (p : PhaseId) : ℕ := c.inFlight.count fun hash entry =>
  entry.counted = some p ∧ hash ∉ c.completedTasks ∧ hash ∉ c.failedTasks

/-- No task that counts is in flight and settled. -/
def Unsettled : Prop := ∀ hash, c.Running hash → ¬ c.Settled hash

/-- A terminal of a task frees the entry of the task, which counts. -/
def Ends (hash : TaskHash) : Prop := ∀ entry, c.inFlight.lookup hash = some entry →
  entry.Counts ∧ (c.freeSlotOnTerminal hash).isSome = true

/-- A change after which no more tasks are running, and nothing that runs is settled by it. -/
def Clears (c c' : Coordinator I) : Prop :=
  ∀ hash, c'.Running hash → c.Running hash ∧ (c'.Settled hash → c.Settled hash)

end

section Clears

variable {c c' c'' : Coordinator I} {hash : TaskHash} {entry : InFlightEntry I}

theorem Clears.refl (c : Coordinator I) : c.Clears c := fun _ hrunning => ⟨hrunning, id⟩

theorem Clears.trans (h : c.Clears c') (h' : c'.Clears c'') : c.Clears c'' := by
  intro hash hrunning
  obtain ⟨hrunning', hsettled'⟩ := h' hash hrunning
  obtain ⟨hrunning'', hsettled⟩ := h hash hrunning'
  exact ⟨hrunning'', fun hset => hsettled (hsettled' hset)⟩

/-- Where nothing running is settled, clearing settles nothing running. -/
theorem Unsettled.clears (h : c.Unsettled) (hclears : c.Clears c') : c'.Unsettled := by
  intro hash hrunning hsettled
  obtain ⟨hrunning', hback⟩ := hclears hash hrunning
  exact h hash hrunning' (hback hsettled)

/-- Entries may go, and only what does not run is settled. -/
theorem clears_of_sub
    (hinFlight : ∀ hash entry, c'.inFlight.lookup hash = some entry →
      c.inFlight.lookup hash = some entry)
    (hsettled : ∀ hash, c'.Settled hash → c.Settled hash ∨ ¬ c'.Running hash) : c.Clears c' := by
  rintro hash ⟨entry, hentry, hcounts⟩
  refine ⟨⟨entry, hinFlight hash entry hentry, hcounts⟩, fun hset => ?_⟩
  exact (hsettled hash hset).resolve_right fun hnot => hnot ⟨entry, hentry, hcounts⟩

/-- Whether a task is running and settled is a matter of three fields. -/
theorem clears_of_eq (hinFlight : c'.inFlight = c.inFlight)
    (hcompleted : c'.completedTasks = c.completedTasks) (hfailed : c'.failedTasks = c.failedTasks) :
    c.Clears c' :=
  clears_of_sub (fun _ _ hentry => hinFlight ▸ hentry) fun hash hset => .inl (by
    rwa [Settled, hcompleted, hfailed] at hset)

/-- The entry of a task is dropped. -/
theorem clears_erase (c : Coordinator I) (hash : TaskHash) : c.Clears (c.dropInFlight hash) :=
  clears_of_sub (fun _ _ hentry => lookup_of_erase hentry) fun _ hset => .inl hset

/-- A task without entry is not running. -/
theorem not_running_of_erased (hinFlight : c'.inFlight = c.inFlight.erase hash) :
    ¬ c'.Running hash := by
  rintro ⟨entry, hentry, -⟩
  rw [hinFlight, lookup_erase_eq, if_pos rfl] at hentry
  cases hentry

/-- One task that does not run is settled. -/
theorem clears_recorded (hash : TaskHash) (hinFlight : c'.inFlight = c.inFlight)
    (hsettled : ∀ x, c'.Settled x → c.Settled x ∨ x = hash) (hnot : ¬ c.Running hash) :
    c.Clears c' := by
  refine clears_of_sub (fun _ _ hentry => hinFlight ▸ hentry) fun x hset => ?_
  rcases hsettled x hset with hold | rfl
  · exact .inl hold
  · refine .inr fun ⟨entry, hentry, hcounts⟩ => hnot ⟨entry, ?_, hcounts⟩
    rwa [hinFlight] at hentry

/-- One more failure is recorded. -/
theorem settled_insert_failed {kind : ErrorType} {x : TaskHash}
    (h : ({ c with failedTasks := c.failedTasks.insert hash kind } : Coordinator I).Settled x) :
    c.Settled x ∨ x = hash := by
  rcases h with hcompleted | hfailed
  · exact .inl (.inl hcompleted)
  · rcases AList.mem_insert _ |>.mp hfailed with rfl | hold
    · exact .inr rfl
    · exact .inl (.inr hold)

/-- Recording the terminal of a task that is not running. -/
theorem clears_recordTerminal (hnot : ¬ c.Running hash) (counterCompleted : Bool)
    (failedKind : Option ErrorType) :
    c.Clears (c.recordTerminal hash counterCompleted failedKind) := by
  unfold recordTerminal
  split
  · refine clears_recorded hash rfl (fun x hset => ?_) hnot
    rcases hset with hcompleted | hfailed
    · rcases Finset.mem_insert.mp hcompleted with rfl | hold
      · exact .inr rfl
      · exact .inl (.inl hold)
    · exact .inl (.inr (AList.mem_erase.mp hfailed).2)
  · split
    · split_ifs
      · exact .refl c
      · exact clears_recorded _ rfl (fun x => settled_insert_failed) hnot
    · exact .refl c

/-- Whether a slot is found is a matter of the slots and the entries. -/
theorem freeSlotOnTerminal_isSome_congr (hinFlight : c'.inFlight = c.inFlight)
    (hworkers : c'.workers = c.workers) :
    (c'.freeSlotOnTerminal hash).isSome = (c.freeSlotOnTerminal hash).isSome := by
  have hidx : ∀ secondary workerId,
      c'.workerIdxFor secondary workerId = c.workerIdxFor secondary workerId := fun _ _ => by
    rw [workerIdxFor, workerIdxFor, slotOwners, slotOwners, hworkers]
  have hheld : ∀ workerIdx, c'.heldBy workerIdx = c.heldBy workerIdx := fun _ => by
    rw [heldBy, heldBy, hworkers]
  unfold freeSlotOnTerminal
  rw [hinFlight]
  cases c.inFlight.lookup hash with
  | none => rfl
  | some entry =>
    dsimp only
    cases entry.localWorkerId with
    | none => rfl
    | some workerId =>
      dsimp only
      rw [hidx]
      cases c.workerIdxFor entry.secondaryId workerId with
      | none => rfl
      | some workerIdx =>
        dsimp only
        rw [hheld]
        split_ifs <;> rfl

/-- A terminal that finds no slot is about a task that is not in flight. -/
theorem Ends.notMem (hends : c.Ends hash) (hfree : c.freeSlotOnTerminal hash = none) :
    c.inFlight.lookup hash = none := by
  refine Option.eq_none_iff_forall_ne_some.mpr fun entry hentry => ?_
  have hsome := (hends entry hentry).2
  rw [hfree] at hsome
  cases hsome

/-- A task that is not in flight is not running. -/
theorem not_running_of_none (hnone : c.inFlight.lookup hash = none) : ¬ c.Running hash := by
  rintro ⟨entry, hentry, -⟩
  cases hnone.symm.trans hentry

end Clears

section Cascade

variable [DefaultHasher] [Identifier I] {c c' : Coordinator I} {hash : TaskHash} {p : PhaseId}
  {task : TaskInfo I}

/-- Nothing that the pool holds is running. -/
def Apart (c : Coordinator I) : Prop := ∀ task ∈ c.pool.stock, ¬ c.Running (computeTaskHash task)

/-- A smaller pool stays apart from what is running. -/
theorem Apart.mono (h : c.Apart) (hstock : ∀ task ∈ c'.pool.stock, task ∈ c.pool.stock)
    (hclears : c.Clears c') : c'.Apart := fun task htask hrunning =>
  h task (hstock task htask) (hclears _ hrunning).1

/-- What is left of a task goes, and its terminal leaves nothing of it in flight. -/
theorem clears_frees (hfrees : c.Frees hash task p c') : c.Clears c' := by
  cases hfrees with
  | entry workers => exact clears_of_sub (fun _ _ hentry => lookup_of_erase hentry) fun _ => .inl
  | queued => exact clears_of_eq rfl rfl rfl

/-- Freeing a task keeps the pool apart. -/
theorem Apart.frees (h : c.Apart) (hfrees : c.Frees hash task p c') : c'.Apart := by
  refine h.mono (fun x hx => ?_) (clears_frees hfrees)
  cases hfrees with
  | entry workers => exact hx
  | queued _ hshed =>
    rw [hshed.stock]
    exact Multiset.mem_cons_of_mem hx

/-- A recovered task is not running any more. -/
theorem not_running_of_recovered (hends : c.Ends hash)
    (hrecovered : c.recoverOnTerminal hash = some (task, c')) : ¬ c'.Running hash := by
  unfold recoverOnTerminal at hrecovered
  split at hrecovered
  · rename_i hfree
    cases hrecovered
    obtain ⟨workers, rfl⟩ := freeSlotOnTerminal_frame hfree
    exact not_running_of_erased rfl
  · rename_i hfree
    obtain ⟨⟨task', pool⟩, -, heq⟩ := Option.map_eq_some_iff.mp hrecovered
    cases heq
    exact not_running_of_none (hends.notMem hfree)

/-- A task of which nothing is left is not running any more. -/
theorem not_running_of_residue (hends : c.Ends hash) {found : PhaseId × String}
    (hresidue : c.recoverResidue hash = some (found, c')) : ¬ c'.Running hash := by
  unfold recoverResidue at hresidue
  split at hresidue
  · rename_i hfree
    cases hresidue
    obtain ⟨workers, rfl⟩ := freeSlotOnTerminal_frame hfree
    exact not_running_of_erased rfl
  · rename_i hfree
    obtain ⟨⟨task', c''⟩, hreclaim, heq⟩ := Option.map_eq_some_iff.mp hresidue
    cases heq
    obtain ⟨taken, -, heq⟩ := Option.map_eq_some_iff.mp hreclaim
    cases heq
    exact not_running_of_none (hends.notMem hfree)

/-- The tasks that fail with another one are not running. -/
theorem clears_buildCascade (c : Coordinator I) (rootId : String) {cascaded : List (TaskInfo I)}
    (hcascaded : ∀ task ∈ cascaded, ¬ c.Running (computeTaskHash task)) :
    c.Clears (c.buildCascadeTerminalMutations rootId cascaded).1 := by
  refine foldlRecOn (motive := fun acc : Coordinator I × List (ClusterMutation I) =>
    c.Clears acc.1) _ _ (.refl c) ?_
  rintro ⟨c', mutations⟩ hclears task htask
  dsimp only
  split_ifs
  · exact hclears
  · exact hclears.trans (clears_recorded _ rfl (fun x => settled_insert_failed)
      fun hrunning => hcascaded task htask (hclears _ hrunning).1)

variable [RecordCodec I] [DonePayloadCodec]

/-- Originating mutations settles nothing here. -/
theorem clears_applyAndBroadcast (c : Coordinator I) (ms : List (ClusterMutation I)) :
    c.Clears (c.applyAndBroadcast ms) :=
  clears_of_eq (by simp) (by simp) (by simp)

/-- A failure settles the tasks that fail with it. -/
theorem clears_noteItemFailed (hapart : c.Apart) (p : PhaseId) (taskId : Option String)
    (kind : Option ErrorType) : c.Clears (c.noteItemFailed p taskId kind) := by
  unfold noteItemFailed
  split
  · exact clears_of_eq rfl rfl rfl
  · rename_i id _
    have hpool := cascades_onItemFailedPermanent c.pool p id
    have hmoved : c.Clears { c with pool := (c.pool.onItemFailedPermanent p id).1 } :=
      clears_of_eq rfl rfl rfl
    refine (hmoved.trans (clears_buildCascade _ id fun task htask hrunning => ?_)).trans
      (clears_applyAndBroadcast _ _)
    have hstock : task ∈ (c.pool.decrementInFlight p).stock := by
      rw [← hpool.stock]
      exact Multiset.mem_add.mpr (.inr htask)
    exact hapart task hstock hrunning
  · exact clears_of_eq rfl rfl rfl

/-- Settling what is left of a task. -/
theorem clears_settleResidue (hapart : c.Apart) (hends : c.Ends hash) (counterCompleted : Bool)
    (failedKind : Option ErrorType) (successLike : Bool) :
    c.Clears (c.settleResidue hash counterCompleted failedKind successLike) := by
  unfold settleResidue
  split
  · rename_i hresidue
    have hfree : c.freeSlotOnTerminal hash = none := by
      unfold recoverResidue at hresidue
      split at hresidue
      · cases hresidue
      · assumption
    exact clears_recordTerminal (not_running_of_none (hends.notMem hfree)) _ _
  · rename_i p taskId c' hresidue
    obtain ⟨task, hfrees⟩ := frees_of_residue hresidue
    have hrecorded := clears_recordTerminal (not_running_of_residue hends hresidue) counterCompleted
      failedKind
    have hbase := (clears_frees hfrees).trans hrecorded
    split_ifs
    · exact hbase.trans (clears_of_eq rfl rfl rfl)
    · refine hbase.trans (clears_noteItemFailed ((hapart.frees hfrees).mono ?_ hrecorded) _ _ _)
      obtain ⟨completedTasks, failedTasks, heq⟩ := recordTerminal_frame c'
      rw [heq]
      exact fun _ hx => hx

/-- Settling a task that the ledger knows to have ended. -/
theorem clears_settleLocalState (hapart : c.Apart) (hends : c.Ends hash) :
    c.Clears (c.settleLocalState hash) := by
  unfold settleLocalState
  split
  · split <;> first | exact clears_settleResidue hapart hends _ _ _ | exact .refl c
  · split
    · split <;> exact clears_settleResidue hapart hends _ _ _
    · exact .refl c

omit [DefaultHasher] [Identifier I] [RecordCodec I] [DonePayloadCodec] in
/-- A report about an import settles nothing. -/
theorem clears_freeAffineSlotOnTerminal (c : Coordinator I) (secondary : String) (workerId : ℕ)
    (hash : TaskHash) : c.Clears (c.freeAffineSlotOnTerminal secondary workerId hash) := by
  obtain ⟨workers, inFlight, rfl | rfl, heq⟩ :=
    freeAffineSlotOnTerminal_frame c secondary workerId hash
  · rw [heq]
    exact clears_of_eq rfl rfl rfl
  · rw [heq]
    exact clears_of_sub (fun _ _ hentry => lookup_of_erase hentry) fun _ => .inl

omit [DefaultHasher] [Identifier I] [RecordCodec I] [DonePayloadCodec] in
/-- A failed import settles nothing. -/
theorem clears_handleAffineTaskFailed (c : Coordinator I) (secondary : String) (workerId : ℕ)
    (hash : TaskHash) (errorMessage : String) (globallyFailed : Bool) :
    c.Clears (c.handleAffineTaskFailed secondary workerId hash errorMessage globallyFailed) := by
  refine Clears.trans ?_ (clears_freeAffineSlotOnTerminal _ _ _ _)
  split_ifs
  · exact .refl c
  · unfold recordImportFailure
    split <;> exact clears_of_eq rfl rfl rfl

/-- A completion settles its task after the entry of the task is gone. -/
theorem clears_handleTaskComplete {secondary : String} {workerId : ℕ}
    {resultData : Option (List ℕ)}
    (hends : (c.cluster.affineIdForHash hash).isSome = false → hash ∉ c.completedTasks →
      c.Ends hash) : c.Clears (c.handleTaskComplete secondary workerId hash resultData) := by
  unfold handleTaskComplete
  split_ifs with haffine hdone
  · refine Clears.trans ?_ (clears_freeAffineSlotOnTerminal _ _ _ _)
    unfold recordImport
    split
    · exact .refl c
    · dsimp only
      split_ifs <;> exact clears_of_eq (by simp) (by simp) (by simp)
  · exact .refl c
  · have hends' := hends (Bool.eq_false_iff.mpr haffine) hdone
    dsimp only
    generalize hrecorded : ({ c with
      failedTasks := c.failedTasks.erase hash
      completedTasks := insert hash c.completedTasks } : Coordinator I).applyAndBroadcast
        [.taskCompleted hash resultData 0] = recorded
    have hinFlight : recorded.inFlight = c.inFlight := by
      rw [← hrecorded, applyAndBroadcast_inFlight]
    have hworkers : recorded.workers = c.workers := by
      rw [← hrecorded, applyAndBroadcast_workers]
    have hsettled : ∀ x, recorded.Settled x → c.Settled x ∨ x = hash := by
      intro x hset
      rw [← hrecorded, Settled, applyAndBroadcast_completedTasks,
        applyAndBroadcast_failedTasks] at hset
      rcases hset with hcompleted | hfailed
      · rcases Finset.mem_insert.mp hcompleted with rfl | hold
        · exact .inr rfl
        · exact .inl (.inl hold)
      · exact .inl (.inr (AList.mem_erase.mp hfailed).2)
    cases hfree : recorded.freeSlotOnTerminal hash with
    | some freed =>
      obtain ⟨workers, heq⟩ := freeSlotOnTerminal_frame hfree
      dsimp only
      rw [heq]
      refine clears_of_sub (fun x entry hentry => hinFlight ▸ lookup_of_erase hentry)
        fun x hset => ?_
      rcases hsettled x hset with hold | rfl
      · exact .inl hold
      · exact .inr (not_running_of_erased (c := recorded) rfl)
    | none =>
      have hsome : (c.freeSlotOnTerminal hash).isSome = false := by
        rw [← freeSlotOnTerminal_isSome_congr hinFlight hworkers, hfree]
        rfl
      have hbase := clears_recorded _ hinFlight hsettled
        (not_running_of_none (hends'.notMem (Option.not_isSome_iff_eq_none.mp (by simp [hsome]))))
      dsimp only
      split
      · rename_i task c' hreclaim
        exact (hbase.trans (clears_frees (frees_of_queue hreclaim))).trans
          (clears_of_eq rfl rfl rfl)
      · exact hbase

/-- A recorded failure is of a task that is not running any more. -/
theorem clears_recordFailure (hends : c.Ends hash) (errorType : ErrorType)
    (errorMessage : String) : c.Clears (c.recordFailure hash errorType errorMessage).2 := by
  unfold recordFailure
  refine Clears.trans ?_ (clears_applyAndBroadcast _ _)
  cases hrecovered : c.recoverOnTerminal hash with
  | none =>
    have hfree : c.freeSlotOnTerminal hash = none := by
      unfold recoverOnTerminal at hrecovered
      split at hrecovered
      · cases hrecovered
      · assumption
    exact clears_recorded _ rfl (fun x => settled_insert_failed)
      (not_running_of_none (hends.notMem hfree))
  | some recovered =>
    obtain ⟨task, c'⟩ := recovered
    obtain ⟨p, hfrees⟩ := frees_of_recovered hrecovered
    exact (clears_frees hfrees).trans (clears_recorded _ rfl (fun x => settled_insert_failed)
      (not_running_of_recovered hends hrecovered))

/-- A failure report settles its task and those that fail with it. -/
theorem clears_failDispatched {errorType : ErrorType} {errorMessage : String} (hapart : c.Apart)
    (hreturned : isBackpressureShaped errorMessage = true → hash ∈ c.inFlight →
      c.cluster.viewIsTerminal hash = false)
    (hends : isBackpressureShaped errorMessage = false → ¬ c.Settled hash →
      c.Ends hash ∧ (c.recordFailure hash errorType errorMessage).2.Apart) :
    c.Clears (c.failDispatched hash errorType errorMessage) := by
  unfold failDispatched
  by_cases hshape : isBackpressureShaped errorMessage = true
  · rw [if_pos hshape]
    cases hfree : c.freeSlotOnTerminal hash with
    | none =>
      dsimp only
      split_ifs with hterminal
      · refine clears_settleLocalState hapart fun entry hentry => ?_
        rw [hreturned hshape (mem_iff_lookup.mpr ⟨entry, hentry⟩)] at hterminal
        cases hterminal
      · exact .refl c
    | some freed =>
      obtain ⟨entry, c'⟩ := freed
      have hcluster : c'.cluster = c.cluster := by
        obtain ⟨workers, rfl⟩ := freeSlotOnTerminal_frame hfree
        rfl
      have hlive := hreturned hshape
        (mem_iff_lookup.mpr ⟨entry, (freeSlotOnTerminal_eq_some hfree).1⟩)
      dsimp only
      rw [hcluster, hlive, if_neg Bool.false_ne_true]
      exact (clears_frees (frees_of_slot hfree)).trans
        (clears_of_eq (by simp) (by simp) (by simp))
  · rw [if_neg hshape]
    by_cases hdone : hash ∈ c.completedTasks ∨ hash ∈ c.failedTasks
    · rw [if_pos hdone]
      exact .refl c
    · rw [if_neg hdone]
      obtain ⟨hends', hapart'⟩ := hends (Bool.eq_false_iff.mpr hshape) hdone
      have hrecorded := clears_recordFailure hends' errorType errorMessage
      split
      · rename_i heq
        rw [heq] at hrecorded hapart'
        exact hrecorded.trans (clears_noteItemFailed hapart' _ _ _)
      · rename_i heq
        rw [heq] at hrecorded
        exact hrecorded

end Cascade

section Commands

variable [DefaultHasher] [Identifier I] {c c' : Coordinator I} {hash : TaskHash}
  {error : ErrorType} {reason : String} {p : PhaseId}

/-- A commanded failure settles its task and those that fail with it. -/
theorem clears_failPermanentCascadeMutations {mutations : List (ClusterMutation I)}
    (hapart : c.Apart) (hnot : ¬ c.Running hash)
    (hcascade : c.failPermanentCascadeMutations hash error reason = some (p, mutations, c')) :
    c.Clears c' ∧ c'.Apart := by
  obtain ⟨pool, cascaded, hpool, hcases⟩ := failPermanentCascadeMutations_eq_some hcascade
  have hclears : c.Clears c' := by
    rcases hcases with ⟨-, -, rfl⟩ | ⟨-, -, rfl⟩
    · exact clears_recorded _ rfl (fun x => settled_insert_failed) hnot
    · refine clears_of_sub (fun _ _ => id) fun x hset => ?_
      have hfailed : ∀ x, x ∈ (cascaded.map computeTaskHash).foldl (fun m x => m.insert x error)
          (c.failedTasks.insert hash error) →
          x ∈ c.failedTasks ∨ x = hash ∨ x ∈ cascaded.map computeTaskHash := by
        refine foldlRecOn (motive := fun m : HashMap TaskHash ErrorType => ∀ x, x ∈ m →
          x ∈ c.failedTasks ∨ x = hash ∨ x ∈ cascaded.map computeTaskHash) _ _ ?_ ?_
        · intro x hx
          rcases AList.mem_insert _ |>.mp hx with rfl | hold
          · exact .inr (.inl rfl)
          · exact .inl hold
        · intro m hm y hy x hx
          rcases AList.mem_insert _ |>.mp hx with rfl | hold
          · exact .inr (.inr hy)
          · exact hm x hold
      rcases hset with hcompleted | hset
      · exact .inl (.inl hcompleted)
      · rcases hfailed x hset with hold | rfl | hx
        · exact .inl (.inr hold)
        · exact .inr hnot
        · obtain ⟨task, htask, rfl⟩ := mem_map.mp hx
          refine .inr (hapart task ?_)
          change task ∈ (c.pool.decrementInFlight p).stock
          rw [← hpool.stock]
          exact Multiset.mem_add.mpr (.inr htask)
  refine ⟨hclears, hapart.mono (fun task htask => ?_) hclears⟩
  have hrest : task ∈ pool.stock := by
    rcases hcases with ⟨-, -, rfl⟩ | ⟨-, -, rfl⟩ <;> exact htask
  change task ∈ (c.pool.decrementInFlight p).stock
  rw [← hpool.stock]
  exact Multiset.mem_add.mpr (.inl hrest)

variable [RecordCodec I] [DonePayloadCodec]

/-- A commanded failure of a task that is not running. -/
theorem clears_applyFailPermanent (hapart : c.Apart) (hnot : ¬ c.Running hash) :
    c.Clears (c.applyFailPermanent hash error reason).1 := by
  unfold applyFailPermanent
  cases hcascade : c.failPermanentCascadeMutations hash error reason with
  | none => exact .refl c
  | some result =>
    obtain ⟨p, mutations, c'⟩ := result
    have hfailed := (clears_failPermanentCascadeMutations hapart hnot hcascade).1
    exact hfailed.trans ((clears_applyAndBroadcast c' mutations).trans (clears_of_eq rfl rfl rfl))

/-- Commanded failures of tasks that are not running. -/
theorem clears_applyFailPermanentBatch {items : List (TaskHash × ErrorType × String)}
    (hapart : c.Apart) (hnot : ∀ item ∈ items, ∀ found,
      c.cluster.taskMetaForHash item.1 = some found → ¬ c.Running item.1) :
    c.Clears (c.applyFailPermanentBatch items) := by
  have hall : ∀ (items : List (TaskHash × ErrorType × String)) (c : Coordinator I), c.Apart →
      (∀ item ∈ items, ∀ found, c.cluster.taskMetaForHash item.1 = some found →
        ¬ c.Running item.1) → c.Clears (c.failPermanentAll items).2.2 := by
    intro items
    induction items with
    | nil => exact fun c _ _ => .refl c
    | cons item items ih =>
      intro c hapart hnot
      obtain ⟨hash, error, reason⟩ := item
      unfold failPermanentAll
      cases hcascade : c.failPermanentCascadeMutations hash error reason with
      | none => exact ih c hapart fun item hitem => hnot item (mem_cons_of_mem _ hitem)
      | some result =>
        obtain ⟨p, mutations, c'⟩ := result
        obtain ⟨⟨taskId, hmeta⟩, hcluster, -⟩ := failPermanentCascadeMutations_account hcascade
        obtain ⟨hclears, hapart'⟩ :=
          clears_failPermanentCascadeMutations hapart (hnot _ mem_cons_self _ hmeta) hcascade
        refine hclears.trans (ih c' hapart' fun item hitem found hfound hrunning => ?_)
        rw [hcluster] at hfound
        exact hnot item (mem_cons_of_mem _ hitem) found hfound (hclears _ hrunning).1
  have hfailed := (hall items c hapart hnot).trans
    (clears_applyAndBroadcast _ (c.failPermanentAll items).2.1)
  exact foldlRecOn (motive := fun c' : Coordinator I => c.Clears c') _ _ hfailed
    fun _ h _ _ => h.trans (clears_of_eq rfl rfl rfl)

/-- The end of a setup task that is not running any more. -/
theorem clears_settleSetupTerminal (hapart : c.Apart) (hnot : ¬ c.Running hash)
    (taskId : String) (outcome : SetupOutcome) :
    c.Clears (c.settleSetupTerminal hash p taskId outcome) := by
  cases outcome with
  | success => exact (clears_applyAndBroadcast c _).trans (clears_of_eq rfl rfl rfl)
  | failure => exact clears_applyFailPermanent hapart hnot

/-- A setup task that the primary runs was not running elsewhere. -/
theorem clears_executeSetupLocally (hapart : c.Apart) (outcome : SetupOutcome) :
    c.Clears (c.executeSetupLocally hash outcome) := by
  unfold executeSetupLocally
  cases htake : c.takeSetupTask hash with
  | none => exact .refl c
  | some taken =>
    obtain ⟨task, pool⟩ := taken
    have hshed := takeSetupTask_sheds htake
    have hmoved : c.Clears { c with pool := pool.markInFlight task.phaseId } :=
      clears_of_eq rfl rfl rfl
    have htask : task ∈ c.pool.stock := by
      rw [hshed.stock]
      exact Multiset.mem_cons_self _ _
    refine hmoved.trans (clears_settleSetupTerminal (hapart.mono (fun x hx => ?_) hmoved)
      (fun hrunning => hapart task htask ?_) _ outcome)
    · rw [hshed.stock]
      exact Multiset.mem_cons_of_mem hx
    · rw [hash_of_takeSetupTask htake]
      exact (hmoved _ hrunning).1

/-- A reported setup task is not running any more. -/
theorem clears_handleSetupTerminal (hapart : c.Apart) (outcome : SetupOutcome) :
    c.Clears (c.handleSetupTerminal hash outcome) := by
  unfold handleSetupTerminal
  cases hentry : c.inFlight.lookup hash with
  | none => exact .refl c
  | some entry =>
    have hdropped := clears_erase c hash
    have hapart' : (c.dropInFlight hash).Apart := hapart.mono (fun _ hx => hx) hdropped
    have hnot : ¬ (c.dropInFlight hash).Running hash := not_running_of_erased (c := c) rfl
    exact hdropped.trans (clears_settleSetupTerminal hapart' hnot _ outcome)

/-- Finalizing fails tasks of the pool only. -/
theorem clears_finalizePhaseSoftFailures (hapart : c.Apart) (phase : PhaseId) :
    c.Clears (c.finalizePhaseSoftFailures phase) := by
  have hpool := cascades_finalizeSoftFailures c.pool phase
  have hmoved : c.Clears { c with pool := (c.pool.finalizeSoftFailures phase).1 } :=
    clears_of_eq rfl rfl rfl
  refine Clears.trans ?_ (clears_applyAndBroadcast _ _)
  refine foldlRecOn (motive := fun acc : Coordinator I × List (ClusterMutation I) =>
    c.Clears acc.1) _ _ hmoved fun acc hclears pair hpair => ?_
  refine hclears.trans (clears_buildCascade acc.1 pair.1 fun task htask hrunning => ?_)
  refine hapart task ?_ (hclears _ hrunning).1
  rw [← hpool.stock]
  exact Multiset.mem_add.mpr (.inr (mem_flatMap.mpr ⟨pair, hpair, htask⟩))

/-- A published task that fails at once is new to the ledger, so it is not in flight. -/
theorem clears_applySpawnTasksChunk
    (hknown : ∀ hash, c.Running hash → c.cluster.containsTask hash = true)
    (tasks : List (TaskInfo I)) (baseIndex : ℕ) :
    c.Clears (c.applySpawnTasksChunk tasks baseIndex).1 := by
  unfold applySpawnTasksChunk
  dsimp only
  split_ifs
  · exact clears_of_eq rfl rfl rfl
  · obtain ⟨hnew, -⟩ := SpawnChecks.partition_new (I := I)
      ⟨c.cluster.containsTask, c.isDefined, c.phaseAcceptsRuntimeSpawn,
        tasks.map TaskInfo.identity⟩ tasks.zipIdx []
    refine foldlRecOn (motive := fun c' : Coordinator I => c.Clears c') _ _
      ((clears_applyAndBroadcast c _).trans (clears_of_eq rfl rfl rfl))
      fun c' hclears hash hhash => ?_
    obtain ⟨task, htask, rfl⟩ := mem_map.mp hhash
    unfold routeSpawned
    split
    · exact hclears
    · split
      · exact hclears.trans (clears_of_eq rfl rfl rfl)
      · refine hclears.trans (clears_recorded _ rfl (fun x => settled_insert_failed)
          fun hrunning => ?_)
        have hin := hknown _ (hclears _ hrunning).1
        cases hin.symm.trans (hnew task htask).1
      · exact hclears

/-- Publishing fails new tasks only. -/
theorem clears_pumpSpawnContinuation
    (hknown : ∀ hash, c.Running hash → c.cluster.containsTask hash = true) :
    c.Clears c.pumpSpawnContinuation.1 := by
  unfold pumpSpawnContinuation
  split
  · exact .refl c
  · rename_i cont rest _
    have hqueue : c.Clears { c with spawnContinuationQueue := rest } := clears_of_eq rfl rfl rfl
    have hchunk := clears_applySpawnTasksChunk (c := { c with spawnContinuationQueue := rest })
      (fun hash hrunning => hknown hash (hqueue _ hrunning).1)
      (cont.remaining.take applySpawnChunkSize) cont.nextBaseIndex
    exact hqueue.trans (hchunk.trans (clears_of_eq rfl rfl rfl))

/-- Spawning settles nothing. -/
theorem clears_applySpawnTasks (tasks : List (TaskInfo I)) :
    c.Clears (c.applySpawnTasks tasks) := by
  unfold applySpawnTasks
  split
  · exact .refl c
  · split
    · exact (clears_applyAndBroadcast _ _).trans (clears_applyAndBroadcast _ _)
    · exact clears_of_eq rfl rfl rfl

omit [DefaultHasher] [Identifier I] [RecordCodec I] [DonePayloadCodec] in
/-- A task that is forgotten as failed is not settled by that. -/
theorem clears_forgotten (hinFlight : c'.inFlight = c.inFlight)
    (hcompleted : c'.completedTasks = c.completedTasks)
    (hfailed : ∀ x, x ∈ c'.failedTasks → x ∈ c.failedTasks) : c.Clears c' :=
  clears_of_sub (fun _ _ hentry => hinFlight ▸ hentry) fun x hset => .inl
    (hset.imp (fun h => hcompleted ▸ h) (hfailed x))

/-- Offering a task again settles nothing. -/
theorem clears_applyReinjectTask (budgetLeft : Bool) :
    c.Clears (c.applyReinjectTask hash budgetLeft).1 := by
  unfold applyReinjectTask
  split
  · exact .refl c
  · split
    · split
      · refine Clears.trans ?_ (clears_applyAndBroadcast _ _)
        exact clears_forgotten rfl rfl fun x hx => (AList.mem_erase.mp hx).2
      · exact .refl c
    · exact .refl c

/-- A retry pass settles nothing. -/
theorem clears_tryRunPhaseRetryBucket (plan : MemoryPlan I) (phase : PhaseId) (kind : BucketKind)
    (budgetLeft : Bool) : c.Clears (c.tryRunPhaseRetryBucket plan phase kind budgetLeft).1 := by
  unfold tryRunPhaseRetryBucket
  dsimp only
  split_ifs
  · exact .refl c
  · refine Clears.trans ?_ (clears_applyAndBroadcast _ _)
    exact foldlRecOn (motive := fun c' : Coordinator I => c.Clears c') _ _ (.refl c)
      fun _ h _ _ => h.trans (clears_forgotten rfl rfl fun x hx => (AList.mem_erase.mp hx).2)

end Commands

section Dispatch

variable {c c' : Coordinator I} {hash : TaskHash} {entry : InFlightEntry I}

/-- A task that is not settled comes into flight, or one that does not count. -/
theorem Unsettled.dispatched (h : c.Unsettled)
    (hinFlight : c'.inFlight = c.inFlight.insert hash entry)
    (hcompleted : c'.completedTasks = c.completedTasks) (hfailed : c'.failedTasks = c.failedTasks)
    (hnew : entry.Counts → ¬ c.Settled hash) : c'.Unsettled := by
  rintro x ⟨entry', hentry', hcounts⟩ hset
  rw [Settled, hcompleted, hfailed] at hset
  rw [hinFlight, lookup_insert_eq] at hentry'
  split_ifs at hentry' with hx
  · cases hentry'
    exact hnew hcounts (hx ▸ hset)
  · exact h x ⟨entry', hentry', hcounts⟩ hset

/-- Seating a task elsewhere settles nothing. -/
theorem clears_reseats (hreseats : c.Reseats c') : c.Clears c' := by
  cases hreseats with
  | slots => exact clears_of_eq rfl rfl rfl
  | @moved workers hash entry hentry =>
    rintro x ⟨entry', hentry', hcounts⟩
    refine ⟨?_, id⟩
    change (c.inFlight.insert hash _).lookup x = some entry' at hentry'
    rw [lookup_insert_eq] at hentry'
    split_ifs at hentry' with hx
    · cases hentry'
      exact ⟨entry, hx ▸ hentry, hcounts⟩
    · exact ⟨entry', hentry', hcounts⟩

/-- The tasks of a dead secondary are not running any more. -/
theorem clears_recoverInFlightForDeadSecondary (c : Coordinator I) (secondary : String) :
    c.Clears (c.recoverInFlightForDeadSecondary secondary).1 := by
  refine (recoverInFlightForDeadSecondary_frame (P := fun c' => c.Clears c')
    (Q := fun _ => True) (.refl c) fun c' hash entry hc' _ _ _ => ⟨hc'.trans ?_,
      fun _ _ => trivial⟩).1
  unfold recoverInFlight
  dsimp only
  split_ifs
  · exact clears_erase c' hash
  · exact (clears_erase c' hash).trans (clears_of_eq rfl rfl rfl)
  · exact (clears_erase c' hash).trans (clears_of_eq rfl rfl rfl)
  · exact clears_erase c' hash

variable [DefaultHasher] [Identifier I] [RecordCodec I] [DonePayloadCodec]

/-- The death of a secondary settles nothing that runs. -/
theorem clears_requeueDeadSecondary (c : Coordinator I) (secondary : String) :
    c.Clears (c.requeueDeadSecondary secondary) :=
  (clears_recoverInFlightForDeadSecondary c secondary).trans
    ((clears_of_eq rfl rfl rfl).trans (clears_applyAndBroadcast _ _))

/-- Taking back silent work settles nothing that runs. -/
theorem clears_requeueSilentHeldWork (c : Coordinator I) (secondary : String) :
    c.Clears (c.requeueSilentHeldWork secondary) := by
  have hfreed := foldlRecOn (motive := fun c' : Coordinator I => c.Clears c')
    (c.affineLegs secondary) (fun c leg => c.freeAffineSlotOnTerminal secondary leg.2 leg.1)
    (.refl c) fun _ h _ _ => h.trans (clears_freeAffineSlotOnTerminal _ _ _ _)
  have hrecovered := hfreed.trans (clears_recoverInFlightForDeadSecondary _ secondary)
  unfold requeueSilentHeldWork
  dsimp only
  split_ifs
  · exact hrecovered
  · exact hrecovered.trans ((clears_of_eq rfl rfl rfl).trans (clears_applyAndBroadcast _ _))

/-- A dispatched task is not settled. -/
theorem Unsettled.dispatches {key : BucketKey} {index : ℕ} (h : c.Unsettled)
    (hnew : ∀ task evicted, c.pool.removeAt key index = some (task, evicted) →
      ¬ c.Settled (computeTaskHash task)) (hcases : c.Dispatches key index c') :
    c'.Unsettled := by
  cases hcases with
  | nothing => exact h.clears (clears_of_eq rfl rfl rfl)
  | returned _ _ hinFlight =>
    rcases hinFlight with rfl | rfl
    · exact h.clears (clears_of_eq rfl rfl rfl)
    · exact h.clears (clears_of_sub (fun _ _ hentry => lookup_of_erase hentry) fun _ => .inl)
  | assigned entry hremove =>
    refine Unsettled.clears ?_ (clears_applyAndBroadcast _ _)
    exact h.dispatched rfl rfl rfl fun _ => hnew entry.task _ hremove

/-- An assignment brings a task into flight that is not settled or does not count. -/
theorem Unsettled.assigned (h : c.Unsettled) {task : TaskInfo I} (workerIdx : ℕ) (delivered : Bool)
    (hnew : task.kind.countsForPhaseDrain = true → ¬ c.Settled (computeTaskHash task)) :
    (c.dispatchOneAssignment workerIdx task delivered).1.Unsettled := by
  rcases dispatchOneAssignment_cases c workerIdx task delivered with
    ⟨workers, entry, rfl, hphase, heq⟩ | ⟨workers, inFlight, rfl | rfl, heq⟩
  · rw [heq]
    refine Unsettled.clears ?_ (clears_applyAndBroadcast _ _)
    exact h.dispatched rfl rfl rfl hnew
  · rw [heq]
    exact h.clears (clears_of_eq rfl rfl rfl)
  · rw [heq]
    exact h.clears (clears_of_sub (fun _ _ hentry => lookup_of_erase hentry) fun _ => .inl)

/-- A dispatched task is not settled. -/
theorem Unsettled.dispatchOrRequeue (h : c.Unsettled) {task : TaskInfo I} (workerIdx : ℕ)
    (delivered : Bool) (hnew : ¬ c.Settled (computeTaskHash task)) :
    (c.dispatchOrRequeue workerIdx task delivered).Unsettled := by
  have hassigned : (c.dispatchOneAssignment workerIdx task delivered).1.Unsettled :=
    h.assigned workerIdx delivered fun _ => hnew
  unfold Coordinator.dispatchOrRequeue
  split
  · rename_i heq
    rw [heq] at hassigned
    exact hassigned
  · rename_i heq
    rw [heq] at hassigned
    exact hassigned.clears (clears_of_eq rfl rfl rfl)

/-- An assigned setup task is not settled. -/
theorem Unsettled.assignSetupOffPrimary (h : c.Unsettled) (member : String) (delivered : Bool)
    (hnew : ∀ task pool, c.takeSetupTask hash = some (task, pool) → ¬ c.Settled hash) :
    (c.assignSetupOffPrimary hash member delivered).Unsettled := by
  unfold Coordinator.assignSetupOffPrimary
  cases htake : c.takeSetupTask hash with
  | none => exact h
  | some taken =>
    obtain ⟨task, pool⟩ := taken
    have hassigned : (({ c with
        pool := pool.markInFlight task.phaseId
        inFlight := c.inFlight.insert hash ⟨task.phaseId, member, none, task⟩ } :
          Coordinator I).applyAndBroadcast [.taskAssigned hash member 0 .default 0]).Unsettled := by
      refine Unsettled.clears ?_ (clears_applyAndBroadcast _ _)
      exact h.dispatched rfl rfl rfl fun _ => hnew task pool htake
    dsimp only
    split_ifs
    · exact hassigned
    · exact hassigned.clears ((clears_erase _ hash).trans
        ((clears_applyAndBroadcast _ _).trans (clears_of_eq rfl rfl rfl)))

/-- A bounce settles nothing. -/
theorem clears_handleIllegallyAssigned {secondary : String} {workerId : ℕ} {assigned : TaskHash}
    {incumbent : Option TaskHash} :
    c.Clears (c.handleIllegallyAssigned secondary workerId assigned incumbent) := by
  have hbounced : c.Clears (c.handleIllegallyAssigned secondary workerId assigned none) := by
    unfold handleIllegallyAssigned
    dsimp only
    split_ifs
    · exact clears_freeAffineSlotOnTerminal c secondary workerId assigned
    · split
      · rename_i entry c' hbounce
        obtain ⟨entry', -, heq⟩ := Option.map_eq_some_iff.mp hbounce
        cases heq
        obtain ⟨workers, hvacated⟩ := vacateHolding_frame c (c.slotOf entry) assigned
        rw [hvacated]
        refine Clears.trans ?_ (clears_applyAndBroadcast _ _)
        exact clears_of_sub (fun _ _ hentry => lookup_of_erase hentry) fun _ => .inl
      · exact .refl c
  cases incumbent with
  | none => exact hbounced
  | some => exact hbounced.trans (clears_reseats (seatIncumbent_reseats _ _ _ _))

/-- A request from an inherited slot settles at most the task of the slot. -/
theorem clears_reconcileInheritedSlot {workerIdx : ℕ} (hapart : c.Apart)
    (hends : ∀ hash task, (c.workers[workerIdx]?).map RemoteWorkerState.state =
      some (.assigned hash task .inherited) → c.cluster.viewIsTerminal hash = true →
      c.Ends hash) : c.Clears (c.reconcileInheritedSlot workerIdx) := by
  unfold reconcileInheritedSlot
  split
  · rename_i hash task hheld
    split_ifs with hterminal
    · exact clears_settleLocalState hapart (hends hash task hheld hterminal)
    · refine Clears.trans ?_ (clears_applyAndBroadcast _ _)
      exact clears_of_sub (fun _ _ hentry => lookup_of_erase hentry) fun _ => .inl
  · exact .refl c

end Dispatch

end DynRunner.Coordinator
