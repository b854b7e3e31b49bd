import DynRunner.Pool.Consistency
import Mathlib.Tactic.Abel

/-!
# The stock of a pool

The items of a pool are the queued and the blocked ones, each as often as it is there. This file
says for the operations of a manager where the items go: whether the stock stays, which items
enter or leave it, and what becomes of the in-flight counters on the way.
-/

namespace DynRunner.PendingPool

open BTreeMap Multiset List

variable {I : Type} {pool pool' pool'' : PendingPool I}

/-- The blocked items. -/
def blockedItems (pool : PendingPool I) : List (TaskInfo I) := pool.blocked.entries.map fun e => e.2

/-- The queued and the blocked items. -/
def stock (pool : PendingPool I) : Multiset (TaskInfo I) := pool.queued + pool.blockedItems

/-- Every queued item stands in the bucket of its own key. -/
def Filed (pool : PendingPool I) : Prop :=
  ∀ key bucket, pool.buckets.get? key = some bucket → ∀ item ∈ bucket.items, item.bucketKey = key

/-- A fresh pool has nothing misfiled. -/
theorem filed_fresh {phaseSet : List PhaseId} {deps : HashMap PhaseId (List PhaseId)} :
    (fresh phaseSet deps : PendingPool I).Filed :=
  fun _ _ h => by cases h

/-- Filing is a matter of the buckets. -/
theorem Filed.congr (hfiled : pool.Filed) (hbuckets : pool'.buckets = pool.buckets) :
    pool'.Filed := by
  intro key bucket hget
  rw [hbuckets] at hget
  exact hfiled key bucket hget

variable {f : Bucket I → Bucket I} {pushed : Multiset (TaskInfo I)}

/-- Putting an item into its bucket. -/
theorem Filed.push {item : TaskInfo I} (hfiled : pool.Filed)
    (hbuckets : pool'.buckets = pool.buckets.upsert item.bucketKey Bucket.new f)
    (hf : ∀ bucket, ∀ i ∈ (f bucket).items, i = item ∨ i ∈ bucket.items) : pool'.Filed := by
  intro key bucket hget i hi
  rw [hbuckets, BTreeMap.get?_upsert] at hget
  split_ifs at hget with hkey
  · cases hget
    rcases hf _ i hi with rfl | hold
    · exact hkey.symm
    · cases hbucket : pool.buckets.get? item.bucketKey with
      | none =>
        rw [hbucket] at hold
        cases hold
      | some old =>
        rw [hbucket] at hold
        rw [hkey]
        exact hfiled _ old hbucket i hold
  · exact hfiled key bucket hget i hi

/-- Dropping items from their buckets. -/
theorem Filed.mapWithKey {f : BucketKey → Bucket I → Bucket I} (hfiled : pool.Filed)
    (hbuckets : pool'.buckets = pool.buckets.mapWithKey f)
    (hf : ∀ key bucket, (f key bucket).items ⊆ bucket.items) : pool'.Filed := by
  intro key bucket hget i hi
  rw [hbuckets, BTreeMap.get?_mapWithKey] at hget
  obtain ⟨old, hold, rfl⟩ := Option.map_eq_some_iff.mp hget
  exact hfiled key old hold i (hf key old hi)

/-- A bucket with fewer items stays filed. -/
theorem Filed.modify {key : BucketKey} (hfiled : pool.Filed)
    (hbuckets : pool'.buckets = pool.buckets.modify key f)
    (hf : ∀ bucket, (f bucket).items ⊆ bucket.items) : pool'.Filed := by
  refine hfiled.mapWithKey hbuckets fun key' bucket => ?_
  split_ifs
  · exact hf bucket
  · exact Subset.refl _

/-- Two pools with the same items and the same in-flight counters. -/
structure SameStock (pool pool' : PendingPool I) : Prop where
  stock : pool'.stock = pool.stock
  inFlight : pool'.inFlightPerPhase = pool.inFlightPerPhase
  filed : pool.Filed → pool'.Filed

theorem SameStock.refl (pool : PendingPool I) : pool.SameStock pool := ⟨rfl, rfl, id⟩

theorem SameStock.trans (h : pool.SameStock pool') (h' : pool'.SameStock pool'') :
    pool.SameStock pool'' :=
  ⟨h'.stock.trans h.stock, h'.inFlight.trans h.inFlight, fun hfiled => h'.filed (h.filed hfiled)⟩

/-- A change beside the buckets, the blocked map and the counters. -/
theorem sameStock_of_eq (hbuckets : pool'.buckets = pool.buckets)
    (hblocked : pool'.blocked = pool.blocked)
    (hinFlight : pool'.inFlightPerPhase = pool.inFlightPerPhase) : pool.SameStock pool' := by
  refine ⟨?_, hinFlight, fun hfiled => hfiled.congr hbuckets⟩
  rw [PendingPool.stock, PendingPool.stock, queued, queued, blockedItems, blockedItems, hbuckets,
    hblocked]

/-- The items that enter a pool are among `pushed`, and the counters stay. -/
structure Draws (pool : PendingPool I) (pushed : Multiset (TaskInfo I)) (pool' : PendingPool I) :
    Prop where
  stock : pool'.stock ≤ pool.stock + pushed
  inFlight : pool'.inFlightPerPhase = pool.inFlightPerPhase
  filed : pool.Filed → pool'.Filed

/-- The same stock draws from whatever is pushed. -/
theorem SameStock.draws (h : pool.SameStock pool') (pushed : Multiset (TaskInfo I)) :
    pool.Draws pushed pool' :=
  ⟨by rw [h.stock]; exact le_add_right _ _, h.inFlight, h.filed⟩

/-- A change beside the buckets, the blocked map and the counters lets nothing in. -/
theorem draws_of_eq (hbuckets : pool'.buckets = pool.buckets)
    (hblocked : pool'.blocked = pool.blocked)
    (hinFlight : pool'.inFlightPerPhase = pool.inFlightPerPhase) : pool.Draws pushed pool' :=
  (sameStock_of_eq hbuckets hblocked hinFlight).draws pushed

theorem Draws.trans {pushed' : Multiset (TaskInfo I)} (h : pool.Draws pushed pool')
    (h' : pool'.Draws pushed' pool'') : pool.Draws (pushed + pushed') pool'' := by
  refine ⟨?_, h'.inFlight.trans h.inFlight, fun hfiled => h'.filed (h.filed hfiled)⟩
  calc pool''.stock
      _ ≤ pool'.stock + pushed' := h'.stock
      _ ≤ pool.stock + pushed + pushed' := add_le_add h.stock le_rfl
      _ = pool.stock + (pushed + pushed') := add_assoc ..

/-- Pushing one by one draws from all that are pushed. -/
theorem Draws.foldl {f : PendingPool I → TaskInfo I → PendingPool I}
    (hf : ∀ (pool : PendingPool I) item, pool.Draws {item} (f pool item))
    (items : List (TaskInfo I)) (pool : PendingPool I) :
    pool.Draws ↑items (items.foldl f pool) := by
  induction items generalizing pool with
  | nil => exact (SameStock.refl pool).draws _
  | cons item items ih => exact (hf pool item).trans (ih _)

section Queue

variable {item : TaskInfo I}

/-- The stock after an item is pushed. -/
theorem stock_pushBack : (pool.pushBack item).stock = item ::ₘ pool.stock := by
  rw [stock, coe_eq_coe.mpr (pool.queued_pushBack item)]
  rfl

/-- A pushed item is filed. -/
theorem filed_pushBack (hfiled : pool.Filed) : (pool.pushBack item).Filed := by
  refine hfiled.push rfl fun bucket i hi => ?_
  rcases mem_append.mp hi with hold | hnew
  · exact .inr hold
  · exact .inl (List.mem_singleton.mp hnew)

/-- An item in front is filed. -/
theorem filed_pushFront (hfiled : pool.Filed) : (pool.pushFront item).Filed :=
  hfiled.push rfl fun _ _ hi => mem_cons.mp hi

/-- The stock after an item is put in front. -/
theorem stock_pushFront : (pool.pushFront item).stock = item ::ₘ pool.stock := by
  rw [stock, coe_eq_coe.mpr (pool.queued_pushFront item)]
  rfl

/-- Rewriting the buckets without a change of the items. -/
theorem sameStock_mapWithKey {f : BucketKey → Bucket I → Bucket I}
    (hbuckets : pool'.buckets = pool.buckets.mapWithKey f)
    (hf : ∀ key bucket, (f key bucket).items = bucket.items)
    (hblocked : pool'.blocked = pool.blocked)
    (hinFlight : pool'.inFlightPerPhase = pool.inFlightPerPhase) : pool.SameStock pool' := by
  refine ⟨?_, hinFlight, fun hfiled => hfiled.mapWithKey hbuckets fun key bucket => ?_⟩
  · rw [stock, stock, queued, queued, hbuckets, contents_mapWithKey hf, blockedItems,
      blockedItems, hblocked]
  · rw [hf]
    exact Subset.refl _

/-- Moving phases keeps the stock. -/
theorem PhasesMoved.sameStock (h : pool.PhasesMoved pool') : pool.SameStock pool' := by
  obtain ⟨_, _, rfl⟩ := h
  exact sameStock_of_eq rfl rfl rfl

/-- Moving pins keeps the stock. -/
theorem PinsMoved.sameStock (h : pool.PinsMoved pool') : pool.SameStock pool' := by
  obtain ⟨f, _, hf, rfl⟩ := h
  exact sameStock_mapWithKey rfl hf rfl rfl

/-- Releasing workers keeps the stock. -/
theorem sameStock_releaseAll (workers : List WorkerId) (pool : PendingPool I) :
    pool.SameStock (workers.foldl releaseWorker pool) :=
  foldlRecOn workers releaseWorker (.refl pool)
    fun _ h _ _ => h.trans pinsMoved_releaseWorker.sameStock

/-- Dropping items from the buckets. -/
theorem draws_dropAffineItems (pool : PendingPool I) (phaseId : PhaseId) :
    pool.Draws 0 (pool.dropAffineItems phaseId) := by
  have hitems : ∀ (key : BucketKey) (bucket : Bucket I), (if key.phaseId = phaseId then
        { bucket with items := bucket.items.filter fun item => !item.kind.isSecondaryAffine }
        else bucket).items.Sublist bucket.items := by
    intro key bucket
    split_ifs
    · exact filter_sublist
    · exact Sublist.refl _
  have hsub : (pool.dropAffineItems phaseId).queued.Sublist pool.queued :=
    contents_mapWithKey_sublist hitems
  refine ⟨?_, rfl, fun hfiled => hfiled.mapWithKey rfl fun key bucket => (hitems key bucket).subset⟩
  rw [stock, stock, add_zero]
  exact add_le_add (coe_le.mpr hsub.subperm) le_rfl

/-- The end of a phase brings nothing. -/
theorem draws_markPhaseDone {phaseId : PhaseId} : pool.Draws 0 (pool.markPhaseDone phaseId) := by
  have hmarked : pool.SameStock
      { pool with phaseState := pool.phaseState.insert phaseId .done } :=
    sameStock_of_eq rfl rfl rfl
  have hdropped := (hmarked.draws 0).trans (draws_dropAffineItems _ phaseId)
  exact hdropped.trans ((activated_activatePhases _).phasesMoved.sameStock.draws 0)

/-- One item leaves the queue, and the counters stay. -/
structure Sheds (pool : PendingPool I) (item : TaskInfo I) (pool' : PendingPool I) : Prop where
  stock : pool.stock = item ::ₘ pool'.stock
  inFlight : pool'.inFlightPerPhase = pool.inFlightPerPhase
  filed : pool.Filed → pool'.Filed

variable {key : BucketKey} {index : ℕ}

theorem Sheds.trans (h : pool.Sheds item pool') (h' : pool'.SameStock pool'') :
    pool.Sheds item pool'' :=
  ⟨by rw [h.stock, h'.stock], h'.inFlight.trans h.inFlight, fun hfiled => h'.filed (h.filed hfiled)⟩

/-- An item that is removed from its bucket leaves the stock. -/
theorem sheds_removeAt
    (h : pool.removeAt key index = some (item, pool')) : pool.Sheds item pool' := by
  have hqueued := queued_removeAt h
  obtain ⟨bucket, -, -, rfl⟩ := removeAt_eq_some h
  refine ⟨?_, rfl, fun hfiled => hfiled.modify (f := fun bucket => { bucket with
    items := bucket.items.eraseIdx index }) rfl fun bucket => ?_⟩
  · rw [stock, coe_eq_coe.mpr hqueued]
    rfl
  · exact (eraseIdx_sublist _ _).subset

/-- The item at a position of a filed bucket belongs to the phase of the bucket. -/
theorem Filed.phaseId_of_removeAt (hfiled : pool.Filed)
    (h : pool.removeAt key index = some (item, pool')) : item.phaseId = key.phaseId := by
  obtain ⟨bucket, hbucket, hitem, -⟩ := removeAt_eq_some h
  have hkey := hfiled key bucket hbucket item (mem_of_getElem? hitem)
  exact congrArg BucketKey.phaseId hkey

/-- A taken item leaves the stock. -/
theorem sheds_takeFirstMatch {pred : TaskInfo I → Bool}
    (h : pool.takeFirstMatch pred = some (item, pool')) : pool.Sheds item pool' := by
  obtain ⟨key, index, rest, hremove, hpins, -⟩ := takeFirstMatch_eq_some h
  exact (sheds_removeAt hremove).trans hpins.sameStock

/-- A hand-out counts its item and keeps the rest. -/
theorem stock_handOut (pool : PendingPool I) (key : BucketKey) (item : TaskInfo I)
    (worker : WorkerId) :
    (pool.markInFlight key.phaseId).SameStock (pool.handOut key item worker) := by
  let noted := { pool with reservation := pool.reservation.noteTaken item.identity }
  have hnoted : pool.SameStock noted := sameStock_of_eq rfl rfl rfl
  have hpinned := hnoted.trans (pinsMoved_pinWorker noted key worker).sameStock
  have hmarked : (pool.markInFlight key.phaseId).SameStock
      ((noted.pinWorker key worker).markInFlight key.phaseId) := by
    refine ⟨hpinned.stock, ?_, hpinned.filed⟩
    rw [markInFlight, markInFlight, hpinned.inFlight]
  unfold handOut
  dsimp only
  split_ifs
  · exact (hmarked.trans (pinsMoved_clearDrainedPins _ key).sameStock).trans
      (phasesMoved_maybeTransitionDrain _ _).sameStock
  · exact hmarked

/-- A requeued item is counted down and back in the stock. -/
theorem stock_requeue : (pool.requeue item).stock = item ::ₘ pool.stock ∧
      (pool.requeue item).inFlightPerPhase =
        (pool.decrementInFlight item.phaseId).inFlightPerPhase ∧
      (pool.Filed → (pool.requeue item).Filed) := by
  have hactive := (phasesMoved_reactivate ((pool.decrementInFlight item.phaseId).pushFront item)
    item.phaseId).sameStock
  refine ⟨?_, ?_, ?_⟩
  · rw [requeue, hactive.stock, stock_pushFront]
    rfl
  · rw [requeue, hactive.inFlight]
    rfl
  · intro hfiled
    exact hactive.filed (filed_pushFront (hfiled.congr rfl))

end Queue

section Commit

variable {item : TaskInfo I} {batch : List (TaskInfo I)}

/-- A blocked item takes the place of another one of its id. -/
theorem stock_block_le {unresolved : List String} :
    (pool.block item unresolved).stock ≤ item ::ₘ pool.stock := by
  have hblocked :
      (pool.block item unresolved).blockedItems.Subperm (item :: pool.blockedItems) := by
    exact (subperm_cons item).mpr (((kerase_sublist _ _).map _).subperm)
  calc (pool.block item unresolved).stock
      _ = ↑pool.queued + ↑(pool.block item unresolved).blockedItems := rfl
      _ ≤ ↑pool.queued + ↑(item :: pool.blockedItems) := add_le_add le_rfl (coe_le.mpr hblocked)
      _ = item ::ₘ pool.stock := by rw [← cons_coe, add_cons, stock]

/-- Committing an item brings at most this item. -/
theorem draws_commitItem (pool : PendingPool I) (item : TaskInfo I) :
    pool.Draws {item} (pool.commitItem item) := by
  have hpush : item ::ₘ pool.stock = pool.stock + {item} := by rw [← singleton_add, add_comm]
  unfold commitItem
  split_ifs
  · exact draws_of_eq rfl rfl rfl
  · split
    · exact ⟨stock_pushBack.trans hpush |>.le, rfl, filed_pushBack⟩
    · exact ⟨stock_block_le.trans hpush.le, rfl, fun hfiled => hfiled.congr rfl⟩

/-- Ingestion brings at most the batch. -/
theorem draws_extend (h : pool.extend batch = .ok pool') : pool.Draws ↑batch pool' := by
  obtain ⟨-, -, rfl⟩ := extend_eq_ok h
  exact .foldl draws_commitItem batch pool

/-- An item that was taken out and is committed again does not add to the stock. -/
theorem Sheds.returned (h : pool.Sheds item pool')
    (h' : pool'.Draws {item} pool'') : pool.Draws 0 pool'' := by
  refine ⟨?_, h'.inFlight.trans h.inFlight, fun hfiled => h'.filed (h.filed hfiled)⟩
  rw [add_zero, h.stock, ← singleton_add, add_comm]
  exact h'.stock

/-- An item that a worker takes leaves the stock; one that turns out not to be ready may stay. -/
theorem stock_takeAtIfReady {key : BucketKey} {index : ℕ} {worker : WorkerId} :
    (∃ item evicted, (pool.takeAtIfReady key index worker).2 = some item ∧
      pool.removeAt key index = some (item, evicted) ∧ pool.Sheds item evicted ∧
      (evicted.markInFlight key.phaseId).SameStock (pool.takeAtIfReady key index worker).1) ∨
    ((pool.takeAtIfReady key index worker).2 = none ∧
      pool.Draws 0 (pool.takeAtIfReady key index worker).1) := by
  unfold takeAtIfReady
  cases hremove : pool.removeAt key index with
  | none => exact .inr ⟨rfl, (SameStock.refl pool).draws 0⟩
  | some taken =>
    obtain ⟨item, evicted⟩ := taken
    have hshed := sheds_removeAt hremove
    dsimp only
    split_ifs with hready
    · have hout := stock_handOut evicted key item worker
      refine .inl ⟨item, evicted, ?_⟩
      simp only [takeAt, hremove, Option.map_some]
      exact ⟨trivial, trivial, hshed, hout⟩
    · exact .inr ⟨rfl, hshed.returned (draws_commitItem evicted item)⟩

end Commit

section Dependents

variable {id : String} {item : TaskInfo I}

/-- An unblocked item leaves the stock. -/
theorem stock_unblock (h : pool.blocked.lookup id = some item) :
    item ::ₘ (pool.unblock id item).stock = pool.stock := by
  have hblocked : pool.blockedItems.Perm (item :: (pool.unblock id item).blockedItems) := by
    have hentries := HashMap.perm_cons_erase h
    exact hentries.map fun e => e.2
  rw [stock, stock, coe_eq_coe.mpr hblocked, ← cons_coe, add_cons]
  rfl

/-- A released item stays in the stock. -/
theorem sameStock_release (h : pool.blocked.lookup id = some item) :
    pool.SameStock (pool.release id item) := by
  have hactive := (phasesMoved_reactivate ((pool.unblock id item).pushFront item)
    item.phaseId).sameStock
  refine ⟨?_, hactive.inFlight, fun hfiled =>
    (hactive.filed (filed_pushFront (hfiled.congr rfl))).congr rfl⟩
  calc (pool.release id item).stock
      _ = (((pool.unblock id item).pushFront item).reactivate item.phaseId).stock := rfl
      _ = item ::ₘ (pool.unblock id item).stock := by rw [hactive.stock, stock_pushFront]
      _ = pool.stock := stock_unblock h

variable {phaseId : PhaseId}

/-- Telling a dependent keeps the stock. -/
theorem sameStock_resolveDependent {depId : String} :
    pool.SameStock (resolveDependent id pool depId) := by
  unfold resolveDependent
  cases pool.taskDeps.lookup depId with
  | none => exact .refl pool
  | some =>
    dsimp only
    split_ifs
    · have herased : pool.SameStock { pool with taskDeps := pool.taskDeps.erase depId } :=
        sameStock_of_eq rfl rfl rfl
      split
      · exact herased
      · exact herased.trans (sameStock_release (by assumption))
    · exact sameStock_of_eq rfl rfl rfl

/-- Telling all dependents keeps the stock. -/
theorem sameStock_resolveCompletedDependents :
    pool.SameStock (pool.resolveCompletedDependents id) := by
  refine foldlRecOn (motive := pool.SameStock) _ _ ?_ fun _ h _ _ =>
    h.trans sameStock_resolveDependent
  exact sameStock_of_eq rfl rfl rfl

/-- A finished item is counted down and moves no item out of the pool. -/
theorem sameStock_onItemFinished {taskId : Option String} :
    (pool.decrementInFlight phaseId).SameStock (pool.onItemFinished phaseId taskId) := by
  cases taskId with
  | none => exact (phasesMoved_maybeTransitionDrain _ _).sameStock
  | some =>
    refine SameStock.trans ?_ (phasesMoved_maybeTransitionDrain _ _).sameStock
    refine SameStock.trans ?_ sameStock_resolveCompletedDependents
    exact sameStock_of_eq rfl rfl rfl

/-- A finished import keeps the stock. -/
theorem sameStock_noteAffineTerminal (pool : PendingPool I) (phaseId : PhaseId) (taskId : String) :
    pool.SameStock (pool.noteAffineTerminal phaseId taskId) := by
  refine SameStock.trans ?_ (phasesMoved_maybeTransitionDrain _ _).sameStock
  exact sameStock_of_eq rfl rfl rfl

/-- A failed import keeps the stock. -/
theorem sameStock_noteAffineFailed (pool : PendingPool I) (phaseId : PhaseId) (taskId : String) :
    pool.SameStock (pool.noteAffineFailed phaseId taskId) := by
  refine SameStock.trans ?_ (phasesMoved_maybeTransitionDrain _ _).sameStock
  exact sameStock_of_eq rfl rfl rfl

/-- A failure that may be tried again only counts down. -/
theorem sameStock_onItemFailedPendingRetry {taskId : String} :
    (pool.decrementInFlight phaseId).SameStock (pool.onItemFailedPendingRetry phaseId taskId) := by
  refine SameStock.trans ?_ (phasesMoved_maybeTransitionDrain _ _).sameStock
  exact sameStock_of_eq rfl rfl rfl

/-- The walk of a cascade moves items from the pool to its list. -/
structure CascadeWalk.Sheds (w w' : CascadeWalk I) : Prop where
  stock : w'.pool.stock + ↑w'.cascaded = w.pool.stock + ↑w.cascaded
  inFlight : w'.pool.inFlightPerPhase = w.pool.inFlightPerPhase
  buckets : w'.pool.buckets = w.pool.buckets

theorem CascadeWalk.Sheds.trans {w w' w'' : CascadeWalk I} (h : w.Sheds w') (h' : w'.Sheds w'') :
    w.Sheds w'' :=
  ⟨h'.stock.trans h.stock, h'.inFlight.trans h.inFlight, h'.buckets.trans h.buckets⟩

/-- Failing a dependent sheds it. -/
theorem sheds_cascadeFailDependent (w : CascadeWalk I) (depId : String) :
    w.Sheds (cascadeFailDependent w depId) := by
  unfold cascadeFailDependent
  split_ifs
  · exact ⟨rfl, rfl, rfl⟩
  · split
    · exact ⟨rfl, rfl, rfl⟩
    · rename_i item hblocked
      refine ⟨?_, rfl, rfl⟩
      have hshed : item ::ₘ ((w.pool.recordCascaded depId).unblock depId item).stock =
          (w.pool.recordCascaded depId).stock := stock_unblock hblocked
      calc ((w.pool.recordCascaded depId).unblock depId item).stock + ↑(w.cascaded ++ [item])
          _ = (item ::ₘ ((w.pool.recordCascaded depId).unblock depId item).stock) +
                ↑w.cascaded := by
              rw [← coe_add, coe_singleton, ← singleton_add]
              abel
          _ = w.pool.stock + ↑w.cascaded := by
              rw [hshed]
              rfl

/-- A cascade sheds what it fails. -/
theorem sheds_cascadeRounds (rounds : ℕ) (w : CascadeWalk I) : w.Sheds (cascadeRounds rounds w) :=
  cascadeRounds_induction (P := fun w' => w.Sheds w') (fun _ _ _ h => h.trans ⟨rfl, rfl, rfl⟩)
    (fun w' depId h => h.trans (sheds_cascadeFailDependent w' depId)) rounds w ⟨rfl, rfl, rfl⟩

/-- Items leave the pool for a list, and the counters stay. -/
structure Cascades (pool : PendingPool I) (cascaded : Multiset (TaskInfo I))
    (pool' : PendingPool I) : Prop where
  stock : pool'.stock + cascaded = pool.stock
  inFlight : pool'.inFlightPerPhase = pool.inFlightPerPhase
  filed : pool.Filed → pool'.Filed

/-- The same stock cascades nothing. -/
theorem SameStock.cascades (h : pool.SameStock pool') : pool.Cascades 0 pool' :=
  ⟨by rw [add_zero, h.stock], h.inFlight, h.filed⟩

variable {cascaded : Multiset (TaskInfo I)}

section

variable (h : pool.Cascades cascaded pool')

include h

theorem Cascades.trans {cascaded' : Multiset (TaskInfo I)} (h' : pool'.Cascades cascaded' pool'') :
    pool.Cascades (cascaded + cascaded') pool'' := by
  refine ⟨?_, h'.inFlight.trans h.inFlight, fun hfiled => h'.filed (h.filed hfiled)⟩
  rw [← h.stock, ← h'.stock, add_assoc, add_comm cascaded]

/-- Drain transitions after a cascade. -/
theorem Cascades.drained
    (phases : List PhaseId) : pool.Cascades cascaded (phases.foldl maybeTransitionDrain pool') := by
  have hdrained := (phasesMoved_foldl phases pool').sameStock.cascades
  have hall := h.trans hdrained
  rwa [add_zero] at hall

/-- A cascade brings nothing. -/
theorem Cascades.draws : pool.Draws 0 pool' :=
  ⟨by rw [add_zero, ← h.stock]; exact le_add_right _ _, h.inFlight, h.filed⟩

end

/-- What fails in a cascade leaves the stock. -/
theorem cascades_cascade (pool : PendingPool I) (taskId : String) (phases : List PhaseId) :
    pool.Cascades ↑(pool.cascadeFailDependentsOf taskId phases).cascaded
      (pool.cascadeFailDependentsOf taskId phases).pool := by
  have hwalk := sheds_cascadeRounds (pool.listedDependents + 1) ⟨pool, [], phases, [taskId]⟩
  exact ⟨hwalk.stock.trans (add_zero _), hwalk.inFlight, fun hfiled => hfiled.congr hwalk.buckets⟩

/-- The items that fail with a task leave the stock. -/
theorem cascades_onItemFailedPermanent (pool : PendingPool I) (phaseId : PhaseId)
    (taskId : String) :
    (pool.decrementInFlight phaseId).Cascades ↑(pool.onItemFailedPermanent phaseId taskId).2
      (pool.onItemFailedPermanent phaseId taskId).1 := by
  have hfailed : (pool.decrementInFlight phaseId).SameStock { pool.decrementInFlight phaseId with
      inFlightTasks := (pool.decrementInFlight phaseId).inFlightTasks.erase taskId
      softFailed := (pool.decrementInFlight phaseId).softFailed.erase taskId
      failedTasks := insert taskId (pool.decrementInFlight phaseId).failedTasks } :=
    sameStock_of_eq rfl rfl rfl
  have hall := hfailed.cascades.trans (cascades_cascade _ taskId [phaseId])
  exact hall.drained _

/-- The items that fail when the undecided failures of a phase become final. -/
theorem cascades_finalizeSoftFailures (pool : PendingPool I) (phaseId : PhaseId) :
    pool.Cascades ↑((pool.finalizeSoftFailures phaseId).2.flatMap Prod.snd)
      (pool.finalizeSoftFailures phaseId).1 := by
  refine Cascades.drained (foldlRecOn (motive := fun acc : PendingPool I × List PhaseId ×
    List (String × List (TaskInfo I)) => pool.Cascades ↑(acc.2.2.flatMap Prod.snd) acc.1) _ _
    ?_ fun acc h root _ => ?_) _
  · exact (SameStock.refl pool).cascades
  have hfinal : acc.1.SameStock { acc.1 with
      softFailed := acc.1.softFailed.erase root
      failedTasks := insert root acc.1.failedTasks } := sameStock_of_eq rfl rfl rfl
  have hroot := h.trans (hfinal.cascades.trans (cascades_cascade _ root acc.2.1))
  unfold finalizeRoot
  simpa using hroot

end Dependents

section Reinject

/-- Emptying the queue brings nothing. -/
theorem draws_drainQueued (pool : PendingPool I) : pool.Draws 0 pool.drainQueued.1 := by
  have hitems : ∀ (_ : BucketKey) (bucket : Bucket I),
      ({ bucket with items := [] } : Bucket I).items.Sublist bucket.items :=
    fun _ bucket => nil_sublist bucket.items
  have hsub : pool.drainQueued.1.queued.Sublist pool.queued := contents_mapWithKey_sublist hitems
  refine ⟨?_, rfl, fun hfiled => hfiled.mapWithKey rfl fun key bucket => (hitems key bucket).subset⟩
  rw [stock, stock, add_zero]
  exact add_le_add (coe_le.mpr hsub.subperm) le_rfl

/-- A detached item leaves the stock. -/
theorem sheds_detach {id : String} {item : TaskInfo I} (h : pool.blocked.lookup id = some item) :
    pool.Sheds item (pool.detach id item) := by
  unfold detach
  dsimp only
  split
  all_goals exact ⟨(stock_unblock h).symm, rfl, fun hfiled => hfiled.congr rfl⟩

/-- The orphans leave the blocked map. -/
theorem cascades_reconcileBlocked (pool : PendingPool I) (depAlive : String → Bool) :
    pool.Cascades ↑(pool.reconcileBlocked depAlive).2 (pool.reconcileBlocked depAlive).1 := by
  refine foldlRecOn (motive := fun acc : PendingPool I × List (TaskInfo I) =>
    pool.Cascades ↑acc.2 acc.1) _ _ (SameStock.refl pool).cascades ?_
  intro acc h id _
  unfold removeOrphan
  split
  · exact h
  · rename_i item hitem
    have hshed := sheds_detach hitem
    refine ⟨?_, hshed.inFlight.trans h.inFlight, fun hfiled => hshed.filed (h.filed hfiled)⟩
    rw [← h.stock, hshed.stock, ← coe_add, coe_singleton, ← singleton_add item]
    abel

/-- An item is pushed to the head of its queue. -/
theorem draws_pushToQueueHead (pool : PendingPool I) (item : TaskInfo I) :
    pool.Draws {item} (pool.pushToQueueHead item) := by
  have hmoved := (phasesMoved_reactivate (pool.pushFront item) item.phaseId).sameStock
  refine ⟨?_, hmoved.inFlight, fun hfiled => hmoved.filed (filed_pushFront hfiled)⟩
  rw [pushToQueueHead, hmoved.stock, stock_pushFront, add_comm, singleton_add]

/-- Rerouting a dependent brings nothing. -/
theorem draws_rerouteDependent {acc : PendingPool I × List PhaseId} {depId : String} :
    acc.1.Draws 0 (rerouteDependent acc depId).1 := by
  unfold rerouteDependent
  cases hextract : acc.1.extractLiveDependent depId with
  | none => exact (SameStock.refl _).draws 0
  | some taken =>
    obtain ⟨item, rest⟩ := taken
    have hrest : acc.1.Sheds item rest := by
      unfold extractLiveDependent at hextract
      split at hextract
      · rename_i taken htake
        cases hextract
        exact sheds_takeFirstMatch htake
      · obtain ⟨item', hlookup, heq⟩ := Option.map_eq_some_iff.mp hextract
        cases heq
        exact sheds_detach hlookup
    exact hrest.returned (draws_commitItem rest item)

/-- Blocking dependents again brings nothing. -/
theorem draws_reblock (pool : PendingPool I) (id : String) :
    pool.Draws 0 (pool.reblockDependentsOnUncompleted id) := by
  unfold reblockDependentsOnUncompleted
  split_ifs
  · exact (SameStock.refl pool).draws 0
  · dsimp only
    generalize (PendingPool.rerouteIds _ id) = ids
    change pool.Draws (0 + 0) _
    refine Draws.trans (foldlRecOn (motive := fun acc : PendingPool I × List PhaseId =>
      pool.Draws 0 acc.1) _ _ ?_ ?_) ((phasesMoved_foldl _ _).sameStock.draws 0)
    · exact draws_of_eq rfl rfl rfl
    · exact fun acc h depId _ => h.trans draws_rerouteDependent
  · exact (SameStock.refl pool).draws 0

/-- A reinjected item is pushed, or blocked. -/
theorem draws_reinject (pool : PendingPool I) (item : TaskInfo I) :
    pool.Draws {item} (pool.reinject item) := by
  have hmarked : pool.Draws 0 { pool with
      softFailed := pool.softFailed.erase item.taskId
      dormantTasks := pool.dormantTasks.erase item.taskId } :=
    draws_of_eq rfl rfl rfl
  have hreblock := hmarked.trans (draws_reblock _ item.taskId)
  have hpush : ∀ pool : PendingPool I, pool.Draws {item} (pool.pushBack item) := by
    intro pool
    refine ⟨?_, rfl, filed_pushBack⟩
    rw [stock_pushBack, ← singleton_add, add_comm]
  have hall := (hreblock.trans (hpush _)).trans
    ((phasesMoved_rearm _ item.phaseId).sameStock.draws 0)
  exact hall

end Reinject

end DynRunner.PendingPool
