import DynRunner.Pool.Extend

/-!
# Queue operations

The operations that move items in and out of the buckets without looking at their dependencies.
A worker is pinned to a bucket it has taken from. When a bucket runs empty its pins are cleared.
-/

namespace DynRunner.PendingPool

variable {I : Type} (pool : PendingPool I)

/-- The pinned workers of an empty bucket prefer it no longer. -/
def clearDrainedPins (key : BucketKey) : PendingPool I :=
  match pool.buckets.get? key with
  | none => pool
  | some bucket =>
    if bucket.items.isEmpty then
      { pool with
        buckets := pool.buckets.modify key fun bucket => { bucket with pinnedWorkers := [] }
        workerAffinity := bucket.pinnedWorkers.foldl (fun affinity w =>
          affinity.adjust (fun slot => if slot = some key then none else slot) w)
          pool.workerAffinity }
    else pool

/-- Remove the item at a position of a bucket. -/
def removeAt (key : BucketKey) (index : ℕ) : Option (TaskInfo I × PendingPool I) :=
  match pool.buckets.get? key with
  | none => none
  | some bucket =>
    match bucket.items[index]? with
    | none => none
    | some item => some (item, { pool with
        buckets := pool.buckets.modify key fun bucket =>
          { bucket with items := bucket.items.eraseIdx index } })

/-- Whether the items of a phase may leave the queue. -/
def phaseActiveOrDraining (phaseId : PhaseId) : Bool :=
  pool.phaseState.lookup phaseId = some .active || pool.phaseState.lookup phaseId = some .draining

/-- Remove the first queued item of an active or draining phase that satisfies a predicate. -/
def takeFirstMatch (pred : TaskInfo I → Bool) : Option (TaskInfo I × PendingPool I) :=
  let hit := pool.buckets.entries.findSome? fun (key, bucket) =>
    if pool.phaseActiveOrDraining key.phaseId then
      (bucket.items.findIdx? pred).map (key, ·)
    else none
  match hit with
  | none => none
  | some (key, index) =>
    (pool.removeAt key index).map fun (item, pool) => (item, pool.clearDrainedPins key)

/-- Drop the queued items that do not satisfy a predicate. -/
def retain (pred : TaskInfo I → Bool) : PendingPool I :=
  { pool with
    buckets := pool.buckets.mapWithKey fun _ bucket =>
      { bucket with items := bucket.items.filter pred } }

/-- Rewrite the first item of a list that satisfies a predicate. -/
def updateFirst (pred : TaskInfo I → Bool) (update : TaskInfo I → TaskInfo I) :
    List (TaskInfo I) → List (TaskInfo I)
  | [] => []
  | item :: items =>
    if pred item then update item :: items else item :: updateFirst pred update items

variable {pred : TaskInfo I → Bool} {update : TaskInfo I → TaskInfo I} {items : List (TaskInfo I)}

/-- What the rewriting does not touch stays, item by item. -/
theorem map_updateFirst {α : Type} {g : TaskInfo I → α}
    (hupdate : ∀ item, g (update item) = g item) :
    (updateFirst pred update items).map g = items.map g := by
  induction items with
  | nil => rfl
  | cons item items ih =>
    rw [updateFirst]
    split_ifs
    · rw [List.map_cons, List.map_cons, hupdate item]
    · rw [List.map_cons, List.map_cons, ih]

/-- Every item of a rewritten list comes from one of the list, as it is or rewritten. -/
theorem exists_of_mem_updateFirst {item' : TaskInfo I} (h : item' ∈ updateFirst pred update items) :
    ∃ item ∈ items, item' = item ∨ item' = update item := by
  induction items with
  | nil => cases h
  | cons item items ih =>
    rw [updateFirst] at h
    split_ifs at h
    · rcases List.mem_cons.mp h with rfl | h
      · exact ⟨item, List.mem_cons_self, .inr rfl⟩
      · exact ⟨item', List.mem_cons_of_mem _ h, .inl rfl⟩
    · rcases List.mem_cons.mp h with rfl | h
      · exact ⟨item', List.mem_cons_self, .inl rfl⟩
      · obtain ⟨old, hold, heq⟩ := ih h
        exact ⟨old, List.mem_cons_of_mem _ hold, heq⟩

variable (pred) (update)

/-- Rewrite the first queued or blocked item that satisfies a predicate, where it stands. -/
def updateFirstMatchInPlace : PendingPool I :=
  match pool.buckets.entries.find? fun e => e.2.items.any pred with
  | some (key, _) =>
    { pool with
      buckets := pool.buckets.modify key fun bucket =>
        { bucket with items := updateFirst pred update bucket.items } }
  | none =>
    match pool.blocked.entries.find? fun e => pred e.2 with
    | some ⟨id, _⟩ => { pool with blocked := pool.blocked.adjust update id }
    | none => pool

/-- Rewriting an item where it stands. -/
theorem updateFirstMatchInPlace_eq : pool.updateFirstMatchInPlace pred update = { pool with
      buckets := (pool.updateFirstMatchInPlace pred update).buckets
      blocked := (pool.updateFirstMatchInPlace pred update).blocked } := by
  unfold updateFirstMatchInPlace
  split
  · rfl
  · split <;> rfl

variable {update} {pred}

/-- Each bucket has the items that it had, up to the rewriting. -/
theorem exists_of_get?_updateFirstMatch {pool : PendingPool I} {key : BucketKey} {bucket : Bucket I}
    (h : (pool.updateFirstMatchInPlace pred update).buckets.get? key = some bucket) :
    ∃ old, pool.buckets.get? key = some old ∧
      ∀ item' ∈ bucket.items, ∃ item ∈ old.items, item' = item ∨ item' = update item := by
  have hsame : ∀ item' ∈ bucket.items, ∃ item ∈ bucket.items, item' = item ∨ item' = update item :=
    fun item' hitem' => ⟨item', hitem', .inl rfl⟩
  unfold updateFirstMatchInPlace at h
  split at h
  · rw [BTreeMap.get?_modify] at h
    split_ifs at h with hkey
    · obtain ⟨old, hold, rfl⟩ := Option.map_eq_some_iff.mp h
      exact ⟨old, hkey ▸ hold, fun _ => exists_of_mem_updateFirst⟩
    · exact ⟨bucket, h, hsame⟩
  · split at h <;> exact ⟨bucket, h, hsame⟩

/-- Take all queued items out of the pool. -/
def drainQueued : PendingPool I × List (TaskInfo I) :=
  ({ pool with buckets := pool.buckets.mapWithKey fun _ bucket => { bucket with items := [] } },
    pool.queued)

/-- An item that was dispatched comes back. -/
def requeue (item : TaskInfo I) : PendingPool I :=
  ((pool.decrementInFlight item.phaseId).pushFront item).reactivate item.phaseId

/-- An item that was not dispatched is queued in front. -/
def pushToQueueHead (item : TaskInfo I) : PendingPool I :=
  (pool.pushFront item).reactivate item.phaseId

/-- A worker is gone. -/
def releaseWorker (worker : WorkerId) : PendingPool I :=
  let unpin := fun bucket : Bucket I =>
    { bucket with pinnedWorkers := bucket.pinnedWorkers.filter (· ≠ worker) }
  { pool with
    workerAffinity := pool.workerAffinity.erase worker
    buckets := match pool.workerAffinity.lookup worker with
      | some (some key) => pool.buckets.modify key unpin
      | _ => pool.buckets.mapWithKey fun _ => unpin }

end DynRunner.PendingPool
