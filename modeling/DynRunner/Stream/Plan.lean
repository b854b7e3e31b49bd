import DynRunner.ClusterState.Snapshot
import Mathlib.Data.List.Sort

/-!
# Snapshot stream plans

How a node's state is cut into a sequence of packages: a head with the registers, batches of
task entries in the order of their keys, and a tail with the event tallies captured when the
plan was made. A plan holds keys, not entries; each batch is built from the state of the moment.
-/

namespace DynRunner

open List

variable {I : Type}

/-- The payload encoding of the wire, which is outside the modelled code. -/
class StreamCodec (I : Type) where
  /-- A payload on the wire. -/
  Payload : Type
  /-- `encode_stream_payload`. -/
  encodeStreamPayload : ClusterStateSnapshot I → Except String Payload
  /-- `decode_stream_payload`. -/
  decodeStreamPayload : Payload → Except String (ClusterStateSnapshot I)
  /-- The encoded length of one task entry. -/
  entryLen : TaskState I → Except String ℕ

/-- Decoding inverts encoding. -/
def StreamCodec.RoundTrips (I : Type) [StreamCodec I] : Prop :=
  ∀ (snap : ClusterStateSnapshot I) (payload : StreamCodec.Payload I),
    encodeStreamPayload snap = .ok payload → decodeStreamPayload payload = .ok snap

/-- The bounds of one task batch. -/
structure PackageBudget where
  bytes : ℕ
  tasks : ℕ
  deriving DecidableEq, Repr

/-- `PACKAGE_BYTE_BUDGET` and `PACKAGE_MAX_TASKS`. -/
def packageBudget : PackageBudget := ⟨2 * 1024 * 1024, 4096⟩

/-- One built package. The cursor is the highest task key it advanced past. -/
structure StreamPackage (I : Type) [StreamCodec I] where
  payload : StreamCodec.Payload I
  cursor : Option TaskHash
  done : Bool

/-- The responder's iteration state for one stream. -/
structure SnapshotStreamPlan where
  /-- The keys to send, in order. -/
  keys : List TaskHash
  /-- How many of them were sent. -/
  pos : ℕ
  /-- Whether the head was sent. -/
  headSent : Bool
  /-- The tallies of the start, for the tail. -/
  tallies : Option (HashMap (PhaseId × PhaseTally) ℕ)
  /-- Whether the tail was sent. -/
  tailSent : Bool

namespace ClusterState

variable [RecordCodec I]

/-- The entry of a key and, for a settled one, its outputs, wherever the body lives. -/
def streamEntry (s : ClusterState I) (key : TaskHash) : Option (TaskState I × Option TaskOutputs) :=
  match s.tasks.lookup key with
  | some state => some (state, none)
  | none => s.settledRecord key

end ClusterState

/-- A batch under construction. -/
structure Batch (I : Type) where
  pos : ℕ
  rawBytes : ℕ
  cursor : Option TaskHash
  snap : ClusterStateSnapshot I

/-- Whether the batch takes another key. -/
def Batch.hasRoom (budget : PackageBudget) (b : Batch I) : Bool :=
  decide (b.snap.tasks.keys.length < budget.tasks) &&
    (b.snap.tasks.keys.isEmpty || decide (b.rawBytes < budget.bytes))

/-- Advance past a key. -/
def Batch.advance (b : Batch I) (key : TaskHash) : Batch I :=
  { b with pos := b.pos + 1, cursor := some key }

/-- Put an entry and its outputs into the batch. -/
def Batch.add (b : Batch I) (key : TaskHash) (state : TaskState I) (len : ℕ)
    (outputs : Option TaskOutputs) : Batch I :=
  { b with
    rawBytes := b.rawBytes + (len + key.utf8ByteSize + 16) +
      if outputs.isSome then key.utf8ByteSize + 64 else 0
    snap := { b.snap with
      tasks := b.snap.tasks.insert key state
      taskOutputs := match outputs with
        | some outputs => b.snap.taskOutputs.insert key outputs
        | none => b.snap.taskOutputs } }

namespace SnapshotStreamPlan

/-- Whether a key lies in one of the requested ranges; no range means all of them. -/
def inRange [DefaultHasher] (taskRanges : List ℕ) (key : TaskHash) : Bool :=
  taskRanges.isEmpty || taskRanges.contains (rangeIndex key : ℕ)

/-- `SnapshotStreamPlan::new`: capture a plan over the current ledger. -/
def new [DefaultHasher] (state : ClusterState I) (resumeAfter : Option TaskHash)
    (taskRanges : List ℕ) : SnapshotStreamPlan :=
  let allKeys := state.tasks.keys ++ state.settled.index.keys
  let keys := match resumeAfter with
    | none => allKeys.filter fun k => inRange taskRanges k
    | some cursor => allKeys.filter fun k => decide (cursor < k) && inRange taskRanges k
  { keys := keys.insertionSort (· ≤ ·)
    pos := 0
    headSent := false
    tallies := if resumeAfter.isNone && taskRanges.isEmpty && !state.phaseEventTallies.keys.isEmpty
      then some state.phaseEventTallies else none
    tailSent := false }

/-- `reposition`: skip forward to the first key after the cursor, never backward, and send the
head and the tail again. -/
def reposition (plan : SnapshotStreamPlan) (resumeAfter : Option TaskHash) : SnapshotStreamPlan :=
  let pos := match resumeAfter with
    | none => plan.pos
    | some cursor => max plan.pos (plan.keys.takeWhile fun k => decide (k ≤ cursor)).length
  { plan with pos := pos, headSent := false, tailSent := false }

/-- `complete`: every package has been emitted. -/
def complete (plan : SnapshotStreamPlan) : Bool :=
  plan.headSent && decide (plan.keys.length ≤ plan.pos) && (plan.tailSent || plan.tallies.isNone)

variable [RecordCodec I] [StreamCodec I]

/-- The batch loop of `next_package`. A key without an entry is passed over; an entry that
cannot be encoded ends the loop with an error. -/
def fillBatch (budget : PackageBudget) (state : ClusterState I) :
    List TaskHash → Batch I → Batch I × Option String
  | [], b => (b, none)
  | key :: rest, b =>
    if b.hasRoom budget then
      match state.streamEntry key with
      | none => fillBatch budget state rest (b.advance key)
      | some (taskState, settledOutputs) =>
        match StreamCodec.entryLen taskState with
        | .error e => (b.advance key, some ("snapshot-stream task entry encode: " ++ e))
        | .ok len => fillBatch budget state rest
          ((b.advance key).add key taskState len (settledOutputs.or (state.outputsForHash key)))
    else (b, none)

/-- Encode a partial snapshot into a package. -/
def package (snap : ClusterStateSnapshot I) (cursor : Option TaskHash) (done : Bool) :
    Except String (StreamPackage I) :=
  (StreamCodec.encodeStreamPayload snap).map fun payload => ⟨payload, cursor, done⟩

/-- `next_package`: the head, then task batches, then the tail. -/
def nextPackage (budget : PackageBudget) (plan : SnapshotStreamPlan) (state : ClusterState I) :
    SnapshotStreamPlan × Option (Except String (StreamPackage I)) :=
  if plan.complete then (plan, none)
  else if !plan.headSent then
    let plan := { plan with headSent := true }
    (plan, some (package state.streamHead none plan.complete))
  else if plan.pos < plan.keys.length then
    let (batch, error) := fillBatch budget state (plan.keys.drop plan.pos)
      ⟨plan.pos, 0, none, .default⟩
    let plan := { plan with pos := batch.pos }
    match error with
    | some e => (plan, some (.error e))
    | none => (plan, some (package batch.snap batch.cursor plan.complete))
  else
    let plan := { plan with tailSent := true }
    let tail : ClusterStateSnapshot I :=
      { ClusterStateSnapshot.default with phaseEventTallies := plan.tallies.getD ∅ }
    (plan, some (package tail none true))

/-! ## What a plan captures -/

section Capture

omit [RecordCodec I] [StreamCodec I]

variable [DefaultHasher]

variable {state : ClusterState I} {resumeAfter : Option TaskHash} {taskRanges : List ℕ}

/-- A plan captures the keys of the logical ledger behind the cursor, in the requested ranges. -/
theorem mem_new_keys {k : TaskHash} : k ∈ (new state resumeAfter taskRanges).keys ↔
      state.containsTask k = true ∧ (∀ cursor, resumeAfter = some cursor → cursor < k) ∧
        inRange taskRanges k = true := by
  have hall : k ∈ state.tasks.keys ++ state.settled.index.keys ↔ state.containsTask k = true := by
    simp [ClusterState.containsTask, ClusterState.settledContains, AList.mem_keys]
  unfold new
  cases resumeAfter with
  | none =>
    rw [mem_insertionSort, mem_filter, hall]
    simp
  | some =>
    rw [mem_insertionSort, mem_filter, hall, Bool.and_eq_true, decide_eq_true_iff]
    simp

end Capture

/-! ## What the next package carries -/

/-- What the batch loop does with the keys it takes. -/
structure Filled (state : ClusterState I) (keys : List TaskHash) (b b' : Batch I)
    (taken : List TaskHash) : Prop where
  split : ∃ rest, keys = taken ++ rest
  pos : b'.pos = b.pos + taken.length
  cursor : b'.cursor = taken.getLast?.or b.cursor
  tasks : ∀ k, b'.snap.tasks.lookup k = if k ∈ taken
    then ((state.streamEntry k).map (·.1)).or (b.snap.tasks.lookup k) else b.snap.tasks.lookup k
  rest : b'.snap.phaseEventTallies = b.snap.phaseEventTallies

omit [StreamCodec I] in
/-- A batch may stop at once. -/
theorem Filled.stop (state : ClusterState I) (keys : List TaskHash) (b : Batch I) :
    Filled state keys b b [] :=
  ⟨⟨keys, rfl⟩, rfl, rfl, fun _ => rfl, rfl⟩

variable {state : ClusterState I} {keys : List TaskHash} {b b' : Batch I} {budget : PackageBudget}
  {p : StreamPackage I}

omit [StreamCodec I] in
/-- One more key in front. -/
theorem Filled.cons {key : TaskHash} {taken : List TaskHash}
    {c : Batch I} (h : Filled state keys c b' taken) (hpos : c.pos = b.pos + 1)
    (hcursor : c.cursor = some key) (htasks : ∀ k, c.snap.tasks.lookup k = if k = key
      then ((state.streamEntry k).map (·.1)).or (b.snap.tasks.lookup k) else b.snap.tasks.lookup k)
    (hrest : c.snap.phaseEventTallies = b.snap.phaseEventTallies) :
    Filled state (key :: keys) b b' (key :: taken) where
  split := by
    obtain ⟨rest, hkeys⟩ := h.split
    exact ⟨rest, by rw [hkeys, cons_append]⟩
  pos := by rw [h.pos, hpos, length_cons]; omega
  cursor := by
    rw [h.cursor, hcursor, getLast?_cons]
    cases taken.getLast? <;> rfl
  tasks := fun k => by
    rw [h.tasks k, htasks k]
    by_cases hk : k = key
    · subst hk
      by_cases hmem : k ∈ taken
      · simp only [hmem, if_true, mem_cons, true_or]
        cases state.streamEntry k <;> rfl
      · simp [hmem]
    · simp [hk]
  rest := h.rest.trans hrest

/-- A batch is filled from the first keys on. -/
theorem fillBatch_spec (h : fillBatch budget state keys b = (b', none)) :
    ∃ taken, Filled state keys b b' taken := by
  induction keys generalizing b with
  | nil =>
    obtain rfl : b = b' := congrArg Prod.fst h
    exact ⟨[], .stop state [] b⟩
  | cons key keys ih =>
    rw [fillBatch] at h
    split at h
    · split at h
      · rename_i hentry
        obtain ⟨taken, hfilled⟩ := ih h
        refine ⟨key :: taken, hfilled.cons rfl rfl (fun k => ?_) rfl⟩
        change b.snap.tasks.lookup k = _
        by_cases hk : k = key
        · subst hk
          simp [hentry]
        · simp [hk]
      · rename_i taskState settledOutputs hentry
        split at h
        · cases h
        · obtain ⟨taken, hfilled⟩ := ih h
          refine ⟨key :: taken, hfilled.cons rfl rfl (fun k => ?_) rfl⟩
          change (b.snap.tasks.insert key taskState).lookup k = _
          rw [HashMap.lookup_insert_eq]
          by_cases hk : k = key
          · subst hk
            simp [hentry]
          · simp [hk]
    · obtain rfl : b = b' := congrArg Prod.fst h
      exact ⟨[], .stop state _ b⟩

/-- The three kinds of packages. -/
inductive Built (state : ClusterState I) (plan : SnapshotStreamPlan) (p : StreamPackage I) :
    SnapshotStreamPlan → Prop
  | head (hunsent : plan.headSent = false)
      (hpayload : StreamCodec.encodeStreamPayload state.streamHead = .ok p.payload)
      (hcursor : p.cursor = none) (hdone : p.done = { plan with headSent := true }.complete) :
      Built state plan p { plan with headSent := true }
  | batch (taken rest : List TaskHash) (snap : ClusterStateSnapshot I)
      (hkeys : plan.keys.drop plan.pos = taken ++ rest)
      (hpayload : StreamCodec.encodeStreamPayload snap = .ok p.payload)
      (htasks : ∀ k, snap.tasks.lookup k =
        if k ∈ taken then (state.streamEntry k).map (·.1) else none)
      (htallies : snap.phaseEventTallies = ∅) (hcursor : p.cursor = taken.getLast?)
      (hdone : p.done = { plan with pos := plan.pos + taken.length }.complete) :
      Built state plan p { plan with pos := plan.pos + taken.length }
  | tail (tallies : HashMap (PhaseId × PhaseTally) ℕ) (hpos : plan.keys.length ≤ plan.pos)
      (htallies : plan.tallies = some tallies)
      (hpayload : StreamCodec.encodeStreamPayload
        { ClusterStateSnapshot.default with phaseEventTallies := tallies } = .ok p.payload)
      (hcursor : p.cursor = none) (hdone : p.done = true) :
      Built state plan p { plan with tailSent := true }

omit [RecordCodec I] in
/-- A package is what was encoded. -/
theorem package_eq_ok {snap : ClusterStateSnapshot I} {cursor : Option TaskHash} {done : Bool}
    {plan plan' : SnapshotStreamPlan}
    (h : (plan, some (package snap cursor done)) = (plan', some (.ok p))) : plan = plan' ∧
    StreamCodec.encodeStreamPayload snap = .ok p.payload ∧ p.cursor = cursor ∧ p.done = done := by
  unfold package at h
  cases hencode : StreamCodec.encodeStreamPayload snap with
  | error =>
    rw [hencode] at h
    cases h
  | ok =>
    rw [hencode] at h
    cases h
    exact ⟨rfl, rfl, rfl, rfl⟩

/-- **What `next_package` builds.** -/
theorem nextPackage_built {plan plan' : SnapshotStreamPlan}
    (h : plan.nextPackage budget state = (plan', some (.ok p))) : Built state plan p plan' := by
  unfold nextPackage at h
  split at h
  · cases h
  · rename_i hcomplete
    split at h
    · rename_i hhead
      obtain ⟨rfl, hpayload, hcursor, hdone⟩ := package_eq_ok h
      exact .head (by simpa using hhead) hpayload hcursor hdone
    · rename_i hhead
      split at h
      · split at h
        rename_i batch error hfill
        split at h
        · cases h
        · obtain ⟨taken, hfilled⟩ := fillBatch_spec hfill
          obtain ⟨rfl, hpayload, hcursor, hdone⟩ := package_eq_ok h
          obtain ⟨rest, hkeys⟩ := hfilled.split
          have hpos : batch.pos = plan.pos + taken.length := hfilled.pos
          rw [hpos] at hdone ⊢
          refine .batch taken rest batch.snap hkeys hpayload (fun k => ?_) hfilled.rest
            (hcursor.trans (hfilled.cursor.trans (Option.or_none ..))) hdone
          rw [hfilled.tasks k]
          exact if_congr Iff.rfl (Option.or_none ..) rfl
      · rename_i hpos
        obtain ⟨rfl, hpayload, hcursor, hdone⟩ := package_eq_ok h
        -- The plan is not complete although all keys are out, so a capture exists.
        have hsent : plan.headSent = true := by simpa using hhead
        obtain ⟨tallies, htallies⟩ : ∃ tallies, plan.tallies = some tallies := by
          by_contra hnone
          refine hcomplete ?_
          have hnone : plan.tallies = none :=
            by simpa [Option.eq_none_iff_forall_ne_some] using hnone
          simp [complete, hsent, hnone, Nat.le_of_not_lt hpos]
        refine .tail tallies (Nat.le_of_not_lt hpos) htallies ?_ hcursor hdone
        rw [← hpayload, htallies, Option.getD_some]

end SnapshotStreamPlan

end DynRunner
