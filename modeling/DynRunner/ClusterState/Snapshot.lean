import DynRunner.ClusterState.Apply

/-!
# Snapshots and their restore

A snapshot carries the fat entries, their outputs and the registers of a peer.
Restoring it merges entry by entry through the join of live mutations; the order is
the iteration order of the snapshot's task map, which is not fixed, so the loop takes
the list of entries to visit.
-/

namespace DynRunner

variable {I : Type}

/-- The wire form of a peer's state, or of one package of a snapshot stream. -/
structure ClusterStateSnapshot (I : Type) where
  tasks : HashMap TaskHash (TaskState I)
  control : Control
  taskOutputs : HashMap TaskHash TaskOutputs
  phaseEventTallies : HashMap (PhaseId × PhaseTally) ℕ
  customMessages : HashMap (String × ℕ) CustomMsgState
  customTerminalWatermarks : HashMap String ℕ

/-- The snapshot that carries nothing. -/
def ClusterStateSnapshot.default : ClusterStateSnapshot I :=
  ⟨∅, .empty, ∅, ∅, ∅, ∅⟩

/-- The task entries of a snapshot, in the order its map happens to list them. -/
def ClusterStateSnapshot.taskEntries (snap : ClusterStateSnapshot I) :
    List (TaskHash × TaskState I) :=
  snap.tasks.entries.map fun e => (e.1, e.2)

/-- Order of the discovery debt: it only ever advances. -/
def DiscoveryDebt.rank : DiscoveryDebt → ℕ
  | .undeclared => 0
  | .owed => 1
  | .settled => 2

/-- Content hash of a phase graph, independent of the order of its entries. -/
def canonicalPhaseDepsHash [DefaultHasher] (deps : List (PhaseId × List PhaseId)) : UInt64 :=
  let entries := (deps.map fun e => (e.1, e.2.mergeSort fun a b => decide (a ≤ b))).mergeSort
    fun a b => decide (a.1 ≤ b.1)
  DefaultHasher.hashOne (.u64 entries.length :: entries.flatMap fun e =>
    .str e.1 :: .u64 e.2.length :: e.2.map HashAtom.str)

/-- The register part of a restore. -/
def Control.restore [DefaultHasher] (c incoming : Control) : Control :=
  let adopt := primaryRegisterAdopt c.primaryEpoch c.currentPrimary incoming.primaryEpoch
    (incoming.currentPrimary.getD "") && incoming.currentPrimary.isSome
  { currentPrimary := if adopt then incoming.currentPrimary else c.currentPrimary
    primaryEpoch := if adopt then incoming.primaryEpoch else c.primaryEpoch
    phaseDeps :=
      if c.phaseDeps.isEmpty then incoming.phaseDeps
      else if !incoming.phaseDeps.isEmpty &&
          decide (canonicalPhaseDepsHash incoming.phaseDeps <
            canonicalPhaseDepsHash c.phaseDeps) then
        incoming.phaseDeps
      else c.phaseDeps
    phaseMayBeEmpty := if c.phaseMayBeEmpty.isEmpty then incoming.phaseMayBeEmpty
      else c.phaseMayBeEmpty
    phaseNoBarrier := if c.phaseNoBarrier.isEmpty then incoming.phaseNoBarrier
      else c.phaseNoBarrier
    respawnPolicy := c.respawnPolicy.or incoming.respawnPolicy
    runComplete := c.runComplete || incoming.runComplete
    runAborted := c.runAborted.or incoming.runAborted
    gracefulAbortRequested := c.gracefulAbortRequested || incoming.gracefulAbortRequested
    windDownRequested := c.windDownRequested ∪ incoming.windDownRequested
    discoveryDebt := if c.discoveryDebt.rank < incoming.discoveryDebt.rank
      then incoming.discoveryDebt else c.discoveryDebt
    phasesEnded := c.phasesEnded ∪ incoming.phasesEnded }

namespace ClusterState

/-- One incoming custom message of a restore. The second component lists the origins
whose watermark may now advance. -/
def restoreCustomMessage (acc : ClusterState I × List String)
    (e : Sigma fun _ : String × ℕ => CustomMsgState) : ClusterState I × List String :=
  let (s, touched) := acc
  if s.customWatermarkCovers e.1.1 e.1.2 then acc
  else match s.customMessages.lookup e.1, e.2 with
    | none, incoming =>
      ({ s with customMessages := s.customMessages.insert e.1 incoming },
        if incoming = .handled then e.1.1 :: touched else touched)
    | some (.unhandled ..), .handled =>
      ({ s with customMessages := s.customMessages.insert e.1 .handled }, e.1.1 :: touched)
    | some _, _ => acc

/-- The custom-message part of a restore: join the watermarks, drop what they cover,
merge the remaining entries, and compact the origins that gained a handled entry. -/
def restoreCustom (s : ClusterState I)
    (messages : HashMap (String × ℕ) CustomMsgState) (watermarks : HashMap String ℕ) :
    ClusterState I :=
  let s := { s with
    customTerminalWatermarks := mergeGrowMax s.customTerminalWatermarks watermarks }
  let s := watermarks.keys.foldl pruneBelowCustomWatermark s
  let (s, touched) := messages.entries.foldl restoreCustomMessage (s, [])
  touched.foldl compactCustomWatermark s

variable [DefaultHasher] [RecordCodec I]

/-- `outputs_for_hash`: resident outputs, else those of the settled body. -/
def outputsForHash (s : ClusterState I) (hash : TaskHash) : Option TaskOutputs :=
  (s.taskOutputs.lookup hash).or ((s.settledRecord hash).bind (·.2))

/-- `stream_head`: the registers without any per-task payload. -/
def streamHead (s : ClusterState I) : ClusterStateSnapshot I :=
  { ClusterStateSnapshot.default with
    control := s.control
    customMessages := s.customMessages
    customTerminalWatermarks := s.customTerminalWatermarks }

/-- `snapshot`. -/
def snapshot (s : ClusterState I) : ClusterStateSnapshot I :=
  { s.streamHead with
    tasks := s.tasks
    taskOutputs := s.tasks.keys.foldl (fun m hash =>
      match s.outputsForHash hash with
      | some outputs => m.insert hash outputs
      | none => m) ∅
    phaseEventTallies := s.phaseEventTallies }

/-- One iteration of the task loop of a restore. -/
def restoreEntry (outputs : HashMap TaskHash TaskOutputs)
    (acc : ClusterState I × List (TaskInfo I)) (e : TaskHash × TaskState I) :
    ClusterState I × List (TaskInfo I) :=
  let s := acc.1.registerRestoredDef e.1 e.2.definition
  let result := s.mergeTaskState e.1 e.2 (outputs.lookup e.1)
  (result.state, acc.2 ++ result.resumed)

variable (s : ClusterState I)

/-- The task loop of a restore, visiting the entries in the given order. -/
def restoreTasks (outputs : HashMap TaskHash TaskOutputs)
    (order : List (TaskHash × TaskState I)) : ClusterState I × List (TaskInfo I) :=
  order.foldl (restoreEntry outputs) (s.resumeDefAllocFloor, [])

/-- The outputs loop of a restore; settled tasks keep theirs on disk. -/
def restoreOutputs (outputs : HashMap TaskHash TaskOutputs) : ClusterState I :=
  outputs.entries.foldl (fun s e =>
    if s.settledContains e.1 then s else s.recordTaskOutputsValue e.1 (some e.2)) s

/-- `restore_collecting_resumed`, with the iteration order of the snapshot's task map
made explicit. -/
def restoreInOrder (snap : ClusterStateSnapshot I)
    (order : List (TaskHash × TaskState I)) : ClusterState I × List (TaskInfo I) :=
  let (s, resumed) := s.restoreTasks snap.taskOutputs order
  let s := { s with control := s.control.restore snap.control }
  let s := s.restoreOutputs snap.taskOutputs
  let s := { s with
    phaseEventTallies := mergeGrowMax s.phaseEventTallies snap.phaseEventTallies }
  (s.restoreCustom snap.customMessages snap.customTerminalWatermarks, resumed)

/-- `restore`: the order is the one in which the task map happens to be listed. -/
def restore (snap : ClusterStateSnapshot I) : ClusterState I :=
  (s.restoreInOrder snap snap.taskEntries).1

end ClusterState

end DynRunner
