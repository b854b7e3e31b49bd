import DynRunner.Inbox.Model

/-!
# The task ledger leaves the inbox alone

Merges, rewrites, spawns and spills write task entries and what is derived from them; no
custom message and no watermark changes.
-/

namespace DynRunner

variable {I : Type}

namespace ClusterState

/-- Agreement of two states on the custom messages. -/
structure SameInbox (s t : ClusterState I) : Prop where
  messages : t.customMessages = s.customMessages
  watermarks : t.customTerminalWatermarks = s.customTerminalWatermarks

theorem SameInbox.refl (s : ClusterState I) : SameInbox s s := ⟨rfl, rfl⟩

variable {s t : ClusterState I}

theorem SameInbox.trans {u : ClusterState I} (h : SameInbox s t) (h' : SameInbox t u) :
    SameInbox s u := ⟨h'.messages.trans h.messages, h'.watermarks.trans h.watermarks⟩

/-- What leaves everything beside the ledger leaves the inbox. -/
theorem SameBeside.sameInbox (h : SameBeside s t) : SameInbox s t :=
  ⟨h.customMessages, h.customTerminalWatermarks⟩

/-- The same inbox has the same messages. -/
theorem SameInbox.inbox (h : SameInbox s t) (k : String × ℕ) : t.inbox k = s.inbox k := by
  rw [ClusterState.inbox, ClusterState.inbox, h.messages, h.watermarks]

/-- Being compact is a matter of the inbox. -/
theorem SameInbox.inboxCompact (h : SameInbox s t) (hs : s.InboxCompact) : t.InboxCompact := by
  rw [InboxCompact, h.messages, h.watermarks]
  exact hs

/-- Registering a cell leaves the inbox. -/
theorem applySecondaryCellRegistered_sameInbox {hash : TaskHash}
    {cellId : SecondaryCellId} : SameInbox s (s.applySecondaryCellRegistered hash cellId).1 := by
  unfold applySecondaryCellRegistered
  cases s.definitions.internCellAt cellId hash with
  | error => exact .refl s
  | ok =>
    dsimp only
    split <;> exact ⟨rfl, rfl⟩

variable [DefaultHasher]

/-- Adding a task leaves the inbox. -/
theorem Adds.sameInbox {acc r : ApplyResult I} {defId : Option TaskDefId} {hash : TaskHash}
    {task : TaskInfo I} {status : TaskStatus} (h : Adds acc defId hash task status r) :
    SameInbox acc.state r.state := by
  rcases h with ⟨-, rfl⟩ | ⟨-, ⟨-, hstate, -⟩ | ⟨_, _, -, hstate, -⟩⟩
  · exact .refl _
  all_goals
    rw [hstate]
    exact ⟨rfl, rfl⟩

variable [RecordCodec I]

/-- Restoring the tasks leaves the inbox. -/
theorem restoreTasks_sameInbox (s : ClusterState I) (outputs : HashMap TaskHash TaskOutputs)
    (order : List (TaskHash × TaskState I)) : SameInbox s (s.restoreTasks outputs order).1 := by
  have hfold : SameInbox s.resumeDefAllocFloor (s.restoreTasks outputs order).1 := by
    refine foldl_related .refl .trans Prod.fst (fun acc e => ?_) order (s.resumeDefAllocFloor, [])
    have hreg : SameInbox acc.1 (acc.1.registerRestoredDef e.1 e.2.definition) := ⟨rfl, rfl⟩
    exact hreg.trans (mergeTaskStateFuel_steps _ _ e.1 e.2 _).beside.sameInbox
  have hfloor : SameInbox s s.resumeDefAllocFloor := ⟨rfl, rfl⟩
  exact hfloor.trans hfold

end ClusterState

end DynRunner
