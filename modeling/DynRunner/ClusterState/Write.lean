import DynRunner.ClusterState.State

/-!
# The shared write path of the ledger

Every change of a fat entry goes through `setTaskState`, which updates the range
digest memo, the outcome tally and the reverse index of paused tasks by the
difference between the old and the new entry. Only lookups of the written hash
change.
-/

namespace DynRunner

variable {I : Type}

/-- Take `hash` out of the set of tasks paused on its old prerequisite; a set that
becomes empty is dropped. -/
def removeBlocked (index : HashMap TaskHash (List TaskHash)) (hash : TaskHash) :
    Option TaskHash → HashMap TaskHash (List TaskHash)
  | none => index
  | some on => match index.lookup on with
    | some set =>
      let set := set.filter (· ≠ hash)
      if set.isEmpty then index.erase on else index.insert on set
    | none => index

/-- Put `hash` into the set of tasks paused on its new prerequisite. -/
def addBlocked (index : HashMap TaskHash (List TaskHash)) (hash : TaskHash) :
    Option TaskHash → HashMap TaskHash (List TaskHash)
  | none => index
  | some on => index.insert on (((index.lookup on).getD []).insert hash)

/-- Move `hash` between the sets of the reverse index when its prerequisite changes. -/
def reindexBlocked (index : HashMap TaskHash (List TaskHash)) (hash : TaskHash)
    (oldOn newOn : Option TaskHash) : HashMap TaskHash (List TaskHash) :=
  if oldOn = newOn then index else addBlocked (removeBlocked index hash oldOn) hash newOn

namespace ClusterState

variable [DefaultHasher]

/-- `set_task_state`: write one fat entry and keep the derived summaries in step. -/
def setTaskState (s : ClusterState I) (hash : TaskHash) (new : TaskState I) : ClusterState I :=
  let old := s.tasks.lookup hash
  { s with
    tasks := s.tasks.insert hash new
    rangeFoldMemo := match old with
      | some st => s.rangeFoldMemo.swap hash (taskDigestTerm hash st) (taskDigestTerm hash new)
      | none => s.rangeFoldMemo.add hash (taskDigestTerm hash new)
    outcomeTally := s.outcomeTally.swap (old.bind fun st => outcomeBucketOf st.status)
      (outcomeBucketOf new.status)
    blockedBy := reindexBlocked s.blockedBy hash (old.bind fun st => st.status.blockedOn)
      new.status.blockedOn }

/-- `rewrite_task_state`: write an entry that must already be there. -/
def rewriteTaskState (s : ClusterState I) (hash : TaskHash) (new : TaskState I) :
    ClusterState I :=
  if hash ∈ s.tasks then s.setTaskState hash new else s

variable {s : ClusterState I} {hash : TaskHash} {new : TaskState I}

@[simp] theorem setTaskState_settled : (s.setTaskState hash new).settled = s.settled := rfl

/-- A written entry is read back, and no other entry changes. -/
theorem setTaskState_lookup (h : TaskHash) :
    (s.setTaskState hash new).tasks.lookup h = if h = hash then some new else s.tasks.lookup h :=
  HashMap.lookup_insert_eq

end ClusterState

end DynRunner
