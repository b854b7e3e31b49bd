import DynRunner.Lib.Runs
import DynRunner.Pool.Model

/-!
# The worker slots of a secondary

A slot is attended to while its worker is idle, while a background task listens to its process,
while an event of that process is under way, or while its restart is scheduled. Whoever finds that
a process has ended schedules a restart, and so does whoever fails to start a new one, with two
exceptions. If a worker is killed under memory pressure and the new process does not start, nobody
tries again; and if a message of the consumer does not reach an idle worker, the slot is stopped
and the failure is only logged.
-/

namespace DynRunner

open List

/-- The state of the protocol of a slot. While a background task owns it, it is in transition. -/
inductive RunnerProtocolState
  | idle
  | transitioning
  | stopped
  deriving DecidableEq

/-- What a background task reports. The reports that end nothing are all `progress`. -/
inductive WorkerReport
  | ready
  | taskCompleted
  | disconnected
  | progress
  deriving DecidableEq

/-- What a process is in after its last report. -/
def WorkerReport.protocolAfter : WorkerReport → RunnerProtocolState
  | .disconnected => .stopped
  | _ => .idle

/-- The background task of a slot waits for a report, or it has ended with one. -/
inductive PollTask
  | running (success : WorkerReport)
  | ended (report : WorkerReport)
  deriving DecidableEq

/-- A worker slot. -/
structure WorkerSlot where
  /-- The number of its process. -/
  generation : ℕ
  protocol : RunnerProtocolState
  /-- The task that listens to the process: for its readiness, or while it works. -/
  pollTask : Option PollTask
  /-- The type whose tasks the process can run. -/
  loadedTypeId : Option String
  /-- Whether the process has been ready. -/
  everReady : Bool
  /-- Its undelivered events in the channel of the pool, with the process each is from. -/
  events : List (ℕ × WorkerReport)
  /-- Whether it is in `pending_worker_restarts`. -/
  pendingRestart : Bool

namespace WorkerSlot

variable (h : WorkerSlot)

/-- The outcome of an operation, with whether it has succeeded. If not, a restart is scheduled. -/
def orSchedule (r : WorkerSlot × Bool) : WorkerSlot :=
  if r.2 then r.1 else { r.1 with pendingRestart := true }

/-- A new process, and the task that waits until it is ready. -/
def successor (loadedTypeId : Option String) : WorkerSlot :=
  ⟨h.generation + 1, .transitioning, some (.running .ready), loadedTypeId, false, h.events,
    h.pendingRestart⟩

/-- `stop`, `abort_poll_task` and `note_spawn_failure`: the process is given up, and there is no
new one. -/
def noteSpawnFailure : WorkerSlot :=
  { h with
    protocol := if h.protocol = .idle then .stopped else h.protocol
    pollTask := none
    everReady := false }

/-- `restart_worker_async`. -/
def restartWorkerAsync (spawns : Bool) : WorkerSlot × Bool :=
  if spawns then (h.successor (if h.everReady then h.loadedTypeId else none), true)
  else (h.noteSpawnFailure, false)

/-- `assign_task`. Only an idle worker is sent a task. -/
def assignTask (sends : Bool) : WorkerSlot × Bool :=
  if h.protocol ≠ .idle then (h, false)
  else if sends then
    ({ h with protocol := .transitioning, pollTask := some (.running .taskCompleted) }, true)
  else ({ h with protocol := .stopped }, false)

/-- `send_custom`: an idle worker is sent the message at once, for any other it waits. -/
def sendCustom (sends : Bool) : WorkerSlot :=
  if h.protocol = .idle ∧ sends = false then { h with protocol := .stopped } else h

/-- `reclaim_protocol`: the protocol comes back from a background task that has ended. -/
def reclaimProtocol : WorkerSlot :=
  match h.pollTask with
  | some (.ended report) =>
    { h with
      protocol := report.protocolAfter
      pollTask := none
      everReady := h.everReady || report.protocolAfter = .idle }
  | _ => h

/-- `handle_worker_event`, for the next event. If a task was deferred until the worker is ready,
`bind` says whether it reaches the worker. -/
def handleWorkerEvent (bind : Option Bool) : WorkerSlot :=
  match h.events with
  | [] => h
  | (generation, report) :: events =>
    let h := { h with events }
    if generation ≠ h.generation then h
    else match report with
      | .progress => h
      | .taskCompleted => h.reclaimProtocol
      | .disconnected => orSchedule (h.reclaimProtocol, false)
      | .ready => match bind with
        | none => h.reclaimProtocol
        | some sends => orSchedule (h.reclaimProtocol.assignTask sends)

/-- `assign_resolved_task`. A worker that is not idle is not given the task; one that has loaded
another type is replaced first. -/
def assignResolvedTask (typeId : String) (spawns sends : Bool) : WorkerSlot :=
  if h.protocol ≠ .idle then h
  else if h.loadedTypeId = some typeId then orSchedule (h.assignTask sends)
  else if spawns then h.successor (some typeId)
  else orSchedule (h.noteSpawnFailure, false)

/-- What happens to a slot. Its background task may report something at any time, and a restart
that is due is made at the end of an iteration. -/
inductive Event
  | poll (report : WorkerReport)
  | handleWorkerEvent (bind : Option Bool)
  | assignResolvedTask (typeId : String) (spawns sends : Bool)
  | sendToWorker (sends : Bool)
  | handleResourcePressureResult (spawns : Bool)
  | restartDue (spawns : Bool)

/-- The slot after an event. -/
def step : Event → WorkerSlot
  | .poll report => match h.pollTask with
    | some (.running success) =>
      let events := h.events ++ [(h.generation, report)]
      if report = .progress then { h with events }
      else if report = success ∨ report = .disconnected then
        { h with events, pollTask := some (.ended report) }
      else h
    | _ => h
  | .handleWorkerEvent bind => h.handleWorkerEvent bind
  | .assignResolvedTask typeId spawns sends => h.assignResolvedTask typeId spawns sends
  -- A failure of the next two is logged, and nothing is scheduled.
  | .sendToWorker sends => h.sendCustom sends
  | .handleResourcePressureResult spawns => (h.restartWorkerAsync spawns).1
  | .restartDue spawns =>
    if h.pendingRestart then
      orSchedule ({ h with pendingRestart := false }.restartWorkerAsync spawns)
    else h

/-- A slot that somebody will come back to. -/
def Attended : Prop :=
  h.protocol = .idle ∨ h.pollTask matches some (.running _) ∨
    (∃ e ∈ h.events, e.1 = h.generation) ∨ h.pendingRestart = true

instance : Decidable h.Attended := by
  unfold Attended
  infer_instance

/-- A restart of the slot is scheduled, or will be when a disconnection is handled. -/
def Replaced : Prop :=
  h.pendingRestart = true ∨ (h.generation, .disconnected) ∈ h.events

/-- An event does not leave the slot to itself: if a replacement after a pressure kill does not
start, or a message does not reach an idle worker, then the slot is replaced anyway. -/
def Recovers : Event → Prop
  | .handleResourcePressureResult spawns => spawns = true ∨ h.Replaced
  | .sendToWorker sends => h.protocol = .idle ∧ sends = false → h.Replaced
  | _ => True

instance : DecidablePred h.Recovers := fun event => by
  unfold Recovers Replaced
  cases event <;> infer_instance

variable {h} {r : WorkerSlot × Bool}

/-- Why a slot is attended to. A process that has disconnected has said so, and the last report of
any other leaves the slot idle. -/
inductive Served (h : WorkerSlot) : Prop
  | scheduled (hpending : h.pendingRestart = true)
  | idle (hidle : h.protocol = .idle) (hpoll : h.pollTask = none)
  | running (success : WorkerReport) (hpoll : h.pollTask = some (.running success))
  | disconnected (he : (h.generation, .disconnected) ∈ h.events)
  | done (report : WorkerReport) (hpoll : h.pollTask = some (.ended report))
      (hidle : report.protocolAfter = .idle) (hlast : report ≠ .progress)
      (he : (h.generation, report) ∈ h.events)

/-- Each reason keeps the slot attended to. -/
theorem Served.attended (hs : h.Served) : h.Attended := by
  cases hs with
  | scheduled hpending => exact .inr (.inr (.inr hpending))
  | idle hidle => exact .inl hidle
  | running success hpoll => exact .inr (.inl (by rw [hpoll]))
  | disconnected he | done _ _ _ _ he => exact .inr (.inr (.inl ⟨_, he, rfl⟩))

/-- Only the last report of the current process matters. -/
theorem Served.withEvents (hs : h.Served) {events : List (ℕ × WorkerReport)}
    (hevents : ∀ report ≠ .progress, (h.generation, report) ∈ h.events →
      (h.generation, report) ∈ events) : { h with events }.Served := by
  cases hs with
  | scheduled hpending => exact .scheduled hpending
  | idle hidle hpoll => exact .idle hidle hpoll
  | running success hpoll => exact .running success hpoll
  | disconnected he => exact .disconnected (hevents _ nofun he)
  | done report hpoll hidle hlast he => exact .done report hpoll hidle hlast (hevents _ hlast he)

/-- An operation that fails is followed by a restart. -/
theorem served_orSchedule (hr : r.2 = true → r.1.Served) : (orSchedule r).Served := by
  unfold orSchedule
  split_ifs with hok
  · exact hr hok
  · exact .scheduled rfl

/-- A task that is sent is listened to. -/
theorem served_assignTask (h : WorkerSlot) (sends : Bool) :
    (orSchedule (h.assignTask sends)).Served := by
  refine served_orSchedule fun hok => ?_
  unfold assignTask at hok ⊢
  split_ifs at hok ⊢
  exact .running _ rfl

/-- A report other than a disconnection is handled. -/
theorem Served.reclaim (hs : h.Served) {report : WorkerReport} {events : List (ℕ × WorkerReport)}
    (hevents : h.events = (h.generation, report) :: events) (hreport : report ≠ .disconnected) :
    { h with events }.reclaimProtocol.Served := by
  unfold reclaimProtocol
  cases hs with
  | scheduled hpending => split <;> exact .scheduled hpending
  | idle hidle hpoll =>
    rw [hpoll]
    exact .idle hidle rfl
  | running success hpoll =>
    rw [hpoll]
    exact .running success rfl
  | disconnected he =>
    rw [hevents, mem_cons] at he
    have he := he.resolve_left fun heq => hreport (congrArg Prod.snd heq).symm
    split <;> exact .disconnected he
  | done report hpoll hidle =>
    rw [hpoll]
    exact .idle hidle rfl

/-- A replaced slot stays so while its events and its schedule are the same. -/
theorem Replaced.served (hr : h.Replaced) {h' : WorkerSlot}
    (hgeneration : h'.generation = h.generation) (hevents : h'.events = h.events)
    (hpending : h'.pendingRestart = h.pendingRestart) : h'.Served := by
  obtain hscheduled | he := hr
  · exact .scheduled (hpending.trans hscheduled)
  · exact .disconnected (by rwa [hgeneration, hevents])

/-- The event that is handled is the last report of the process, or it ends nothing. -/
theorem Served.handleWorkerEvent (hs : h.Served) (bind : Option Bool) :
    (h.handleWorkerEvent bind).Served := by
  unfold WorkerSlot.handleWorkerEvent
  split
  · exact hs
  · rename_i generation report events hevents
    have htaken (hnot : generation = h.generation → report = .progress) :
        { h with events }.Served := hs.withEvents fun last hlast he => by
      rw [hevents, mem_cons] at he
      refine he.resolve_left fun heq => ?_
      cases heq
      exact hlast (hnot rfl)
    dsimp only
    split_ifs with hcurrent
    · exact htaken fun heq => (hcurrent heq).elim
    rw [not_not] at hcurrent
    subst hcurrent
    split
    · exact htaken fun _ => rfl
    · exact hs.reclaim hevents nofun
    · exact served_orSchedule nofun
    · cases bind with
      | none => exact hs.reclaim hevents nofun
      | some sends => exact served_assignTask _ sends

/-- Every event that recovers keeps a reason. -/
theorem Served.step (hs : h.Served) {event : Event} (hevent : h.Recovers event) :
    (h.step event).Served := by
  unfold WorkerSlot.step
  cases event with
  | poll report =>
    dsimp only
    split
    · split_ifs with hprogress
      · exact hs.withEvents fun _ _ he => mem_append_left _ he
      · cases report with
        | progress => exact (hprogress rfl).elim
        | disconnected => exact .disconnected (by simp)
        | _ => exact .done _ rfl rfl nofun (by simp)
      · exact hs
    · exact hs
  | handleWorkerEvent bind => exact hs.handleWorkerEvent bind
  | assignResolvedTask typeId spawns sends =>
    dsimp only [assignResolvedTask]
    split_ifs
    · exact hs
    · exact served_assignTask h sends
    · exact .running _ rfl
    · exact served_orSchedule nofun
  | sendToWorker sends =>
    dsimp only [sendCustom]
    split_ifs with hlost
    · exact (hevent hlost).served rfl rfl rfl
    · exact hs
  | handleResourcePressureResult spawns =>
    cases spawns with
    | false =>
      obtain hspawns | hreplaced := hevent
      · cases hspawns
      · exact hreplaced.served rfl rfl rfl
    | true => exact .running _ rfl
  | restartDue spawns =>
    dsimp only
    split_ifs
    · refine served_orSchedule fun hok => ?_
      cases spawns with
      | false => cases hok
      | true => exact .running _ rfl
    · exact hs

/-- The slots of a secondary. -/
def stepAll (workers : WorkerId → WorkerSlot) (e : WorkerId × Event) : WorkerId → WorkerSlot :=
  Function.update workers e.1 ((workers e.1).step e.2)

/-- **No worker slot is abandoned** in a run that starts with each slot idle, listened to or
scheduled for a restart, and in which every event that fails without a restart meets a slot that
is replaced anyway. -/
theorem slots_attended {workers : WorkerId → WorkerSlot}
    (hrun : RunsTo stepAll (fun workers => ∀ w, { workers w with events := [] }.Served)
      (fun workers e => (workers e.1).Recovers e.2) workers) (w : WorkerId) :
    (workers w).Attended := by
  have hserved : ∀ v, (workers v).Served := by
    refine hrun.invariant (P := fun workers => ∀ v, (workers v).Served) ?_ ?_
    · exact fun workers hs v => (hs v).withEvents fun _ _ he => by cases he
    · intro workers e hs hrecovers v
      rw [stepAll, Function.update_apply]
      split_ifs
      · exact (hs e.1).step hrecovers
      · exact hs v
  exact (hserved w).attended

end WorkerSlot

namespace Sample

open WorkerSlot

/-- A worker that has loaded a type and is idle. -/
def idleWorker : WorkerSlot := ⟨0, .idle, none, some "t", true, [], false⟩

/-- A worker is sent a task and disconnects. A message to it waits, and it is restarted although
a pressure kill does not replace it. -/
theorem disconnected_attended :
    let workers := [(0, .assignResolvedTask "t" true true), (0, .sendToWorker false),
      (0, .poll .disconnected), (0, .handleResourcePressureResult false),
      (0, .handleWorkerEvent none)].foldl stepAll fun _ => idleWorker
    (workers 0).protocol = .transitioning ∧ (workers 0).Attended :=
  ⟨by decide, slots_attended (.foldl (.start fun _ => .idle rfl rfl) _ (by decide)) 0⟩

/-- A worker is killed under pressure, and the process that should replace it does not start. A
message does not reach an idle worker. -/
theorem pressure_abandons :
    ¬([(0, .assignResolvedTask "t" true true), (0, .handleResourcePressureResult false)].foldl
        stepAll (fun _ => idleWorker) 0).Attended ∧
      ¬([(0, .sendToWorker false)].foldl stepAll (fun _ => idleWorker) 0).Attended := by
  decide

end Sample

end DynRunner
