import Mathlib.Data.List.Nodup

/-!
# Reports that wait to be acknowledged

A secondary keeps the reports that have to reach the primary, and sends them again until it knows
that they have arrived: the terminal of a task until it is acknowledged, an important custom message
until its origin sees it posted. Both wait in one buffer; the state of an entry tells which of the
two confirmations drops it.
-/

namespace DynRunner

open List

/-- The reports that have to be confirmed, and all other frames. -/
inductive ReportKind
  | taskComplete
  | taskFailed
  | importantCustomMessage (msgSeq : ℕ)
  | other

/-- A frame to the primary, with the stamps that it gets when it is sent first. -/
structure ReportFrame (P : Type) where
  kind : ReportKind
  payload : P
  deliverySeq : Option ℕ
  msgsPostedThrough : Option ℕ

/-- Why a report is kept, and since when it has been under way. -/
inductive RetainedSendState
  | noRoute
  | awaitingAck (sentAt : ℕ)
  | awaitingCrdtConvergence (sentAt : ℕ)

structure RetainedReport (P : Type) where
  /-- What is sent. -/
  frame : ReportFrame P
  /-- What is known of its delivery. -/
  state : RetainedSendState
  /-- How often it was sent. -/
  attempts : ℕ
  /-- When it is sent again. -/
  nextDue : ℕ

variable {P : Type}

namespace ReportFrame

variable (frame : ReportFrame P)

/-- The frames that name a task. -/
def isTerminal : Bool := frame.kind matches .taskComplete | .taskFailed

def isImportantCustomMessage : Bool := frame.kind matches .importantCustomMessage _

def requiresDeliveryAck : Bool := frame.isTerminal || frame.isImportantCustomMessage

/-- The state of a report after a send, which finds a route or not. -/
def sendState (route : Bool) (now : ℕ) : RetainedSendState :=
  if !route then .noRoute
  else if frame.isImportantCustomMessage then .awaitingCrdtConvergence now else .awaitingAck now

end ReportFrame

def reportReplayBackoffCap : ℕ := 60000

def replayBackoffDelay (ackTimeout attempts : ℕ) : ℕ :=
  let factor := if attempts - 1 < 32 then 1 <<< (attempts - 1) else UInt32.size - 1
  min (ackTimeout * factor) reportReplayBackoffCap

/-- The part of a secondary that reports. Times are in milliseconds. -/
structure Reporter (P : Type) where
  /-- The reports that are not acknowledged. -/
  pendingReportReplays : List (RetainedReport P)
  /-- The number of the next report. -/
  nextDeliverySeq : ℕ
  /-- The number of the next message. -/
  nextCustomMsgSeq : ℕ
  /-- How long an acknowledgement may take. -/
  deliveryAckTimeout : ℕ

namespace Reporter

variable (r : Reporter P)

/-- `send_to_primary`. The frame is returned as it is sent. -/
def sendToPrimary (frame : ReportFrame P) (route : Bool) (now : ℕ) : Reporter P × ReportFrame P :=
  let fresh := frame.requiresDeliveryAck && frame.deliverySeq.isNone
  let sent := { frame with
    deliverySeq := if fresh then some r.nextDeliverySeq else frame.deliverySeq
    msgsPostedThrough := if frame.isTerminal && frame.msgsPostedThrough.isNone then
      some (r.nextCustomMsgSeq - 1) else frame.msgsPostedThrough }
  let entry := ⟨sent, sent.sendState route now, 0,
    if route then now + r.deliveryAckTimeout else now⟩
  ({ r with
    nextDeliverySeq := if fresh then r.nextDeliverySeq + 1 else r.nextDeliverySeq
    pendingReportReplays := if frame.requiresDeliveryAck then r.pendingReportReplays ++ [entry]
      else r.pendingReportReplays }, sent)

/-- `ack_delivery`. -/
def ackDelivery (seq : ℕ) : Reporter P :=
  { r with
    pendingReportReplays := r.pendingReportReplays.filter fun entry =>
      entry.frame.deliverySeq ≠ some seq || entry.state matches .awaitingCrdtConvergence _ }

/-- `drop_retentions_on_own_custom_observation`. -/
def dropRetentionsOnOwnCustomObservation (observed : List ℕ) : Reporter P :=
  { r with
    pendingReportReplays := r.pendingReportReplays.filter fun entry =>
      match entry.state, entry.frame.kind with
      | .awaitingCrdtConvergence _, .importantCustomMessage msgSeq => msgSeq ∉ observed
      | _, _ => true }

/-- An entry that is due and whose number has not been sent in this pass is sent again. -/
def replay (forceDue : Bool) (now : ℕ) (routes : ReportFrame P → Bool)
    (acc : List (RetainedReport P) × List (ReportFrame P)) (entry : RetainedReport P) :
    List (RetainedReport P) × List (ReportFrame P) :=
  let due := forceDue || entry.nextDue ≤ now
  let coalesced := entry.frame.deliverySeq.any fun seq => some seq ∈ acc.2.map (·.deliverySeq)
  if !due || coalesced then (acc.1 ++ [entry], acc.2)
  else
    let attempts := entry.attempts + 1
    (acc.1 ++ [{ entry with
      state := entry.frame.sendState (routes entry.frame) now
      attempts
      nextDue := now + replayBackoffDelay r.deliveryAckTimeout attempts }], acc.2 ++ [entry.frame])

/-- `drain_report_replays_inner`, with the frames that are sent again. -/
def drainReportReplaysInner (forceDue : Bool) (now : ℕ) (routes : ReportFrame P → Bool) :
    Reporter P × List (ReportFrame P) :=
  let (pendingReportReplays, resent) :=
    r.pendingReportReplays.foldl (r.replay forceDue now routes) ([], [])
  ({ r with pendingReportReplays }, resent)

end Reporter

/-- A reporter with the terminals that have been sent and not been acknowledged since, in the order
of their first sends. -/
structure ReportLog (P : Type) where
  reporter : Reporter P
  outstanding : List (ReportFrame P)

/-- What can happen. An important message takes the next number before it is sent. -/
inductive ReportEvent (P : Type)
  | send (kind : ReportKind) (payload : P) (route : Bool) (now : ℕ)
  | takeCustomMsgSeq
  | drain (forceDue : Bool) (now : ℕ) (routes : ReportFrame P → Bool)
  | terminalAck (seq : ℕ)
  | ownCustomObserved (observed : List ℕ)

namespace ReportLog

def step (w : ReportLog P) : ReportEvent P → ReportLog P
  | .send kind payload route now =>
    let (reporter, sent) := w.reporter.sendToPrimary ⟨kind, payload, none, none⟩ route now
    ⟨reporter, if sent.isTerminal then w.outstanding ++ [sent] else w.outstanding⟩
  | .takeCustomMsgSeq =>
    { w with reporter := { w.reporter with
      nextCustomMsgSeq := w.reporter.nextCustomMsgSeq + 1 } }
  | .drain forceDue now routes =>
    { w with reporter := (w.reporter.drainReportReplaysInner forceDue now routes).1 }
  | .terminalAck seq =>
    ⟨w.reporter.ackDelivery seq, w.outstanding.filter (·.deliverySeq ≠ some seq)⟩
  | .ownCustomObserved observed =>
    { w with reporter := w.reporter.dropRetentionsOnOwnCustomObservation observed }

/-- The frames that are kept. -/
def frames (w : ReportLog P) : List (ReportFrame P) :=
  w.reporter.pendingReportReplays.map (·.frame)

variable {w : ReportLog P} {entry : RetainedReport P} {route : Bool} {now : ℕ}

/-- Only messages wait to be posted. -/
def Acked (entry : RetainedReport P) : Prop :=
  entry.frame.isTerminal = true → ∀ sentAt, entry.state ≠ .awaitingCrdtConvergence sentAt

/-- The terminals of the buffer are the outstanding ones, the numbers of its reports increase, and
only messages wait to be posted. -/
structure Retains (w : ReportLog P) : Prop where
  terminals : w.frames.filter (·.isTerminal) = w.outstanding
  numbers : w.frames.map (·.deliverySeq) <+ (range w.reporter.nextDeliverySeq).map some
  acked : ∀ entry ∈ w.reporter.pendingReportReplays, Acked entry

/-- A report that was sent waits for its acknowledgement. -/
theorem acked_of_sendState (h : entry.state = entry.frame.sendState route now) : Acked entry := by
  unfold Acked ReportFrame.isTerminal
  unfold ReportFrame.sendState ReportFrame.isImportantCustomMessage at h
  cases hkind : entry.frame.kind <;> cases route <;> simp_all

/-- A pass keeps the frames and sends some of them, in their order. -/
theorem foldl_replay (r : Reporter P) (forceDue : Bool) (now : ℕ) (routes : ReportFrame P → Bool)
    {entries : List (RetainedReport P)} (hentries : ∀ entry ∈ entries, Acked entry)
    (acc : List (RetainedReport P) × List (ReportFrame P)) (hacc : ∀ entry ∈ acc.1, Acked entry) :
    let after := entries.foldl (r.replay forceDue now routes) acc
    after.1.map (·.frame) = acc.1.map (·.frame) ++ entries.map (·.frame) ∧
      (∀ entry ∈ after.1, Acked entry) ∧ after.2 <+ acc.2 ++ entries.map (·.frame) := by
  induction entries generalizing acc with
  | nil => simpa using hacc
  | cons entry entries ih =>
    obtain ⟨hentry, hentries⟩ := forall_mem_cons.mp hentries
    have hstep : ∃ entry' sent, r.replay forceDue now routes acc entry =
        (acc.1 ++ [entry'], acc.2 ++ sent) ∧ entry'.frame = entry.frame ∧ Acked entry' ∧
          sent <+ [entry.frame] := by
      unfold Reporter.replay
      dsimp only
      split_ifs
      · exact ⟨entry, [], by rw [append_nil], rfl, hentry, nil_sublist _⟩
      · exact ⟨_, _, rfl, rfl, acked_of_sendState rfl, .refl _⟩
    obtain ⟨entry', sent, heq, hframe, hacked, hsent⟩ := hstep
    have hacc' : ∀ e ∈ acc.1 ++ [entry'], Acked e :=
      forall_mem_append.mpr ⟨hacc, forall_mem_singleton.mpr hacked⟩
    obtain ⟨hframes, hrest, hresent⟩ := ih hentries (_, acc.2 ++ sent) hacc'
    rw [foldl_cons, heq]
    refine ⟨hframes.trans (by simp [hframe]), hrest, hresent.trans ?_⟩
    rw [append_assoc]
    exact (Sublist.refl _).append (hsent.append (.refl _))

/-- Entries are dropped, of the terminals those that are acknowledged. -/
theorem Retains.filter (h : w.Retains) {p : RetainedReport P → Bool} {q : ReportFrame P → Bool}
    (hp : ∀ entry ∈ w.reporter.pendingReportReplays, entry.frame.isTerminal = true →
      p entry = q entry.frame) :
    Retains ⟨{ w.reporter with
      pendingReportReplays := w.reporter.pendingReportReplays.filter p },
      w.outstanding.filter q⟩ := by
  have hsub := w.reporter.pendingReportReplays.filter_sublist (p := p)
  refine ⟨?_, ((hsub.map _).map _).trans h.numbers,
    fun entry hentry => h.acked entry (hsub.subset hentry)⟩
  rw [← h.terminals, frames, frames, filter_map, filter_map, filter_map, filter_filter,
    filter_filter]
  refine congrArg _ (filter_congr fun entry hentry => ?_)
  by_cases hterminal : entry.frame.isTerminal = true
  · simp [hterminal, hp entry hentry hterminal]
  · simp [hterminal]

/-- A report is sent first. -/
theorem Retains.retain (h : w.Retains)
    (hseq : entry.frame.deliverySeq = some w.reporter.nextDeliverySeq)
    (hstate : entry.state = entry.frame.sendState route now) :
    Retains ⟨{ w.reporter with
      nextDeliverySeq := w.reporter.nextDeliverySeq + 1
      pendingReportReplays := w.reporter.pendingReportReplays ++ [entry] },
      if entry.frame.isTerminal then w.outstanding ++ [entry.frame] else w.outstanding⟩ := by
  refine ⟨?_, ?_, forall_mem_append.mpr ⟨h.acked, ?_⟩⟩
  · rw [← h.terminals, frames, map_append, filter_append]
    split_ifs with hterminal <;> simp [hterminal, frames]
  · rw [frames, map_append, map_append, range_succ, map_append]
    exact h.numbers.append (by simp [hseq])
  · exact forall_mem_singleton.mpr (acked_of_sendState hstate)

/-- Every event keeps the unacknowledged reports. -/
theorem Retains.step (h : w.Retains) (event : ReportEvent P) : (w.step event).Retains := by
  cases event with
  | send kind payload route now =>
    cases kind with
    | other => exact ⟨h.terminals, h.numbers, h.acked⟩
    | _ => exact h.retain rfl rfl
  | takeCustomMsgSeq => exact ⟨h.terminals, h.numbers, h.acked⟩
  | drain forceDue now routes =>
    obtain ⟨hframes, hacked, -⟩ :=
      foldl_replay w.reporter forceDue now routes h.acked ([], []) (forall_mem_nil _)
    replace hframes : (w.step (.drain forceDue now routes)).frames = w.frames := hframes
    refine ⟨?_, ?_, hacked⟩ <;> rw [hframes]
    exacts [h.terminals, h.numbers]
  | terminalAck seq =>
    refine h.filter fun entry hentry hterminal => ?_
    have hstate := h.acked entry hentry hterminal
    cases hs : entry.state <;> simp_all
  | ownCustomObserved observed =>
    have hkept : w.outstanding = w.outstanding.filter fun _ => true := by simp
    rw [ReportLog.step, hkept]
    refine h.filter fun entry hentry hterminal => ?_
    have hstate := h.acked entry hentry hterminal
    cases hs : entry.state <;> simp_all

/-- **Terminal reports are kept until they are acknowledged**, once each and as they were sent
first. After any events the buffer has exactly the outstanding terminals, in the order of their
first sends; its numbers differ, and a pass sends frames of the buffer again, in their order and
each at most once. -/
theorem terminals_kept_until_acked (deliveryAckTimeout : ℕ) (events : List (ReportEvent P)) :
    let w := events.foldl step ⟨⟨[], 1, 1, deliveryAckTimeout⟩, []⟩
    w.frames.filter (·.isTerminal) = w.outstanding ∧ (w.frames.map (·.deliverySeq)).Nodup ∧
      ∀ forceDue now routes, (w.reporter.drainReportReplaysInner forceDue now routes).2 <+ w.frames
    := by
  intro w
  have h : w.Retains := by
    refine foldlRecOn events step ⟨rfl, nil_sublist _, forall_mem_nil _⟩ fun _ h event _ => ?_
    exact h.step event
  refine ⟨h.terminals, ?_, fun forceDue now routes => ?_⟩
  · exact (nodup_range.map fun _ _ => Option.some.inj).sublist h.numbers
  · exact (foldl_replay w.reporter forceDue now routes h.acked ([], []) (forall_mem_nil _)).2.2

end ReportLog

end DynRunner
