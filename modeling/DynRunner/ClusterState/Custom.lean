import DynRunner.ClusterState.State

/-!
# Custom messages

Each message of an origin is unhandled, handled or failed. Terminal messages are
compacted: once every message of an origin up to some sequence number is terminal,
their entries are dropped and only the number is kept as the origin's watermark.
-/

namespace DynRunner

variable {I : Type}

/-- Whether an apply changed the state. -/
inductive ApplyOutcome
  | applied
  | noOp
  deriving DecidableEq, Repr

/-- Handled or failed. -/
def CustomMsgState.isTerminal : CustomMsgState → Bool
  | .handled | .failed => true
  | .unhandled .. => false

/-- The loop of `compact_custom_watermark`: drop the contiguous terminal entries from
`next` on, returning the first number that is not terminal. Each round removes an
entry, so the number of entries is enough fuel. -/
def compactLoop (origin : String) :
    ℕ → HashMap (String × ℕ) CustomMsgState → ℕ → HashMap (String × ℕ) CustomMsgState × ℕ
  | 0, messages, next => (messages, next)
  | fuel + 1, messages, next =>
    match messages.lookup (origin, next) with
    | some state =>
      if state.isTerminal then compactLoop origin fuel (messages.erase (origin, next)) (next + 1)
      else (messages, next)
    | none => (messages, next)

namespace ClusterState

variable (s : ClusterState I)

/-- `custom_watermark_covers`. -/
def customWatermarkCovers (origin : String) (seq : ℕ) : Bool :=
  match s.customTerminalWatermarks.lookup origin with
  | some w => decide (seq ≤ w)
  | none => false

/-- The first sequence number of an origin its watermark does not cover; numbers start
at one. -/
def compactStart (origin : String) : ℕ :=
  match s.customTerminalWatermarks.lookup origin with
  | some w => w + 1
  | none => 1

/-- `compact_custom_watermark`. -/
def compactCustomWatermark (origin : String) : ClusterState I :=
  let (messages, next) :=
    compactLoop origin s.customMessages.entries.length s.customMessages (s.compactStart origin)
  if s.compactStart origin < next then
    { s with
      customMessages := messages
      customTerminalWatermarks := s.customTerminalWatermarks.insert origin (next - 1) }
  else s

/-- `prune_below_custom_watermark`. -/
def pruneBelowCustomWatermark (origin : String) : ClusterState I :=
  match s.customTerminalWatermarks.lookup origin with
  | none => s
  | some w =>
    { s with customMessages := s.customMessages.retain fun k _ => k.1 ≠ origin || w < k.2 }

/-- `apply_custom_message_posted`. -/
def applyCustomMessagePosted (origin : String) (seq : ℕ) (topic : String)
    (data : List ℕ) (isHighVolume : Bool) : ClusterState I × ApplyOutcome :=
  if s.customWatermarkCovers origin seq then (s, .noOp)
  else match s.customMessages.lookup (origin, seq) with
    | none => ({ s with customMessages :=
        s.customMessages.insert (origin, seq) (.unhandled topic data isHighVolume) }, .applied)
    | some _ => (s, .noOp)

/-- Settle a message and compact its origin. -/
def settleCustomMessage (origin : String) (seq : ℕ) (state : CustomMsgState) : ClusterState I :=
  compactCustomWatermark
    { s with customMessages := s.customMessages.insert (origin, seq) state } origin

/-- `apply_custom_message_handled`: a handler's success also overrides a failure. -/
def applyCustomMessageHandled (origin : String) (seq : ℕ) : ClusterState I × ApplyOutcome :=
  if s.customWatermarkCovers origin seq then (s, .noOp)
  else match s.customMessages.lookup (origin, seq) with
    | some .handled => (s, .noOp)
    | some (.unhandled ..) | some .failed | none =>
      (s.settleCustomMessage origin seq .handled, .applied)

/-- `apply_custom_message_failed`. -/
def applyCustomMessageFailed (origin : String) (seq : ℕ) : ClusterState I × ApplyOutcome :=
  if s.customWatermarkCovers origin seq then (s, .noOp)
  else match s.customMessages.lookup (origin, seq) with
    | some .handled | some .failed => (s, .noOp)
    | some (.unhandled ..) | none => (s.settleCustomMessage origin seq .failed, .applied)

/-- `unhandled_custom_messages`: the messages still to be delivered, sorted by origin
and sequence number. -/
def unhandledCustomMessages : List (String × ℕ × String × List ℕ × Bool) :=
  (s.customMessages.entries.filterMap fun e =>
    match e.2 with
    | .unhandled topic data isHighVolume => some (e.1.1, e.1.2, topic, data, isHighVolume)
    | .handled | .failed => none).mergeSort
    fun a b => decide (toLex (a.1, a.2.1) ≤ toLex (b.1, b.2.1))

end ClusterState

end DynRunner
