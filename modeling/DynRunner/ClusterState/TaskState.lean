import DynRunner.ClusterState.TaskDefStore

/-!
# Task states and their join keys

Every ledger entry is a task state. Two replicas reconcile an entry by comparing
join keys: the attempt, the band, the terminal rank, the version, two finer ranks
and a content hash of the terminal payload, in this order. A strictly greater key
wins; a tie keeps the local entry.
-/

namespace DynRunner

variable {I : Type}

/-- The variant of a task state, with what that variant alone carries. -/
inductive TaskStatus
  | pending (version : TaskVersion)
  | inFlight (secondary : String) (worker : ℕ) (version : TaskVersion)
  | completed
  | failed (kind : ErrorType) (lastError : String) (version : TaskVersion)
  | unfulfillable (reason lastError : String) (version : TaskVersion)
  | blocked (on : TaskHash)
  | invalidTask (reason lastError : String) (version : TaskVersion)
  | skippedAlreadyDone
  | setupCompleted
  deriving DecidableEq, Repr

/-- A ledger entry. The definition, the routing tail and the attempt are common to
all variants of the source's enumeration, so they stand beside the variant. -/
structure TaskState (I : Type) where
  /-- What the task is. -/
  definition : FrozenTaskDef I
  /-- Where the task would like to run. -/
  routing : TaskRouting
  /-- How often the task has been tried. -/
  attempt : ℕ
  /-- What has become of it. -/
  status : TaskStatus
  deriving DecidableEq, Repr

namespace TaskStatus

/-- The prerequisite a paused task waits on. -/
def blockedOn : TaskStatus → Option TaskHash
  | .blocked on => some on
  | _ => none

/-- Success terminals: the prerequisite's work is there. -/
def isSuccess : TaskStatus → Bool
  | .completed | .skippedAlreadyDone | .setupCompleted => true
  | _ => false

/-- Failure terminals that also fail every task paused on them. -/
def isCascadeTerminal : TaskStatus → Bool
  | .failed .nonRecoverable _ _ | .invalidTask .. => true
  | _ => false

/-- The failure terminals. -/
def isFailureTerminal : TaskStatus → Bool
  | .failed .. | .unfulfillable .. | .invalidTask .. => true
  | _ => false

/-- Terminal states. -/
def isTerminal : TaskStatus → Bool
  | .pending .. | .inFlight .. | .blocked .. => false
  | _ => true

end TaskStatus

/-- Coarse order of states within an attempt. -/
inductive JoinBand
  | nonTerminal
  | blocked
  | terminal
  deriving DecidableEq, Repr

/-- Order of the terminals within an attempt. -/
inductive TerminalRank
  | skippedAlreadyDone
  | setupCompleted
  | failedLike
  | completed
  | invalidTask
  deriving DecidableEq, Repr

/-- Order of the non-terminals at one version. -/
inductive NonTerminalRank
  | pending
  | inFlight
  deriving DecidableEq, Repr

/-- Order of the two failure flavours at one version. -/
inductive FailedLikeRank
  | failed
  | unfulfillable
  deriving DecidableEq, Repr

/-- The discriminants (`as u8`) the source orders by. -/
def JoinBand.rank : JoinBand → ℕ
  | .nonTerminal => 0
  | .blocked => 1
  | .terminal => 2

@[inherit_doc JoinBand.rank]
def TerminalRank.rank : TerminalRank → ℕ
  | .skippedAlreadyDone => 0
  | .setupCompleted => 1
  | .failedLike => 2
  | .completed => 3
  | .invalidTask => 4

@[inherit_doc JoinBand.rank]
def NonTerminalRank.rank : NonTerminalRank → ℕ
  | .pending => 0
  | .inFlight => 1

@[inherit_doc JoinBand.rank]
def FailedLikeRank.rank : FailedLikeRank → ℕ
  | .failed => 0
  | .unfulfillable => 1

/-- The key by which two states of one task are ordered. -/
structure TaskJoinKey where
  /-- A later attempt wins. -/
  attempt : ℕ
  /-- Then the band of the status. -/
  band : JoinBand
  /-- Then the rank among the ends. -/
  terminalRank : TerminalRank
  /-- Then the version. -/
  version : TaskVersion
  /-- Then the rank among the open statuses. -/
  nonterminalRank : NonTerminalRank
  /-- Then the rank among the failures. -/
  failedlike : FailedLikeRank
  /-- Then the hash of what the status carries. -/
  payloadContentHash : UInt64
  deriving DecidableEq, Repr

namespace TaskJoinKey

/-- The key as a lexicographic tuple, in the order of the fields. -/
def toTuple (k : TaskJoinKey) : ℕ ×ₗ ℕ ×ₗ ℕ ×ₗ TaskVersion ×ₗ ℕ ×ₗ ℕ ×ₗ ℕ :=
  toLex (k.attempt, toLex (k.band.rank, toLex (k.terminalRank.rank, toLex (k.version,
    toLex (k.nonterminalRank.rank, toLex (k.failedlike.rank, k.payloadContentHash.toNat))))))

/-- A version is determined by its parts. -/
theorem toTuple_injective : Function.Injective toTuple := by
  rintro ⟨a, b, t, v, n, f, p⟩ ⟨a', b', t', v', n', f', p'⟩ h
  simp only [toTuple, EmbeddingLike.apply_eq_iff_eq, Prod.mk.injEq] at h
  obtain ⟨rfl, hb, ht, rfl, hn, hf, hp⟩ := h
  have hb' : b = b' := by cases b <;> cases b' <;> simp_all [JoinBand.rank]
  have ht' : t = t' := by cases t <;> cases t' <;> simp_all [TerminalRank.rank]
  have hn' : n = n' := by cases n <;> cases n' <;> simp_all [NonTerminalRank.rank]
  have hf' : f = f' := by cases f <;> cases f' <;> simp_all [FailedLikeRank.rank]
  have hp' : p = p' := UInt64.toNat_inj.mp hp
  subst hb' ht' hn' hf' hp'
  rfl

instance : LinearOrder TaskJoinKey := LinearOrder.lift' toTuple toTuple_injective

/-- The order of the source's derived `Ord`, spelled out. -/
theorem lt_iff {k l : TaskJoinKey} : k < l ↔ k.attempt < l.attempt ∨ k.attempt = l.attempt ∧
      (k.band.rank < l.band.rank ∨ k.band.rank = l.band.rank ∧
      (k.terminalRank.rank < l.terminalRank.rank ∨ k.terminalRank.rank = l.terminalRank.rank ∧
      (k.version < l.version ∨ k.version = l.version ∧
      (k.nonterminalRank.rank < l.nonterminalRank.rank ∨
        k.nonterminalRank.rank = l.nonterminalRank.rank ∧
      (k.failedlike.rank < l.failedlike.rank ∨ k.failedlike.rank = l.failedlike.rank ∧
        k.payloadContentHash.toNat < l.payloadContentHash.toNat))))) := by
  change toTuple k < toTuple l ↔ _
  simp only [toTuple, Prod.Lex.toLex_lt_toLex]

end TaskJoinKey

end DynRunner
