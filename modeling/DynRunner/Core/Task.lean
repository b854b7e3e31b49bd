import Mathlib.Data.Prod.Lex
import Mathlib.Data.String.Basic

/-!
# Tasks, error kinds and version stamps

The vocabulary shared by every node: error kinds and their wire text, version
stamps with their lexicographic order, the task descriptor a primary originates
and the content hash that keys it in the replicated ledger.
-/

namespace DynRunner

/-- Ledger key of a task: the wire-canonical content hash. -/
abbrev TaskHash := String

abbrev PhaseId := String

/-- What the standard hasher is fed, one atom for each `hash` call. -/
inductive HashAtom
  | u8 (n : ℕ)
  | u32 (n : ℕ)
  | u64 (n : ℕ)
  | str (s : String)
  deriving DecidableEq, Repr

/-- The process-independent 64-bit hasher (`DefaultHasher::new()`). Nothing is
assumed of it beyond being a function of what it is fed. -/
class DefaultHasher where
  /-- Feed the atoms in order and finish. -/
  hashOne : List HashAtom → UInt64

/-- A task identifier, known only through the atoms it feeds to a hasher. -/
class Identifier (I : Type) where
  /-- What hashing the identifier feeds. -/
  hashAtoms : I → List HashAtom

instance : Identifier String where
  hashAtoms s := [.str s]

/-- Why a task attempt did not succeed. -/
inductive ErrorType
  | resourceExhausted (kind : String)
  | nonRecoverable
  | recoverable
  | unfulfillable (reason : String)
  | invalidTask (reason : String)
  deriving DecidableEq, Repr

/-- The canonical wire text of an error kind. -/
def ErrorType.wireValue : ErrorType → String
  | .resourceExhausted kind => if kind = "memory" then "oom" else "resource_exhausted:" ++ kind
  | .nonRecoverable => "non_recoverable"
  | .recoverable => "recoverable"
  | .unfulfillable reason => "unfulfillable:" ++ reason
  | .invalidTask reason => "invalid_task:" ++ reason

/-- Originator stamp of a task write: the originating epoch, then a sequence
number within it. -/
structure TaskVersion where
  primaryEpoch : ℕ
  seq : ℕ
  deriving DecidableEq, Repr

namespace TaskVersion

/-- The stamp of a write that was never versioned. -/
def default : TaskVersion := ⟨0, 0⟩

/-- The stamp as a lexicographic pair. -/
def toPair (v : TaskVersion) : ℕ ×ₗ ℕ := toLex (v.primaryEpoch, v.seq)

/-- A bucket key is determined by its parts. -/
theorem toPair_injective : Function.Injective toPair := by
  rintro ⟨e, q⟩ ⟨e', q'⟩ h
  simpa [toPair] using h

instance : LinearOrder TaskVersion := LinearOrder.lift' toPair toPair_injective

end TaskVersion

/-- What a task is to the scheduler. -/
inductive TaskKind
  | work
  | setup
  | secondaryAffine
  | secondaryEagerPrep
  deriving DecidableEq, Repr

/-- A declared dependency: the prerequisite's identity, with the definition id
the originator may have stamped on the edge. -/
structure TaskDep where
  /-- The id of the prerequisite. -/
  taskId : String
  /-- The phase of the prerequisite. -/
  phaseId : PhaseId
  /-- Whether its outputs are passed on. -/
  inheritOutputs : Bool
  /-- The id of its definition, if the originator knows it. -/
  defId : Option ℕ
  deriving DecidableEq, Repr

/-- The task descriptor. The fields that are only copied through the ledger
(size, payload, setup affinity, file references) are left out. -/
structure TaskInfo (I : Type) where
  /-- The path of the input. -/
  path : String
  /-- What the consumer knows the task by. -/
  identifier : I
  /-- The phase of the task. -/
  phaseId : PhaseId
  /-- The type of the task. -/
  typeId : String
  /-- Work, setup, an import or a preparation. -/
  kind : TaskKind
  /-- The group of tasks that share a worker. -/
  affinityId : Option String
  /-- The id of the task in its phase. -/
  taskId : String
  /-- What the task depends on. -/
  taskDependsOn : List TaskDep
  /-- The secondaries that should run it. -/
  preferredSecondaries : List String
  /-- The version of that preference. -/
  preferredVersion : TaskVersion
  /-- Where the input was found. -/
  resolvedPath : Option String
  deriving DecidableEq, Repr

/-- `format!("{:016x}", n)`: sixteen lowercase hexadecimal digits. -/
def hex16 (n : UInt64) : String :=
  String.ofList ((List.range 16).reverse.map fun i => Nat.digitChar (n.toNat / 16 ^ i % 16))

/-- The wire-canonical content hash of a task. -/
def computeTaskHash {I : Type} [DefaultHasher] [Identifier I] (binary : TaskInfo I) : TaskHash :=
  hex16 (DefaultHasher.hashOne
    ([.str binary.phaseId, .str binary.typeId, .str binary.taskId, .str binary.path] ++
      Identifier.hashAtoms binary.identifier))

namespace Sample

/-- A concrete hasher to run the model with: a polynomial in the characters it is fed. -/
scoped instance polynomialHasher : DefaultHasher where
  hashOne atoms := atoms.foldl (fun acc atom => match atom with
    | .u8 n | .u32 n | .u64 n => acc * 257 + UInt64.ofNat n + 1
    | .str s => s.toList.foldl (fun acc c => acc * 31 + UInt64.ofNat c.toNat) (acc * 17 + 7)) 5381

/-- A task of phase `"p"` with the given id and prerequisites. -/
def task (taskId : String) (deps : List String) : TaskInfo String :=
  { path := "", identifier := taskId, phaseId := "p", typeId := "t", kind := .work
    affinityId := none, taskId
    taskDependsOn := deps.map fun dep => ⟨dep, "p", false, none⟩
    preferredSecondaries := [], preferredVersion := .default, resolvedPath := none }

end Sample

/-- A value a finished task published. -/
inductive ResultValue
  | inline (value : String)
  | file (path : String)
  deriving DecidableEq, Repr

/-- The published values of a task, sorted by key. -/
abbrev TaskOutputs := List (String × ResultValue)

end DynRunner
