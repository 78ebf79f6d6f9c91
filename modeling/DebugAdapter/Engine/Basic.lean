import DebugAdapter.Engine.Error
import DebugAdapter.Engine.Event
import DebugAdapter.Engine.TypedData

/-!
# The native engine

What the adapter needs of a debugging engine. An engine is a state `σ` with operations on it; every
call may fail and may change the state, also when it fails. `DataSpaces` are the calls that look at
the debuggee's memory and types, `Engine` adds control of the debuggee.

Symbol groups are named by numbers. A group that was handed out is released by `releaseGroup`, or by
handing it back as the predecessor of the next group.
-/

namespace DebugAdapter

/-- A call of an engine with state `σ`. -/
abbrev EngineM (σ : Type) := ExceptT EngineError (StateM σ)

/-- The answer of a call and the engine after it. -/
def EngineM.call {σ α : Type} (m : EngineM σ α) (s : σ) : Except EngineError α × σ :=
  m s

/-- The symbols a scope lists. -/
inductive ScopeKind
  | locals
  | arguments
  deriving DecidableEq, Repr

namespace ScopeKind

/-- The scopes of a frame, in the order they are shown. -/
def all : List ScopeKind :=
  [locals, arguments]

/-- The name shown for a scope. -/
def name : ScopeKind → String
  | locals => "Locals"
  | arguments => "Arguments"

end ScopeKind

/-- How the engine steps and prints numbers. -/
structure EngineSettings where
  sourceLevelStepping : Bool := true
  radix : UInt32 := 10
  deriving DecidableEq, Repr

/-- A frame of the native call stack. -/
structure NativeFrame where
  instructionOffset : UInt64
  number : UInt32
  deriving DecidableEq, Repr

/-- A line of a source file. -/
structure SourceLine where
  file : String
  line : UInt32
  deriving DecidableEq, Repr

/-- A symbol of a group. An entry with a parent is shown below that entry. -/
structure SymbolEntry where
  name : String
  typeName : String
  valueText : String
  moduleBase : UInt64
  offset : UInt64
  typeId : UInt32
  parent : Option UInt32
  subElements : UInt32
  deriving DecidableEq, Repr

/-- The number of a symbol group. -/
structure GroupId where
  id : Nat
  deriving DecidableEq, Repr

/-- The calls that look at the debuggee's memory and types. -/
class DataSpaces (σ : Type) where
  typedData : TypedRequest → EngineM σ TypedData
  typedText : TextRequest → TypedData → EngineM σ String
  fieldNames : TypedData → EngineM σ (List String)
  typeName : (moduleBase : UInt64) → (typeId : UInt32) → EngineM σ String
  /-- Bytes at an address; an engine may answer with fewer than asked for. -/
  readVirtual : (offset : UInt64) → (size : UInt32) → EngineM σ (List UInt8)
  /-- Bytes up to a terminator; an engine may leave the terminator and what follows it. -/
  readString : (offset : UInt64) → (maxLength : UInt32) → EngineM σ (List UInt8)
  /-- Write bytes; the answer is how many were written. -/
  writeVirtual : (offset : UInt64) → List UInt8 → EngineM σ UInt32

/-- A debugging engine. -/
class Engine (σ : Type) extends DataSpaces σ where
  clearBreakpoints : EngineM σ Unit
  createProcess : (commandLine : String) → EngineM σ Unit
  attachProcess : (pid : UInt32) → EngineM σ Unit
  endSession : EngineM σ Unit
  /-- The native wait. It answers `none` as long as it does not return, which can only be while the
  debuggee runs; it is then asked again. -/
  waitForEvent : StateM σ (Option (Except EngineError (List NativeEvent)))
  /-- Make a wait that is under way return. -/
  interrupt : σ → σ
  executionStatus : EngineM σ ExecutionStatus
  setExecutionStatus : ExecutionStatus → EngineM σ Unit
  execute : (command : String) → EngineM σ Unit
  applySettings : EngineSettings → EngineM σ Unit
  setSymbolPath : String → EngineM σ Unit
  setSourcePath : String → EngineM σ Unit
  mainModuleName : EngineM σ String
  reloadSymbols : (moduleName : String) → EngineM σ Unit
  offsetByLine : (file : String) → (line : UInt32) → EngineM σ UInt64
  lineByOffset : (offset : UInt64) → EngineM σ SourceLine
  findSourceFile : (file : String) → EngineM σ String
  nameByOffset : (offset : UInt64) → EngineM σ String
  addCodeBreakpoint : (id : UInt32) → (offset : UInt64) → EngineM σ Unit
  removeBreakpoint : (id : UInt32) → EngineM σ Unit
  threadIds : EngineM σ (List UInt32)
  currentThread : EngineM σ UInt32
  setCurrentThread : (thread : UInt32) → EngineM σ Unit
  currentProcess : EngineM σ UInt32
  isPointer64 : EngineM σ Bool
  stackTrace : (maxFrames : Nat) → EngineM σ (List NativeFrame)
  currentFrameIndex : EngineM σ UInt32
  setFrameIndex : (index : UInt32) → EngineM σ Unit
  /-- The symbols of the current scope. The group given as `previous` is released. -/
  scopeSymbolGroup : ScopeKind → (previous : Option GroupId) → EngineM σ GroupId
  groupCount : GroupId → EngineM σ UInt32
  groupEntry : GroupId → (index : UInt32) → EngineM σ SymbolEntry
  releaseGroup : GroupId → σ → σ
  /-- Let go of the engine. Nothing is called on it afterwards. -/
  release : σ → σ

/-- Where the engine is taken from. -/
structure EngineOptions where
  enginePath : Option String := none
  deriving DecidableEq, Repr

/-- What makes engines of state `σ`. Making one may fail. -/
structure EngineProvider (σ : Type) where
  name : String
  isSupported : σ → Bool
  create : EngineOptions → EngineM σ Unit

/-- The provider of a platform without engine. -/
def EngineProvider.absent {σ : Type} : EngineProvider σ where
  name := "none"
  isSupported _ := false
  create _ := throw .unsupported

end DebugAdapter
