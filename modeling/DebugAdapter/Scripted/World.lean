import DebugAdapter.Engine.Basic
import DebugAdapter.Text.Utf8

/-!
# Scripted worlds

A debuggee written down in tables: types, memory, symbols, stacks, and the stops that it will report.
The tables can be changed while the debuggee is being debugged (`apply`). Beside the tables a world
keeps what the engine was made to do: the calls with an effect, and the symbol groups handed out.
-/

namespace DebugAdapter.Scripted

/-- Where a typed value is, relative to a default module and offset. What is not given is taken from
the type. -/
structure Reference where
  typeId : UInt32
  displacement : UInt64 := 0
  offset : Option UInt64 := none
  moduleBase : Option UInt64 := none
  size : Option UInt32 := none
  tag : Option SymbolTag := none
  word : Option UInt64 := none
  deriving DecidableEq, Repr

/-- A type of the debuggee. -/
structure TypeInfo where
  name : Option String := none
  size : UInt32 := 0
  tag : Option SymbolTag := none
  definition : Option String := none
  text : Option String := none
  fields : List (String × Reference) := []
  target : Option Reference := none
  element : Option Reference := none
  elementCount : Option UInt64 := none
  deriving DecidableEq, Repr

/-- A stretch of mapped memory. -/
structure Segment where
  start : UInt64
  bytes : Array UInt8
  deriving DecidableEq, Repr

/-- The outcome of a wait. -/
structure Stop where
  events : List NativeEvent := []
  /-- The engine breakpoints at this offset are hit first. -/
  offset : Option UInt64 := none
  status : Option ExecutionStatus := none
  threads : Option (List UInt32) := none
  current : Option UInt32 := none
  failure : Option StatusWord := none
  deriving DecidableEq, Repr

/-- A call of the engine that has an effect. -/
inductive Call
  | create (enginePath : Option String)
  | clearBreakpoints
  | createProcess (commandLine : String)
  | attachProcess (pid : UInt32)
  | endSession
  | setExecutionStatus (status : ExecutionStatus)
  | execute (command : String)
  | applySettings (settings : EngineSettings)
  | setSymbolPath (path : String)
  | setSourcePath (path : String)
  | reloadSymbols (moduleName : String)
  | addCodeBreakpoint (id : UInt32) (offset : UInt64)
  | removeBreakpoint (id : UInt32)
  | setCurrentThread (thread : UInt32)
  | setFrameIndex (index : UInt32)
  | scopeSymbolGroup (kind : ScopeKind) (withPrevious : Bool)
  | writeVirtual (offset : UInt64) (bytes : List UInt8)
  deriving DecidableEq, Repr

/-- A symbol group that was handed out. An entry that is `none` cannot be read. -/
structure Group where
  entries : List (Option SymbolEntry)
  released : Bool := false
  deriving DecidableEq, Repr

/-- A scripted debuggee and the engine on it. -/
structure World where
  types : List (UInt32 × TypeInfo) := []
  expressions : List (String × Reference) := []
  autoTypeNames : Option String := none
  shortReads : Bool := false
  keepNul : Bool := false
  writeLimit : Option Nat := none
  /-- The calls that fail, by name. -/
  failures : List (String × EngineError) := []
  badOffsets : List UInt64 := []
  threads : List UInt32 := [1]
  moduleName : String := "app"
  pointer32 : Bool := false
  lines : List (String × UInt32 × UInt64) := []
  source : List (UInt64 × SourceLine) := []
  found : List (String × String) := []
  names : List (UInt64 × String) := []
  callStacks : List (UInt32 × List NativeFrame) := []
  symbols : List (String × List (Option SymbolEntry)) := []
  initial : List NativeEvent := []
  interruptStop : Stop := { events := [.breakIn] }
  /-- Mapped memory, the newest stretch first. -/
  memory : List Segment := []
  stops : List Stop := []
  currentThread : UInt32 := 1
  frameIndex : UInt32 := 0
  pid : UInt32 := 4242
  status : ExecutionStatus := .noDebuggee
  /-- The engine's breakpoints, by ascending ids. -/
  breakpoints : List (UInt32 × UInt64) := []
  /-- A wait is under way. -/
  waiting : Bool := false
  /-- The wait that is under way was interrupted. -/
  interrupted : Bool := false
  /-- The calls with an effect, newest first. -/
  calls : List Call := []
  typeNameCalls : Nat := 0
  /-- The groups handed out, oldest first. -/
  groups : List Group := []
  engines : Nat := 0
  /-- The engines let go. -/
  dropped : Nat := 0
  /-- Every engine let go had its groups released before. -/
  orderly : Bool := true
  deriving Repr

/-- Changes to a world. Tables and settings are replaced; memory and stops are added. -/
structure Patch where
  types : Option (List (UInt32 × TypeInfo)) := none
  expressions : Option (List (String × Reference)) := none
  autoTypeNames : Option String := none
  shortReads : Option Bool := none
  keepNul : Option Bool := none
  writeLimit : Option Nat := none
  failures : Option (List (String × EngineError)) := none
  badOffsets : Option (List UInt64) := none
  threads : Option (List UInt32) := none
  moduleName : Option String := none
  pointer32 : Option Bool := none
  lines : Option (List (String × UInt32 × UInt64)) := none
  source : Option (List (UInt64 × SourceLine)) := none
  found : Option (List (String × String)) := none
  names : Option (List (UInt64 × String)) := none
  callStacks : Option (List (UInt32 × List NativeFrame)) := none
  symbols : Option (List (String × List (Option SymbolEntry))) := none
  initial : Option (List NativeEvent) := none
  interruptStop : Option Stop := none
  memory : List Segment := []
  stops : List Stop := []
  currentThread : Option UInt32 := none
  frameIndex : Option UInt32 := none
  pid : Option UInt32 := none
  status : Option ExecutionStatus := none

namespace World

/-- Change a world. -/
def apply (w : World) (p : Patch) : World :=
  { w with
    types := p.types.getD w.types
    expressions := p.expressions.getD w.expressions
    autoTypeNames := p.autoTypeNames <|> w.autoTypeNames
    shortReads := p.shortReads.getD w.shortReads
    keepNul := p.keepNul.getD w.keepNul
    writeLimit := p.writeLimit <|> w.writeLimit
    failures := p.failures.getD w.failures
    badOffsets := p.badOffsets.getD w.badOffsets
    threads := p.threads.getD w.threads
    moduleName := p.moduleName.getD w.moduleName
    pointer32 := p.pointer32.getD w.pointer32
    lines := p.lines.getD w.lines
    source := p.source.getD w.source
    found := p.found.getD w.found
    names := p.names.getD w.names
    callStacks := p.callStacks.getD w.callStacks
    symbols := p.symbols.getD w.symbols
    initial := p.initial.getD w.initial
    interruptStop := p.interruptStop.getD w.interruptStop
    memory := p.memory.reverse ++ w.memory
    stops := w.stops ++ p.stops
    currentThread := p.currentThread.getD w.currentThread
    frameIndex := p.frameIndex.getD w.frameIndex
    pid := p.pid.getD w.pid
    status := p.status.getD w.status }

/-- The world of a patch alone. -/
def ofPatch (p : Patch) : World :=
  ({} : World).apply p

/-- A type by its number. -/
def type? (w : World) (id : UInt32) : Option TypeInfo :=
  (w.types.find? (·.1 == id)).map (·.2)

/-- The byte at an address, `none` if it is not mapped. -/
def byteAt? (w : World) (address : UInt64) : Option UInt8 :=
  -- an address in front of a stretch wraps around to one beyond its end
  w.memory.findSome? fun s => s.bytes[(address - s.start).toNat]?

/-- The mapped bytes from an address on, at most `size`. -/
def mappedBytes (w : World) (address : UInt64) : (size : Nat) → List UInt8
  | 0 => []
  | size + 1 =>
    match w.byteAt? address with
    | none => []
    | some b => b :: w.mappedBytes (address + 1) size

/-- The number in `size` bytes at an address, least significant byte first; `none` if one of them is
not mapped. -/
def wordAt? (w : World) (address : UInt64) : (size : Nat) → Option Nat
  | 0 => some 0
  | size + 1 => do
    let b ← w.byteAt? address
    let rest ← w.wordAt? (address + 1) size
    return b.toNat + 256 * rest

/-- The size of a type, zero if it is unknown. -/
def sizeOf (w : World) (id : UInt32) : UInt32 :=
  ((w.type? id).map (·.size)).getD 0

/-- The value that a reference means, against a default module and offset. -/
def resolve (w : World) (r : Reference) (moduleBase offset : UInt64) : TypedData :=
  let offset := r.offset.getD (offset + r.displacement)
  let size := r.size.getD (w.sizeOf r.typeId)
  let info := w.type? r.typeId
  { moduleBase := r.moduleBase.getD moduleBase
    offset
    typeId := r.typeId
    size
    tag := r.tag.getD ((info.bind (·.tag)).getD (if info.isSome then .base else .null))
    word := r.word.getD (UInt64.ofNat ((w.wordAt? offset (min size.toNat 8)).getD 0)) }

/-- Record a call. -/
def log (w : World) (c : Call) : World :=
  { w with calls := c :: w.calls }

/-- The calls recorded, oldest first, and the world without them. -/
def takeCalls (w : World) : List Call × World :=
  (w.calls.reverse, { w with calls := [] })

end World

end DebugAdapter.Scripted
