import DebugAdapter.Scripted.World
import DebugAdapter.Text.Decimal

/-!
# The scripted engine

The engine on a scripted world. It answers from the world's tables, records calls that have an
effect, and fails where the script says so.
-/

namespace DebugAdapter.Scripted

/-- Fail with a status word. -/
def failWith {α : Type} (s : StatusWord) : EngineM World α :=
  throw (.status s)

/-- What an option holds, or an unspecified failure. -/
def orFail {α : Type} : Option α → EngineM World α
  | some a => return a
  | none => failWith .fail

/-- Fail if the script wants the call `name` to fail. -/
def scriptedFailure (name : String) : EngineM World Unit := do
  match (← get).failures.find? (·.1 == name) with
  | some (_, e) => throw e
  | none => return ()

/-- A call with an effect: it is recorded, then it may fail. -/
def recorded (name : String) (c : Call) : EngineM World Unit := do
  modify (·.log c)
  scriptedFailure name

namespace World

/-- The value that a pointer or an array starts at. -/
def targetOffset (data : TypedData) : UInt64 :=
  if data.tag = .pointer then data.word else data.offset

/-- Answer a request for a typed value. -/
def typedData (w : World) : TypedRequest → Except EngineError TypedData
  | .ofType moduleBase offset typeId =>
    match w.type? typeId with
    | none => .error (.status .fail)
    | some _ => .ok (w.resolve { typeId } moduleBase offset)
  | .dereference data =>
    match (w.type? data.typeId).bind (·.target) with
    | none => .error (.status .fail)
    | some r => .ok (w.resolve r data.moduleBase (targetOffset data))
  | .field data name =>
    match (w.type? data.typeId).bind fun t => t.fields.find? (·.1 == name) with
    | none => .error (.status .fail)
    | some (_, r) => .ok (w.resolve r data.moduleBase data.offset)
  | .arrayElement data index =>
    match w.type? data.typeId with
    | none => .error (.status .fail)
    | some t =>
      match t.element with
      | none => .error (.status .fail)
      | some r =>
        -- an array whose count is not given has no end
        if t.elementCount.any (· ≤ index) then .error (.status .fail)
        else
          let size := (r.size.getD (w.sizeOf r.typeId)).toUInt64
          .ok (w.resolve r data.moduleBase (targetOffset data + index * size))
  | .evaluate expression =>
    match w.expressions.find? (·.1 == expression) with
    | some (_, r) => .ok (w.resolve r 0x140000000 0)
    | none =>
      -- an expression that is not listed may still be a number
      match expression.toList with
      | [] => .error (.status .invalidArgument)
      | digits =>
        match Text.readDigits (UInt64.size - 1) .tooLarge 0 digits with
        | .ok n => .ok ⟨0, 0, 100, 8, .base, UInt64.ofNat n⟩
        | .error _ => .error (.status .invalidArgument)

/-- Answer a request for a text. -/
def typedText (w : World) (request : TextRequest) (data : TypedData) : Option String := do
  let t ← w.type? data.typeId
  match request with
  | .typeDefinition => t.definition
  | .simpleValue =>
    match t.text with
    | some text => some text
    | none =>
      if 1 ≤ data.size && data.size ≤ 8 then
        (w.wordAt? data.offset data.size.toNat).map toString
      else none

/-- Write bytes, which have to be mapped. -/
def write (w : World) (offset : UInt64) (bytes : List UInt8) : World :=
  { w with memory := ⟨offset, bytes.toArray⟩ :: w.memory }

/-- What a stop reports: the breakpoints hit, then its own events. -/
def eventsAt (w : World) (s : Stop) : List NativeEvent :=
  (w.breakpoints.filter fun b => s.offset == some b.2).map (.breakpoint ·.1) ++ s.events

/-- Report a stop. -/
def report (w : World) (s : Stop) : Except EngineError (List NativeEvent) × World :=
  match s.failure with
  | some word => (.error (.status word), w)
  | none =>
    let events := w.eventsAt s
    let exited := events.any NativeEvent.isProcessExit
    (.ok events,
      { w with
        threads := s.threads.getD w.threads
        currentThread := s.current.getD w.currentThread
        status := s.status.getD (if exited then .noDebuggee else .stopped) })

/-- The native wait. A debuggee that runs and has no stop left keeps it waiting until it is
interrupted. -/
def wait (w : World) : Option (Except EngineError (List NativeEvent)) × World :=
  match w.failures.find? (·.1 == "wait_for_event") with
  | some (_, e) => (some (.error e), { w with waiting := false, interrupted := false })
  | none =>
    -- a debuggee that stands still has its stop already: the first wait gives the events of the start
    if !w.status.isRunning && !w.waiting then (some (.ok w.initial), { w with initial := [] })
    else
      match w.stops with
      | s :: rest =>
        let (answer, w) := report { w with stops := rest, waiting := false, interrupted := false } s
        (some answer, w)
      | [] =>
        if w.interrupted then
          let (answer, w) := report { w with waiting := false, interrupted := false } w.interruptStop
          (some answer, w)
        else (none, { w with waiting := true })

/-- Put a breakpoint among the others, by ascending ids. -/
def insertBreakpoint (id : UInt32) (offset : UInt64) :
    List (UInt32 × UInt64) → List (UInt32 × UInt64)
  | [] => [(id, offset)]
  | b :: rest =>
    if id < b.1 then (id, offset) :: b :: rest
    else if id = b.1 then (id, offset) :: rest
    else b :: insertBreakpoint id offset rest

/-- The symbols of a scope in the current frame. -/
def scopeSymbols (w : World) (kind : ScopeKind) : List (Option SymbolEntry) :=
  let key := toString w.currentThread.toNat ++ ":" ++ toString w.frameIndex.toNat ++ ":" ++ kind.name
  let table := fun key => (w.symbols.find? (·.1 == key)).map (·.2)
  -- the symbols listed for a frame come before those listed for all frames
  (table key <|> table kind.name).getD []

/-- Mark a group as released. -/
def releaseGroup (g : GroupId) (w : World) : World :=
  { w with groups := w.groups.modify g.id fun group => { group with released := true } }

/-- Hand out a group. -/
def addGroup (w : World) (entries : List (Option SymbolEntry)) : GroupId × World :=
  (⟨w.groups.length⟩, { w with groups := w.groups ++ [{ entries }] })

/-- Let the engine go. -/
def release (w : World) : World :=
  { w with
    dropped := w.dropped + 1
    orderly := w.orderly && w.groups.all (·.released) }

end World

instance : DataSpaces World where
  typedData request := do
    scriptedFailure "typed_data"
    match (← get).typedData request with
    | .ok data => return data
    | .error e => throw e
  typedText request data := do
    scriptedFailure "typed_text"
    orFail ((← get).typedText request data)
  fieldNames data := do
    scriptedFailure "field_names"
    let t ← orFail ((← get).type? data.typeId)
    return t.fields.map (·.1)
  typeName _ typeId := do
    modify fun w => { w with typeNameCalls := w.typeNameCalls + 1 }
    scriptedFailure "type_name"
    let w ← get
    let auto := w.autoTypeNames.map (· ++ toString typeId.toNat)
    orFail ((w.type? typeId).bind (·.name) <|> auto)
  readVirtual offset size := do
    scriptedFailure "read_virtual"
    let w ← get
    let bytes := w.mappedBytes offset size.toNat
    if bytes.length < size.toNat && !w.shortReads then failWith .fail
    return bytes
  readString offset maxLength := do
    scriptedFailure "read_string"
    let w ← get
    let bytes := w.mappedBytes offset maxLength.toNat
    if bytes.isEmpty then failWith .fail
    return if w.keepNul then bytes else bytes.takeWhile (· != 0)
  writeVirtual offset bytes := do
    recorded "write_virtual" (.writeVirtual offset bytes)
    let w ← get
    if (w.mappedBytes offset bytes.length).length < bytes.length then failWith .fail
    let written := match w.writeLimit with
      | some limit => bytes.take limit
      | none => bytes
    set (w.write offset written)
    return UInt32.ofNat written.length

instance : Engine World where
  clearBreakpoints := do
    recorded "clear_breakpoints" .clearBreakpoints
    modify fun w => { w with breakpoints := [] }
  createProcess commandLine := do
    recorded "create_process" (.createProcess commandLine)
    modify fun w => { w with status := .stopped }
  attachProcess pid := do
    recorded "attach_process" (.attachProcess pid)
    modify fun w => { w with pid, status := .stopped }
  endSession := do
    recorded "end_session" .endSession
    modify fun w => { w with status := .noDebuggee }
  waitForEvent := World.wait
  interrupt w := { w with interrupted := w.waiting }
  executionStatus := do
    scriptedFailure "execution_status"
    return (← get).status
  setExecutionStatus status := do
    recorded "set_execution_status" (.setExecutionStatus status)
    if (← get).status = .noDebuggee then failWith .unexpected
    modify fun w => { w with status }
  execute command := do
    recorded "execute" (.execute command)
    if command ≠ "gu" then failWith .invalidArgument
    if (← get).status = .noDebuggee then failWith .unexpected
    modify fun w => { w with status := .go }
  applySettings settings := recorded "apply_settings" (.applySettings settings)
  setSymbolPath path := recorded "set_symbol_path" (.setSymbolPath path)
  setSourcePath path := recorded "set_source_path" (.setSourcePath path)
  mainModuleName := do
    scriptedFailure "main_module_name"
    return (← get).moduleName
  reloadSymbols moduleName := recorded "reload_symbols" (.reloadSymbols moduleName)
  offsetByLine file line := do
    scriptedFailure "offset_by_line"
    match (← get).lines.find? fun l => l.1 == file && l.2.1 == line with
    | some (_, _, offset) => return offset
    | none => failWith .invalidArgument
  lineByOffset offset := do
    scriptedFailure "line_by_offset"
    orFail (((← get).source.find? (·.1 == offset)).map (·.2))
  findSourceFile file := do
    scriptedFailure "find_source_file"
    orFail (((← get).found.find? (·.1 == file)).map (·.2))
  nameByOffset offset := do
    scriptedFailure "name_by_offset"
    orFail (((← get).names.find? (·.1 == offset)).map (·.2))
  addCodeBreakpoint id offset := do
    recorded "add_code_breakpoint" (.addCodeBreakpoint id offset)
    if (← get).badOffsets.contains offset then failWith .fail
    modify fun w => { w with breakpoints := World.insertBreakpoint id offset w.breakpoints }
  removeBreakpoint id := do
    recorded "remove_breakpoint" (.removeBreakpoint id)
    modify fun w => { w with breakpoints := w.breakpoints.filter (·.1 != id) }
  threadIds := do
    scriptedFailure "thread_system_ids"
    return (← get).threads
  currentThread := do
    scriptedFailure "current_thread_system_id"
    return (← get).currentThread
  setCurrentThread thread := do
    recorded "set_current_thread" (.setCurrentThread thread)
    if !(← get).threads.contains thread then failWith .invalidArgument
    modify fun w => { w with currentThread := thread }
  currentProcess := do
    scriptedFailure "current_process_system_id"
    return (← get).pid
  isPointer64 := do
    scriptedFailure "is_pointer_64bit"
    return !(← get).pointer32
  stackTrace maxFrames := do
    scriptedFailure "stack_trace"
    let w ← get
    return (((w.callStacks.find? (·.1 == w.currentThread)).map (·.2)).getD []).take maxFrames
  currentFrameIndex := do
    scriptedFailure "current_scope_frame_index"
    return (← get).frameIndex
  setFrameIndex index := do
    recorded "set_scope_frame_index" (.setFrameIndex index)
    modify fun w => { w with frameIndex := index }
  scopeSymbolGroup kind previous := do
    modify fun w => match previous with
      | some g => w.releaseGroup g
      | none => w
    recorded "scope_symbol_group" (.scopeSymbolGroup kind previous.isSome)
    modifyGet fun w => w.addGroup (w.scopeSymbols kind)
  groupCount g := do
    scriptedFailure "group_count"
    return UInt32.ofNat (((← get).groups[g.id]?.map (·.entries)).getD []).length
  groupEntry g index := do
    let entries := ((← get).groups[g.id]?.map (·.entries)).getD []
    orFail (entries[index.toNat]?.bind id)
  releaseGroup := World.releaseGroup
  release := World.release

/-- The provider of the scripted engine. -/
def provider : EngineProvider World where
  name := "fake"
  isSupported w := !w.failures.any (·.1 == "is_supported")
  create options := do
    recorded "create" (.create options.enginePath)
    modify fun w => { w with status := .noDebuggee, engines := w.engines + 1 }

end DebugAdapter.Scripted
