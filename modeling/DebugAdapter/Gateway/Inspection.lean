import DebugAdapter.Gateway.Execution
import DebugAdapter.Visualizer.Registry

/-!
# Inspection

How the worker sets breakpoints and looks at the stopped debuggee: its threads, frames, scopes and
variables, and the values of expressions. What was looked up once is kept in the store and given
again under the same handle.
-/

namespace DebugAdapter.Worker

variable {σ : Type} [Engine σ]

/-! ## Breakpoints -/

/-- Set a breakpoint; true if the engine takes it. An id is used up once the line is resolved. -/
def addBreakpoint (b : Breakpoint) : WorkerM σ Bool := do
  match ← ask? (Engine.offsetByLine b.file b.line) with
  | none => return false
  | some offset =>
    let (id, breakpoints) := (← get).breakpoints.nextId
    modify fun w => { w with breakpoints }
    match ← ask? (Engine.addCodeBreakpoint id offset) with
    | none => return false
    | some () =>
      modify fun w => { w with breakpoints := w.breakpoints.insert id b }
      return true

/-- Replace the breakpoints of a file. -/
def setBreakpoints (file : String) (lines : List UInt32) : WorkerM σ (List BreakpointResult) := do
  let (ids, breakpoints) := (← get).breakpoints.takeFile file
  modify fun w => { w with breakpoints }
  for id in ids do
    -- the table has let go of the breakpoint, whether or not the engine does
    let _ ← ask? (Engine.removeBreakpoint id)
  lines.mapM fun line => do
    let breakpoint : Breakpoint := ⟨file, line⟩
    return { breakpoint, verified := ← addBreakpoint breakpoint }

/-! ## Threads, frames and scopes -/

/-- The name shown for a thread. -/
def threadName (thread : UInt32) : String :=
  "Thread #" ++ toString thread.toNat

/-- Put an entity into the store. -/
def register (parent : Handle) (entity : Entity) : WorkerM σ (Option Handle) := do
  return (← withStore (·.add parent entity)).toOption

/-- The threads of the debuggee. -/
def threads : WorkerM σ (List (Registered Thread)) := do
  match ← ask? Engine.threadIds with
  | none => return []
  | some ids =>
    -- a thread that is gone takes its frames with it, the others keep their handles
    modifyStore (·.retainThreads ids)
    for id in ids do
      let _ ← withStore (·.addThread id (threadName id))
    return (← get).store.threads

/-- Where an instruction is in the sources: the file, if it is known, and the line. -/
def sourceOf (offset : UInt64) : WorkerM σ (Option String × UInt32) := do
  match ← ask? (Engine.lineByOffset offset) with
  | none => return (none, 0)
  | some source =>
    -- a file that is not found is shown under the path that the symbols have for it
    let file := (← ask? (Engine.findSourceFile source.file)).getD source.file
    return (some file, source.line)

/-- Look up what is shown for a native frame. -/
def describeFrame (f : NativeFrame) : WorkerM σ Frame := do
  let (file, line) ← sourceOf f.instructionOffset
  let name ← ask? (Engine.nameByOffset f.instructionOffset)
  return { instructionOffset := f.instructionOffset
           order := f.number
           file
           line
           function := name.getD (Text.hexPrefixed f.instructionOffset.toNat) }

/-- Register what `describe` gives for each element, in order. What cannot be registered is left
out. -/
def registerAll {α β : Type} (parent : Handle) (toEntity : β → Entity)
    (describe : α → WorkerM σ (Option β)) (elements : List α) : WorkerM σ (List (Registered β)) := do
  let found ← elements.mapM fun a => do
    match ← describe a with
    | none => return none
    | some b => return (← register parent (toEntity b)).map (⟨·, b⟩)
  return found.filterMap id

/-- The stack of a thread, innermost frame first. -/
def stackTrace (thread : UInt32) : WorkerM σ (List (Registered Frame)) := do
  match ← (selectThread thread).run with
  | .error _ => return []
  | .ok () =>
    let holder ← withStore (·.addThread thread (threadName thread))
    let known := (← get).store.framesOf holder
    -- a stack that was read stands until the debuggee is resumed
    if !known.isEmpty then return known
    match ← ask? (Engine.stackTrace (← get).options.maxFrames) with
    | none => return []
    | some frames => registerAll holder .frame (fun f => some <$> describeFrame f) frames

/-- Make a frame and its thread the current ones. The answer is the thread and the number of the
frame, `none` if the frame is not known. -/
def selectFrame (frame : Handle) : ExceptT EngineError (WorkerM σ) (Option (UInt32 × UInt32)) := do
  let store := (← getThe (Worker σ)).store
  match store.frameAt? frame, store.threadAt? (store.threadOf frame) with
  | some f, some t =>
    selectThread t.systemId
    -- a frame that is selected already is not selected again
    if (← require id Engine.currentFrameIndex) ≠ f.order then
      require id (Engine.setFrameIndex f.order)
    ExceptT.lift (modifyStore (·.setCurrentFrame frame))
    return some (t.systemId, f.order)
  | _, _ => return none

/-- The scope of a kind in a frame, which is registered if it is not known. -/
def scopeOfKind (frame : Handle) (kind : ScopeKind) : WorkerM σ (Option (Registered Scope)) := do
  match ((← get).store.scopesOf frame).find? (·.content.kind == kind) with
  | some scope => return some scope
  | none => return (← register frame (.scope ⟨kind⟩)).map (⟨·, ⟨kind⟩⟩)

/-- The scopes of a frame. -/
def scopes (frame : Handle) : WorkerM σ (List (Registered Scope)) := do
  if ((← get).store.frameAt? frame).isNone then return []
  match ← (selectFrame frame).run with
  | .error _ => return []
  | .ok _ => return (← ScopeKind.all.mapM (scopeOfKind frame)).filterMap id

/-! ## Variables -/

/-- What is shown for a value. -/
def present (v : NamedValue) : MemoryM σ Variable := do
  return .ofRendering v (← VisualizerRegistry.standard.resolve v)

/-- Look up what is shown for a symbol of a group; `none` if it cannot be read or is shown below
another symbol. A symbol without data is shown by the engine's text for it. -/
def describeSymbol (group : GroupId) (index : UInt32) : WorkerM σ (Option Variable) := do
  match ← ask? (Engine.groupEntry group index) with
  | none => return none
  | some entry =>
    if entry.parent.isSome then return none
    inMemory do
      let data ← Memory.create entry.moduleBase entry.offset entry.typeId
      -- the engine is asked for the type only if the group does not name it
      let typeName ← if entry.typeName.isEmpty then Memory.typeName data else pure entry.typeName
      let v : NamedValue := ⟨entry.name, typeName, data⟩
      if data.isNone then return some (.ofRendering v (.leaf entry.valueText))
      return some (← present v)

/-- Show the symbols of a group below a scope. -/
def materialize (scope : Handle) (group : GroupId) (count : UInt32) :
    WorkerM σ (List (Registered Variable)) :=
  registerAll scope .variable (describeSymbol group) ((List.range count.toNat).map UInt32.ofNat)

/-- The variables of a scope. They are decoded anew if the number of symbols has changed. -/
def scopeVariables (scope : Registered Scope) : WorkerM σ (List (Registered Variable)) := do
  let frame := (← get).store.frameOf scope.handle
  match ← (selectFrame frame).run with
  | .error _ | .ok none => return []
  | .ok (some (thread, order)) =>
    let kind := scope.content.kind
    let key : GroupKey := ⟨thread, order, kind⟩
    -- the engine releases the previous group, so the entry for it is taken out first
    let previous ← takeGroup? key
    match ← ask? (Engine.scopeSymbolGroup kind (previous.map (·.group))) with
    -- the previous group was handed over, and stays out of the list
    | none => return []
    | some group =>
      let count := (← ask? (Engine.groupCount group)).getD 0
      let known := (← get).store.variablesOf scope.handle
      let found ←
        if previous.map (·.count) = some count && !known.isEmpty then pure known
        else do
          -- what was shown of other symbols goes
          modifyStore (·.removeChildren scope.handle)
          materialize scope.handle group count
      putGroup key ⟨group, count⟩
      return found

/-- The children of a variable. -/
def expand (holder : Registered Variable) : WorkerM σ (List (Registered Variable)) := do
  let known := (← get).store.variablesOf holder.handle
  -- of a variable without children nothing is kept, and it is decoded again
  if !known.isEmpty then return known
  let children ← inMemory (VisualizerRegistry.standard.children holder.content.origin)
  registerAll holder.handle .variable (fun v => some <$> inMemory (present v)) children

/-- The variables below a scope or a variable. -/
def variablesBelow (reference : Handle) : WorkerM σ (List (Registered Variable)) := do
  match (← get).store.get? reference with
  | some (.scope s) => scopeVariables ⟨reference, s⟩
  | some (.variable v) => expand ⟨reference, v⟩
  | _ => return []

/-! ## Values -/

/-- Write the value of an expression into a variable, and look at the variable anew. -/
def overwrite (target : Variable) (value : String) :
    ExceptT ValueFailure (MemoryM σ) Variable := do
  let new ← ExceptT.lift (Memory.evaluate value)
  if new.isNone then throw (.notEvaluated value)
  let data := target.origin.data
  let size := min data.size.toNat 8
  -- without an address there is nothing to write to
  if size = 0 ∨ data.offset = 0 then throw (.notWritable target.name)
  if !(← ExceptT.lift (Memory.writeBytes data.offset (littleEndianBytes size new.word.toNat))) then
    throw (.notWritten target.name)
  -- what is shown is read back from the memory
  let refreshed ← ExceptT.lift (Memory.create data.moduleBase data.offset data.typeId)
  ExceptT.lift (present ⟨target.name, target.typeName, refreshed⟩)

/-- Set the first variable of a name below a scope or a variable. -/
def setVariable (holder : Handle) (name value : String) :
    WorkerM σ (Except ValueFailure (Registered Variable)) := do
  match ((← get).store.variablesOf holder).find? (·.content.name == name) with
  | none => return .error (.notFound name)
  | some target =>
    -- the value is written even if the frame could not be selected
    let _ ← (selectFrame ((← get).store.frameOf holder)).run
    match ← inMemory (overwrite target.content value).run with
    | .error e => return .error e
    | .ok shown =>
      -- the children were decoded from the old value
      modifyStore fun s => (s.removeChildren target.handle).updateVariable target.handle
        fun _ => shown
      return .ok ⟨target.handle, shown⟩

/-- Evaluate an expression in a frame, or in the current one. A value that can be expanded is kept
below that frame. -/
def evaluate (expression : String) (frame : Option Handle) :
    WorkerM σ (Except ValueFailure EvaluateResult) := do
  let store := (← get).store
  let frame := (frame <|> store.currentFrame).filter fun f => (store.frameAt? f).isSome
  if let some f := frame then
    -- the expression is evaluated even if the frame could not be selected
    let _ ← (selectFrame f).run
  let found ← inMemory do
    let data ← Memory.evaluate expression
    if data.isNone then return none
    return some (← present (← Memory.named expression data))
  match found, frame with
  | none, _ => return .error (.notEvaluated expression)
  | some shown, some f =>
    let reference ← if shown.hasChildren then register f (.variable shown) else pure none
    return .ok ⟨shown.value, shown.typeName, reference.getD .none⟩
  -- without a frame there is nothing to keep the value below
  | some shown, none => return .ok ⟨shown.value, shown.typeName, .none⟩

end DebugAdapter.Worker
