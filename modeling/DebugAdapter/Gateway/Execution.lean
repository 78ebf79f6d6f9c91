import DebugAdapter.Gateway.Worker

/-!
# Execution control

How the worker starts, resumes, steps and ends a debuggee. Starting takes two parts with the wait for
the first stop between them (`create` and `finishStart`). The entity store is cleared when a debuggee
is started and whenever it is about to be resumed.
-/

namespace DebugAdapter

/-- A debuggee that was started and has not stopped yet. -/
structure NewDebuggee where
  target : Option String
  sourcePaths : List String
  symbolPaths : List String
  deriving DecidableEq, Repr

namespace Worker

variable {σ : Type} [Engine σ]

/-- Create the process of a launch. -/
def launch (r : LaunchRequest) : WorkerM σ (Except LaunchFailure NewDebuggee) := do
  modifyStore Store.clear
  match ← ask (Engine.createProcess r.commandLine) with
  | .error e => return .error (.engine .creatingProcess e)
  | .ok () => return .ok ⟨some r.target, r.sourcePaths, r.symbolPaths⟩

/-- Attach to a process. -/
def attach (r : AttachRequest) : WorkerM σ (Except LaunchFailure NewDebuggee) := do
  modifyStore Store.clear
  match ← ask (Engine.attachProcess r.pid) with
  | .error e => return .error (.engine .attachingToProcess e)
  | .ok () => return .ok ⟨r.target, r.sourcePaths, r.symbolPaths⟩

/-- Publish the debuggee's output among native events. -/
def publishOutput (events : List NativeEvent) : WorkerM σ Unit := do
  for e in events do
    if let .output text := e then publish (.output text)

/-- Set the search paths for a new debuggee, read its symbols and prepare the engine. -/
def prepare (d : NewDebuggee) : ExceptT LaunchFailure (WorkerM σ) ProcessInfo := do
  let pid ← require (.engine .readingProcessInfo) Engine.currentProcess
  -- pointers count as 64 bits wide if the engine cannot tell
  let is64 := (← ExceptT.lift (ask? Engine.isPointer64)).getD true
  let options := (← getThe (Worker σ)).options
  let sources := SearchPath.forSources options.environment (d.sourcePaths ++ options.sourcePaths)
    options.stdLibrary
  require (.engine .settingSourcePaths) (Engine.setSourcePath sources)
  let symbols := SearchPath.forSymbols options.environment d.target
    (d.symbolPaths ++ options.symbolPaths)
  require (.engine .settingSymbolPaths) (Engine.setSymbolPath symbols)
  let moduleName ← require (.engine .readingModuleName) Engine.mainModuleName
  require (.engine .loadingSymbols) (Engine.reloadSymbols moduleName)
  -- a debuggee is of use without the settings as well
  let _ ← ExceptT.lift (ask? (Engine.applySettings options.settings))
  return { pid, pointerSize := if is64 then 8 else 4, target := d.target }

/-- Go on with a new debuggee when the wait for its first stop has returned. -/
def finishStart (d : NewDebuggee) (answer : Except EngineError (List NativeEvent)) :
    WorkerM σ (Except LaunchFailure ProcessInfo) := do
  match answer with
  | .error e => return .error (.engine .attachingDebugger e)
  | .ok events =>
    publishOutput events
    -- what is left of an earlier debuggee does not count for this one
    modify fun w => { w with exited := false, resume := none }
    let threads := (← ask? Engine.threadIds).getD []
    modify fun w => { w with knownThreads := threads }
    let result ← (prepare d).run
    if let .ok info := result then
      modify fun w => { w with process := some info }
    return result

/-- Resume the debuggee by an engine call. -/
def resumeBy (how : Resume) (failure : EngineError → ExecutionFailure) (m : EngineM σ Unit) :
    WorkerM σ (Except ExecutionFailure Unit) := do
  -- the store is cleared first, and so even if the engine refuses
  modifyStore Store.clear
  match ← ask m with
  | .error e => return .error (failure e)
  | .ok () =>
    modify fun w => { w with resume := some how, stalled := false }
    return .ok ()

/-- Let the debuggee run. -/
def continueExecution : WorkerM σ (Except ExecutionFailure Unit) :=
  resumeBy .continued .continuing (Engine.setExecutionStatus .go)

/-- The engine call for a step. -/
def stepCall : StepKind → EngineM σ Unit
  | .into => Engine.setExecutionStatus .stepInto
  | .over => Engine.setExecutionStatus .stepOver
  | .out => Engine.execute "gu"

/-- Make a thread the current one of the engine and of the store. -/
def selectThread (thread : UInt32) : ExceptT EngineError (WorkerM σ) Unit := do
  -- a thread that is selected already is not selected again
  if (← require id Engine.currentThread) ≠ thread then
    require id (Engine.setCurrentThread thread)
  ExceptT.lift (modifyStore (·.setCurrentThread thread))

/-- Let a thread, or the current one, make a step. -/
def step (kind : StepKind) (thread : Option UInt32) :
    WorkerM σ (Except ExecutionFailure Unit) := do
  match thread with
  | none => resumeBy .stepped .stepping (stepCall kind)
  | some id =>
    match ← (selectThread id).run with
    -- the debuggee stays stopped, and so the store stays valid
    | .error e => return .error (.selectingThread id e)
    | .ok () => resumeBy .stepped .stepping (stepCall kind)

/-- End the native session, and with it the work of the engine thread. -/
def terminate : WorkerM σ (Except ExecutionFailure Unit) := do
  -- the engine thread ends whatever the engine answers
  modify fun w => { w with cancelled := true }
  let (answer, session) := (← get).session.finish
  modify fun w => { w with session }
  modifyStore Store.clear
  modify clearGroups
  modify fun w => { w with process := none }
  publish .terminated
  return answer.mapError .endingSession

end Worker

end DebugAdapter
