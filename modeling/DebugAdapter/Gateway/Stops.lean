import DebugAdapter.Gateway.Worker

/-!
# Stops

What the worker publishes when a native wait has returned. Each native event is translated; then the
engine's threads are compared with the known ones; and if the debuggee stopped without any event
that says so, the stop is reported by how the debuggee had been resumed.
-/

namespace DebugAdapter.Worker

variable {σ : Type} [Engine σ]

/-- The engine's current thread, which becomes the store's; thread 0 if the engine cannot tell. -/
def currentThread : WorkerM σ UInt32 := do
  let thread := (← ask? Engine.currentThread).getD 0
  modifyStore (·.setCurrentThread thread)
  return thread

/-- Take note of a new thread. -/
def threadStarted (thread : UInt32) : WorkerM σ Unit := do
  if !(← get).knownThreads.contains thread then
    modify fun w => { w with knownThreads := w.knownThreads ++ [thread] }
    publish (.threadStarted thread)

/-- Take note that a thread has ended. -/
def threadExited (thread : UInt32) : WorkerM σ Unit := do
  if (← get).knownThreads.contains thread then
    modify fun w => { w with knownThreads := w.knownThreads.erase thread }
    publish (.threadExited thread)

/-- Publish what a native event means. -/
def translate : NativeEvent → WorkerM σ Unit
  | .breakpoint id => do
    let thread ← currentThread
    match (← get).breakpoints.get? id with
    | some breakpoint => publish (.breakpointHit breakpoint thread)
    -- the engine has breakpoints that were not set by a command
    | none => publish (.breakHit thread)
  | .exception code firstChance => do
    publish (.exceptionHit code firstChance (← currentThread))
  | .breakIn => do
    publish (.breakHit (← currentThread))
  | .threadCreated thread => threadStarted thread
  | .threadExited thread => threadExited thread
  -- that its threads have ended is told in `syncThreads`
  | .processExited exitCode => do
    modify fun w => { w with exited := true }
    publish (.processExited exitCode)
  | .output text => publish (.output text)

/-- Publish how the list of threads has changed, and let go of the symbols of threads that are
gone. Nothing is known after the debuggee has exited. -/
def syncThreads : WorkerM σ Unit := do
  let known := (← get).knownThreads
  if (← get).exited then
    modify fun w => { w with knownThreads := [] }
    for thread in known do publish (.threadExited thread)
  else
    match ← ask? Engine.threadIds with
    -- an engine that cannot tell the threads leaves them as they were known
    | none => return ()
    | some alive =>
      for thread in known.filter (!alive.contains ·) do publish (.threadExited thread)
      for thread in alive.filter (!known.contains ·) do publish (.threadStarted thread)
      modify fun w =>
        { w with knownThreads := alive }.retainGroups fun key => alive.contains key.thread

/-- The event for a stop that no native event accounts for. -/
def unexplainedStop (resume : Option Resume) (thread : UInt32) : GatewayEvent :=
  match resume with
  | some .stepped => .stepCompleted thread
  | _ => .breakHit thread

/-- Publish what a native wait has given. -/
def report (events : List NativeEvent) : WorkerM σ Unit := do
  for e in events do translate e
  syncThreads
  -- the debuggee may be gone without an event that says so
  let status ← status
  if status = .noDebuggee then
    if !(← get).exited then
      modify fun w => { w with exited := true }
      publish (.processExited 0)
  else if !events.any NativeEvent.isStop && !status.isRunning then
    let thread ← currentThread
    publish (unexplainedStop (← get).resume thread)
  -- how the debuggee was resumed accounts for one stop only
  if !status.isRunning then
    modify fun w => { w with resume := none }

end DebugAdapter.Worker
