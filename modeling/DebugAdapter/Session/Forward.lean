import DebugAdapter.Session.Basic

/-!
# Forwarding events

What the forwarder of a session does with each event of the gateway: the client is told, and the
session state follows the debuggee. A session that is over is told of no further stop, and that it is
over is told once.
-/

namespace DebugAdapter.Session

/-- Send an event. -/
def forwardEvent (name : String) (body : Json) : Program Unit :=
  Program.perform (.send (.event (.ofJson name body)))

/-- Tell that the debuggee has stopped. -/
def forwardStop (reason : String) (thread : UInt32) (text : Option String) : Program Unit := do
  -- the state is changed first; what it was tells whether the session is over
  let previous ← Program.perform (.updateState (SessionState.advanceTo .stopped))
  if previous ≠ .terminated then
    forwardEvent "stopped" (.object
      ([("reason", .str reason), ("threadId", .int thread.toNat), ("allThreadsStopped", .bool true)]
        ++ Json.optional "text" (text.map Json.str)))

/-- Tell that the session is over. -/
def forwardEnd : Program Unit := do
  let previous ← Program.perform (.updateState fun _ => .terminated)
  if previous ≠ .terminated then forwardEvent "terminated" .null

/-- Tell that a thread was started or has ended. -/
def forwardThread (reason : String) (thread : UInt32) : Program Unit :=
  forwardEvent "thread" (.object [("reason", .str reason), ("threadId", .int thread.toNat)])

/-- The wording for an exception. -/
def exceptionText (code : UInt32) (firstChance : Bool) : String :=
  "Exception 0x" ++ Text.wordText code ++ " (" ++ (if firstChance then "first" else "second") ++
    " chance)"

/-- Forward an event. When the process has exited, the gateway is disposed of. -/
def forward : GatewayEvent → Program Unit
  | .breakpointHit _ thread => forwardStop "breakpoint" thread none
  | .exceptionHit code firstChance thread =>
    forwardStop "exception" thread (some (exceptionText code firstChance))
  | .breakHit thread => forwardStop "break" thread none
  | .stepCompleted thread => forwardStop "step" thread none
  | .threadStarted thread => forwardThread "started" thread
  | .threadExited thread => forwardThread "exited" thread
  | .output text =>
    forwardEvent "output" (.object [("category", .str "stdout"), ("output", .str text)])
  | .processExited exitCode => do
    forwardEvent "exited" (.object [("exitCode", .int exitCode.toNat)])
    forwardEnd
    dispose
  | .terminated => forwardEnd

end DebugAdapter.Session
