import DebugAdapter.Config.Basic
import DebugAdapter.Protocol.Request
import DebugAdapter.Session.Program
import DebugAdapter.SourceMap

/-!
# Sessions

What the thread that serves a client keeps to itself, and the ways in which a request can fail.
-/

namespace DebugAdapter

/-- Why a request failed: with a message for the client, or with any other text. -/
inductive RequestFailure
  | reported (m : ErrorMessage)
  | other (text : String)

/-- What a session keeps to itself. -/
structure Session where
  config : AdapterConfig := {}
  /-- The name of the engine, for messages. -/
  engineName : String
  environment : Environment := []
  convention : Convention := config.convention
  sourceMap : SourceMap := {}
  /-- There is a debuggee, or there was one. -/
  started : Bool := false
  /-- There is a forwarder that has not been joined. -/
  forwarding : Bool := false
  /-- The breakpoints set before there was a debuggee, by file. -/
  pending : List (String × List UInt32) := []
  configurationDone : Bool := false
  /-- The events to send after the response to the request. -/
  deferred : List Event := []

/-- Work of the session thread. -/
abbrev SessionM := StateT Session Program

/-- Work on a request. -/
abbrev RequestM := ExceptT RequestFailure SessionM

namespace Session

/-- Perform an action. -/
def perform (a : Action) : SessionM a.Result :=
  StateT.lift (Program.perform a)

/-- Perform an action in the course of a request. -/
def act (a : Action) : RequestM a.Result :=
  ExceptT.lift (perform a)

/-- Make a log record. -/
def log (level : LogLevel) (message : String) : SessionM Unit :=
  perform (.note ⟨level, "dap", some "dbgeng_dap::dap::session", message⟩)

/-- Let a request fail with a message. -/
def failWith {α : Type} (m : ErrorMessage) : RequestM α :=
  throw (.reported m)

/-- What an option holds; the request fails if it holds nothing. -/
def orFailWith {α : Type} (m : ErrorMessage) : Option α → RequestM α
  | some a => return a
  | none => failWith m

/-- The session state. -/
def state : RequestM SessionState :=
  act (.updateState id)

/-- Go to a session state, unless the session is over. -/
def advanceTo (target : SessionState) : RequestM Unit := do
  let _ ← act (.updateState target.advanceTo)

/-- Send an event. -/
def sendEvent (e : Event) : RequestM Unit :=
  act (.send (.event e))

/-- Hand a command to the engine thread and wait for the answer. The result is nothing if commands
are not accepted. -/
def command? (c : Command) : SessionM (Option Reply) := do
  match ← perform (.submit c) with
  | none => return none
  | some ticket =>
    -- these two cannot wait until the engine thread comes out of its wait by itself
    if c = .pause ∨ c = .terminate then perform .interrupt
    return (← perform (.await ticket)).getD c.defaultReply

/-- Hand a command to the engine thread. The request fails if there is no debuggee. -/
def command (c : Command) : RequestM Reply := do
  if !(← getThe Session).started then failWith .noDebuggee
  orFailWith .noDebuggee (← ExceptT.lift (command? c))

/-- Dispose of the gateway, unless someone else does. -/
def dispose : Program Unit := do
  if ← Program.perform .markDisposed then return ()
  Program.perform .closeQueue
  Program.perform .cancel
  Program.perform .interrupt
  Program.perform .awaitEnd
  Program.perform .silence

/-- Wait until the forwarder has sent all events. -/
def joinForwarder : SessionM Unit := do
  if (← get).forwarding then
    modify fun s => { s with forwarding := false }
    perform .joinForwarder

/-- End the debuggee, if there is one, and let go of the engine. -/
def shutdown : SessionM Unit := do
  if (← get).started then
    modify fun s => { s with started := false }
    match ← command? .terminate with
    | some (.executed (.error e)) => log .warn ("terminate debuggee: " ++ e.message)
    | some _ => pure ()
    | none => log .debug ("terminate debuggee: " ++ GatewayError.closed.message)
    -- the gateway goes, whatever came of the command
    StateT.lift dispose
  joinForwarder

end Session

end DebugAdapter
