import DebugAdapter.Log.Console
import DebugAdapter.Session.Forward
import DebugAdapter.Session.Host

/-!
# Sessions among their threads

A session runs on three threads: one carries out requests, one forwards the events of the gateway, and
one calls the engine. Each step of the whole is a step of one of them, in any order: an action of a
program, or a step of the engine thread. An action that has to wait is no step until what it waits for
has happened.
-/

namespace DebugAdapter

/-- What the threads of a session share, and what the forwarder is left to do. -/
structure System (σ : Type) where
  provider : EngineProvider σ
  host : Host := {}
  /-- The log records shown to the client. -/
  console : Option LogFilter := none
  state : SessionState := .uninitialized
  outbox : Outbox := {}
  /-- The engine, as long as there is no gateway. -/
  native : σ
  gateway : Option (Gateway σ) := none
  /-- The number of events that the forwarder has taken. -/
  forwarded : Nat := 0
  forwarder : Program Unit := .done ()

namespace System

variable {σ : Type}

/-- The engine. -/
def engine (s : System σ) : σ :=
  (s.gateway.map Gateway.engine).getD s.native

/-- The next event to forward. -/
def nextEvent? (s : System σ) : Option GatewayEvent :=
  s.gateway.bind fun g => g.worker.published[s.forwarded]?

/-- The forwarder has ended: it has forwarded all events, and there will be no further ones. -/
def forwarderEnded (s : System σ) : Bool :=
  s.nextEvent?.isNone && s.forwarder.isDone && s.gateway.all (·.silenced)

/-- Change the gateway, if there is one. -/
def onGateway (f : Gateway σ → Gateway σ) (s : System σ) : System σ :=
  { s with gateway := s.gateway.map f }

/-- Write a message to the client. -/
def send (m : Message) (s : System σ) : System σ :=
  { s with outbox := s.outbox.send m }

/-- Make a log record. -/
def note (r : LogRecord) (s : System σ) : System σ :=
  if s.console.any (·.accepts r) then s.send (.event r.toEvent) else s

/-- Make an engine and a gateway on it. If that fails, a gateway that there was before stays. -/
def openGateway (engineOptions : EngineOptions) (options : GatewayOptions) (s : System σ) :
    Except GatewayError Unit × System σ :=
  match Gateway.create s.provider engineOptions options s.engine with
  | (.error e, native) => (.error e, { s.onGateway (Gateway.setEngine native) with native })
  -- the events of the new gateway are forwarded from the first one on
  | (.ok g, native) =>
    (.ok (), { s with native, gateway := some g, forwarded := 0, forwarder := .done () })

/-- Queue a command. -/
def submit (c : Command) (s : System σ) : Option Ticket × System σ :=
  match s.gateway with
  | none => (none, s)
  | some g =>
    let (ticket, g) := g.submit c
    (ticket, { s with gateway := some g })

variable [Engine σ]

/-- What an action gives and changes; nothing as long as it has to wait. -/
def perform (s : System σ) : (a : Action) → Option (a.Result × System σ)
  | .updateState f => some (s.state, { s with state := f s.state })
  | .send m => some ((), s.send m)
  | .note r => some ((), s.note r)
  | .engineSupported => some (s.provider.isSupported s.engine, s)
  | .openGateway engineOptions options => some (s.openGateway engineOptions options)
  | .submit c => some (s.submit c)
  | .interrupt => some ((), s.onGateway Gateway.interrupt)
  | .await ticket =>
    match s.gateway with
    | none => some (none, s)
    | some g =>
      match g.answer? ticket with
      | some r => some (some r, s)
      -- an engine thread that has ended gives no further answer
      | none => if g.phase.isFinished then some (none, s) else none
  -- the answer tells whether somebody else was first
  | .markDisposed =>
    some (s.gateway.all (·.disposed), s.onGateway fun g => { g with disposed := true })
  | .closeQueue => some ((), s.onGateway Gateway.closeQueue)
  | .cancel => some ((), s.onGateway Gateway.cancel)
  | .awaitEnd => if s.gateway.all (·.phase.isFinished) then some ((), s) else none
  | .silence => some ((), s.onGateway fun g => { g with silenced := true })
  | .joinForwarder => if s.forwarderEnded then some ((), s) else none
  | .pathExists path => some (s.host.pathExists path, s)
  | .isDirectory path => some ((s.host.directory? path).isSome, s)
  | .findProgram name => some (s.host.findProgram name, s)
  | .setDirectory path => some ((), { s with host := s.host.setDirectory path })
  | .findProcess pid => some (s.host.findProcess pid, s)
  | .findStdLibrary =>
    let (found, host) := s.host.findStdLibrary
    some (found, { s with host })

/-- A step of the engine thread. -/
def stepEngine (s : System σ) : System σ :=
  s.onGateway Gateway.advance

/-- A step of the forwarder: an action, or the next event is taken. -/
def stepForwarder (s : System σ) : System σ :=
  match s.forwarder with
  | .act a next =>
    match s.perform a with
    -- an action that has to wait is tried again
    | none => s
    | some (r, s) => { s with forwarder := next r }
  | .done () =>
    match s.nextEvent? with
    | none => s
    | some e => { s with forwarded := s.forwarded + 1, forwarder := Session.forward e }

end System

/-- The threads of a session. -/
inductive SessionThread
  | requests
  | forwarder
  | engine
  deriving DecidableEq, Repr

/-- A session at work: what is shared, and what the thread that carries out requests is left to do. -/
structure SessionRun (σ α : Type) where
  system : System σ
  program : Program α

namespace SessionRun

variable {σ α : Type} [Engine σ]

/-- A step of the thread that carries out requests. -/
def stepRequests (r : SessionRun σ α) : SessionRun σ α :=
  match r.program with
  | .done _ => r
  | .act a next =>
    match r.system.perform a with
    | none => r
    | some (result, system) => ⟨system, next result⟩

/-- A step of one of the threads. -/
def step (r : SessionRun σ α) : SessionThread → SessionRun σ α
  | .requests => r.stepRequests
  | .forwarder => { r with system := r.system.stepForwarder }
  | .engine => { r with system := r.system.stepEngine }

/-- The state after the threads have made steps in some order. -/
def run (r : SessionRun σ α) (schedule : List SessionThread) : SessionRun σ α :=
  schedule.foldl step r

/-- Two schedules one after the other are one schedule. -/
theorem run_append (r : SessionRun σ α) (s₁ s₂ : List SessionThread) :
    r.run (s₁ ++ s₂) = (r.run s₁).run s₂ := by
  simp [run]

end SessionRun

end DebugAdapter
