import DebugAdapter.CommandLine.Run
import DebugAdapter.Scripted.Gateway

/-!
# Sessions on scripted worlds

Sessions in lockstep whose engine is the scripted one, or that have no engine.
-/

namespace DebugAdapter.Scripted

/-- A session with a scripted engine, or with none. -/
abbrev Live := Lockstep.Live World

/-- A session that begins. -/
def newSession (config : AdapterConfig) (provider : EngineProvider World) (environment : Environment)
    (host : Host) (w : World) : Live where
  session := { config, engineName := provider.name, environment }
  system := { provider, host, native := w }

/-- Let a session do some work. -/
def perform {α : Type} (m : SessionM α) (l : Live) : Live :=
  (Lockstep.perform fuel m l).2

/-- Run a program on a host. -/
def runOn {α : Type} (host : Host) (p : Program α) : Option α :=
  (Lockstep.runProgram (Lockstep.awaitThreads fuel) p
    { provider := EngineProvider.absent, host, native := ({} : World) }).1

/-- Change the world of a session. -/
def patchSession (p : Patch) (l : Live) : Live :=
  let s := { l.system with native := l.system.native.apply p }
  { l with system := Lockstep.rest fuel (s.onGateway (patch p)) }

/-- The calls of a session's engine since they were taken last. -/
def takeSessionCalls (l : Live) : List Call × Live :=
  let clear (w : World) : World := { w with calls := [] }
  let s := { l.system with native := clear l.system.native }
  (l.system.engine.calls.reverse,
    { l with system := s.onGateway fun g => g.setEngine (clear g.engine) })

/-- What the engine thread of a session is doing; nothing before there was one. -/
def condition? (l : Live) : Option GatewayCondition :=
  l.system.gateway.map Gateway.condition

/-- Run the program without an engine. -/
def runProgram (env : Environment) (arguments : List String) (input : List UInt8) (h : Host) :
    Outcome :=
  CommandLine.run fuel EngineProvider.absent ({} : World) env arguments input h

/-- Serve a client. -/
def serve (stream : List UInt8) (l : Live) :
    Option Framing.FrameError × Lockstep.Served World :=
  Lockstep.serve fuel stream l

end DebugAdapter.Scripted
