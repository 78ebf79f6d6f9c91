import DebugAdapter.Convention
import DebugAdapter.Gateway.Worker

/-!
# The adapter's configuration

The settings a user can make, with their defaults, and what they mean for the gateway and for the
conventions of a session.
-/

namespace DebugAdapter

/-- The settings of the adapter. -/
structure AdapterConfig where
  /-- Seconds a request waits for the engine thread. -/
  requestTimeout : Nat := 180
  /-- Seconds that are waited for the engine thread to end. -/
  joinTimeout : Nat := 5
  /-- Milliseconds between two looks at the queue. -/
  idlePoll : Nat := 100
  maxFrames : Nat := 1000
  sourcePaths : List String := []
  symbolPaths : List String := []
  sourceLevelStepping : Bool := true
  /-- Where the engine's libraries are. -/
  enginePath : Option String := none
  /-- How the engine counts lines and names files. -/
  debugger : SideConvention := { pathFormat := .path }
  deriving DecidableEq, Repr

namespace AdapterConfig

/-- The conventions of a session whose client has not told its own. -/
def convention (c : AdapterConfig) : Convention :=
  { debugger := c.debugger }

/-- How a gateway of a session works. -/
def gatewayOptions (c : AdapterConfig) (environment : Environment) (stdLibrary : Option String) :
    GatewayOptions where
  requestTimeout := c.requestTimeout * 1000
  joinTimeout := c.joinTimeout * 1000
  idlePoll := c.idlePoll
  maxFrames := c.maxFrames
  settings := { sourceLevelStepping := c.sourceLevelStepping }
  sourcePaths := c.sourcePaths
  symbolPaths := c.symbolPaths
  stdLibrary := stdLibrary
  environment := environment

/-- Where a session's engine is taken from. -/
def engineOptions (c : AdapterConfig) : EngineOptions :=
  { enginePath := c.enginePath }

end AdapterConfig

end DebugAdapter
