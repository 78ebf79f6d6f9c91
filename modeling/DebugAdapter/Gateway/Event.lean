import DebugAdapter.Gateway.Breakpoint

/-!
# Gateway events

What the engine thread publishes about the debuggee.
-/

namespace DebugAdapter

/-- A published event. Threads are named by their system ids. -/
inductive GatewayEvent
  | breakpointHit (breakpoint : Breakpoint) (thread : UInt32)
  | exceptionHit (code : UInt32) (firstChance : Bool) (thread : UInt32)
  | breakHit (thread : UInt32)
  | stepCompleted (thread : UInt32)
  | threadStarted (thread : UInt32)
  | threadExited (thread : UInt32)
  | processExited (exitCode : UInt32)
  | output (text : String)
  | terminated
  deriving DecidableEq, Repr

/-- The event says that the debuggee has stopped. -/
def GatewayEvent.isStop : GatewayEvent → Bool
  | breakpointHit .. | exceptionHit .. | breakHit _ | stepCompleted _ => true
  | _ => false

end DebugAdapter
