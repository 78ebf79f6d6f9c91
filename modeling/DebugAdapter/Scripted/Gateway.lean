import DebugAdapter.Gateway.Settle
import DebugAdapter.Scripted.Engine

/-!
# Gateways on scripted worlds

In a scripted world every wait that returns uses up a stop, so the number of steps to rest is bounded
by the stops and commands that are left.
-/

namespace DebugAdapter.Scripted

/-- Enough steps for a gateway to come to rest. -/
def fuel (g : Gateway World) : Nat :=
  16 * (g.engine.stops.length + g.queue.length + 4)

/-- Let the engine thread come to rest. -/
def settle (g : Gateway World) : Gateway World :=
  g.settle (fuel g)

/-- Let the engine thread answer a command. -/
def await (ticket : Ticket) (g : Gateway World) : Option Reply × Gateway World :=
  g.await ticket (fuel g)

/-- Dispose of a gateway. -/
def dispose (g : Gateway World) : Gateway World :=
  g.dispose (fuel g)

/-- Change the world a gateway works on. -/
def patch (p : Patch) (g : Gateway World) : Gateway World :=
  { g with worker := g.worker.onEngine (·.apply p) }

/-- The calls of the engine since they were taken last. -/
def takeCalls (g : Gateway World) : List Call × Gateway World :=
  (g.engine.calls.reverse, { g with worker := g.worker.onEngine fun w => { w with calls := [] } })

end DebugAdapter.Scripted
