import DebugAdapter.Session.Handle
import DebugAdapter.Session.System

/-!
# Sessions in lockstep

One order in which the threads of a session can go on: the thread that carries out requests goes on as
long as it can, the engine thread only as far as it is waited for, and the forwarder only when it is
waited for. After a request, the engine thread comes to rest and all events are forwarded. The number
of steps of the engine thread is bounded by `fuel`.
-/

namespace DebugAdapter.Lockstep

variable {σ : Type} [Engine σ] (fuel : Gateway σ → Nat)

/-- Let the engine thread do what an action waits for. -/
def awaitEngine (a : Action) (s : System σ) : System σ :=
  match a with
  | .await ticket => s.onGateway fun g => (g.await ticket (fuel g)).2
  | .awaitEnd => s.onGateway fun g => g.settle (fuel g)
  | _ => s

/-- Perform an action. `unblock` is what is done about it if it has to wait. -/
def attempt (unblock : Action → System σ → System σ) (a : Action) (s : System σ) :
    Option (a.Result × System σ) :=
  (s.perform a).orElse fun _ => (unblock a s).perform a

/-- Run a program. If an action has to wait still, the program is given up. -/
def runProgram {α : Type} (unblock : Action → System σ → System σ) :
    Program α → System σ → Option α × System σ
  | .done a, s => (some a, s)
  | .act a next, s =>
    match attempt unblock a s with
    | some (r, s) => runProgram unblock (next r) s
    | none => (none, s)

/-- Let the forwarder do what it is left to do, as far as it can. -/
def runForwarder : Program Unit → System σ → System σ
  | .done (), s => s
  | .act a next, s =>
    match attempt (awaitEngine fuel) a s with
    | some (r, s) => runForwarder (next r) { s with forwarder := next r }
    | none => s

/-- Let the forwarder go on until no event is left, and take at most `n` events. -/
def forwardEvents : (n : Nat) → System σ → System σ
  | 0, s => runForwarder fuel s.forwarder s
  | n + 1, s =>
    let s := runForwarder fuel s.forwarder s
    if s.forwarder.isDone ∧ s.nextEvent?.isSome then forwardEvents n s.stepForwarder else s

/-- The number of events that are there or may come when the gateway is disposed of. -/
def forwardingFuel (s : System σ) : Nat :=
  (s.gateway.map fun g => g.worker.published.length + 4 * fuel g).getD 0

/-- Forward all events. -/
def forwardAll (s : System σ) : System σ :=
  forwardEvents fuel (forwardingFuel fuel s) s

/-- Let the other threads do what an action waits for. -/
def awaitThreads (a : Action) (s : System σ) : System σ :=
  match a with
  | .joinForwarder => forwardAll fuel s
  | a => awaitEngine fuel a s

/-- Let the engine thread come to rest, and forward all events. -/
def rest (s : System σ) : System σ :=
  forwardAll fuel (s.onGateway fun g => g.settle (fuel g))

/-- A session and what it shares with its threads. -/
structure Live (σ : Type) where
  session : Session
  system : System σ

/-- Let the session thread do some work, and come to rest. -/
def perform {α : Type} (m : SessionM α) (l : Live σ) : Option α × Live σ :=
  match runProgram (awaitThreads fuel) (m.run l.session) l.system with
  | (some (a, session), system) => (some a, { session, system := rest fuel system })
  | (none, system) => (none, { l with system := rest fuel system })

end DebugAdapter.Lockstep
