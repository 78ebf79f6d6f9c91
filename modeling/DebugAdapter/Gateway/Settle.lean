import DebugAdapter.Gateway.Basic
import DebugAdapter.Text.Duration

/-!
# Gateways at rest

Letting the engine thread run until it can do nothing without its callers: it has ended, it is inside
a native wait that does not return, or it looks at an empty queue. The number of steps is bounded by
`fuel`.

Main statements: settling is a history of steps of the engine thread alone (`settle_eq_run`), and so is
waiting for an answer (`await_eq_run`).
-/

namespace DebugAdapter

/-- Why a gateway is not available. -/
inductive GatewayError
  | closed
  | notInitialized (e : EngineError)
  deriving DecidableEq, Repr

/-- The wording of a gateway error. -/
def GatewayError.message : GatewayError → String
  | closed => "engine gateway doesn't accept commands anymore"
  | notInitialized e => "engine initialization failed: " ++ e.message

/-- Why a caller got no answer to a command. -/
inductive PendingError
  | timedOut (milliseconds : Nat)
  | dropped
  deriving DecidableEq, Repr

/-- The wording of a missing answer. -/
def PendingError.message : PendingError → String
  | timedOut milliseconds => "no result in " ++ Text.durationText milliseconds
  | dropped => "command dropped by the engine thread"

/-- What the engine thread is doing when it is at rest. -/
inductive GatewayCondition
  /-- It waits for commands; the debuggee does not run. -/
  | idle
  /-- It is inside a native wait. -/
  | running
  /-- It waits for commands; the debuggee runs, but the last native wait has failed. -/
  | stalled
  | closed
  deriving DecidableEq, Repr

/-- The name of a condition. -/
def GatewayCondition.name : GatewayCondition → String
  | idle => "idle"
  | running => "running"
  | stalled => "stalled"
  | closed => "closed"

namespace Gateway

variable {σ : Type}

/-- Make an engine and a gateway on it. -/
def create (provider : EngineProvider σ) (engineOptions : EngineOptions) (options : GatewayOptions)
    (s : σ) : Except GatewayError (Gateway σ) × σ :=
  match (provider.create engineOptions).call s with
  | (.ok (), s) => (.ok (new s options), s)
  | (.error e, s) => (.error (.notInitialized e), s)

variable [Engine σ]

/-- The engine thread has nothing to do until a caller acts. -/
def idles (g : Gateway σ) : Bool :=
  match g.phase with
  | .finished => true
  | .ready =>
    -- a turn that finds no command and no wait to enter leads back here
    g.queue.isEmpty && g.accepting && !g.worker.cancelled && !(g.work Worker.wantsWait).1
  | _ => false

/-- Let the engine thread run until it is at rest. -/
def settle : (fuel : Nat) → Gateway σ → Gateway σ
  | 0, g => g
  | fuel + 1, g =>
    if g.idles then g
    -- a wait that did not return when asked again returns only after a caller has acted
    else if g.phase.isWaiting && g.advance.phase.isWaiting then g.advance
    else g.advance.settle fuel

/-- Let the engine thread run until it has answered a command; `none` if it comes to rest before. -/
def await (ticket : Ticket) : (fuel : Nat) → Gateway σ → Option Reply × Gateway σ
  | 0, g => (g.answer? ticket, g)
  | fuel + 1, g =>
    match g.answer? ticket with
    | some r => (some r, g)
    | none =>
      if g.idles then (none, g)
      else if g.phase.isWaiting && g.advance.phase.isWaiting then (none, g.advance)
      else g.advance.await ticket fuel

/-- What a gateway at rest is doing. -/
def condition (g : Gateway σ) : GatewayCondition :=
  match g.phase with
  | .finished => .closed
  | .waiting _ => .running
  | _ => if (g.work Worker.status).1.isRunning then .stalled else .idle

/-- The answer to a command as a caller gets it who waits for some time, and so long that the engine
thread has come to rest. -/
def result (g : Gateway σ) (ticket : Ticket) (milliseconds : Nat) : Except PendingError Reply :=
  match g.answer? ticket with
  | some r => .ok r
  | none => .error (if g.phase.isFinished then .dropped else .timedOut milliseconds)

/-- Queue a command as callers do: whoever pauses or terminates wakes the engine thread. -/
def request (c : Command) (g : Gateway σ) : Option Ticket × Gateway σ :=
  let (ticket, g) := g.submit c
  (ticket, if ticket.isSome ∧ (c = .pause ∨ c = .terminate) then g.interrupt else g)

/-- Dispose of a gateway, which ends the engine thread. -/
def dispose (fuel : Nat) (g : Gateway σ) : Gateway σ :=
  if g.disposed then g
  else
    let g := { g with disposed := true }.closeQueue.cancel.interrupt.settle fuel
    { g with silenced := true }

/-- Letting a gateway settle is a number of steps of its engine thread, and nothing else. -/
theorem settle_eq_run (fuel : Nat) (g : Gateway σ) :
    ∃ n, g.settle fuel = g.run (List.replicate n .advance) := by
  induction fuel generalizing g with
  | zero => exact ⟨0, rfl⟩
  | succ fuel ih =>
    unfold settle
    split
    · exact ⟨0, rfl⟩
    · split
      · exact ⟨1, rfl⟩
      · obtain ⟨n, h⟩ := ih g.advance
        exact ⟨n + 1, by rw [h]; rfl⟩

/-- Waiting for an answer is a number of steps of the engine thread, and nothing else. -/
theorem await_eq_run (ticket : Ticket) (fuel : Nat) (g : Gateway σ) :
    ∃ n, (g.await ticket fuel).2 = g.run (List.replicate n .advance) := by
  induction fuel generalizing g with
  | zero => exact ⟨0, rfl⟩
  | succ fuel ih =>
    unfold await
    split
    · exact ⟨0, rfl⟩
    · split
      · exact ⟨0, rfl⟩
      · split
        · exact ⟨1, rfl⟩
        · obtain ⟨n, h⟩ := ih g.advance
          exact ⟨n + 1, by rw [h]; rfl⟩

end Gateway

end DebugAdapter
