import DebugAdapter.Gateway.Inspection
import DebugAdapter.Gateway.Stops

/-!
# The engine gateway

One thread calls the engine. Any thread may hand it commands through a queue, wake it out of a native
wait, and have it end. Here that is a machine: the engine thread is in some phase and `advance`s by
steps in which it touches what it shares with the callers at most once, and callers act between these
steps. A history is a list of actions in the order in which they happen, and `run` gives the state
after it; so a statement on all lists is one on all interleavings.

Waking the engine thread has an effect only while it is inside a native wait.
-/

namespace DebugAdapter

/-- The number of an accepted command, in the order of acceptance. -/
abbrev Ticket := Nat

/-- What a native wait is for. -/
inductive WaitPurpose
  | stop
  /-- The first stop of a debuggee, started by the command with this ticket. -/
  | start (ticket : Ticket) (debuggee : NewDebuggee)
  deriving DecidableEq, Repr

/-- Where the engine thread is. -/
inductive Phase
  /-- The engine was made. -/
  | starting
  /-- Before the test whether to end. -/
  | looping
  /-- About to enter a native wait. -/
  | entering (purpose : WaitPurpose)
  /-- Inside a native wait. -/
  | waiting (purpose : WaitPurpose)
  /-- A native wait has returned. -/
  | woken (purpose : WaitPurpose) (answer : Except EngineError (List NativeEvent))
  /-- Before a look at the queue for the first command of a turn. -/
  | ready
  /-- After a command, before a look at the queue for the next one. -/
  | draining
  /-- To end, before the last look at the queue. -/
  | leaving
  | finished

/-- Whether the engine thread is inside a native wait. -/
def Phase.isWaiting : Phase → Bool
  | waiting _ => true
  | _ => false

/-- Whether the engine thread has ended. -/
def Phase.isFinished : Phase → Bool
  | finished => true
  | _ => false

/-- The engine thread and what it shares with its callers. -/
structure Gateway (σ : Type) where
  worker : Worker σ
  phase : Phase := .starting
  /-- The commands that were accepted and not taken yet, oldest first. -/
  queue : List (Ticket × Command) := []
  /-- Commands are still accepted. -/
  accepting : Bool := true
  /-- The number of commands accepted. -/
  issued : Nat := 0
  /-- The answers given, oldest first. -/
  answers : List (Ticket × Reply) := []
  /-- The gateway was asked to be disposed of. -/
  disposed : Bool := false
  /-- No subscriber gets any further event. -/
  silenced : Bool := false

namespace Worker

variable {σ : Type} [Engine σ]

/-- What comes of a command: an answer, or a debuggee whose first stop has to be awaited. -/
inductive Outcome
  | answered (r : Reply)
  | started (d : NewDebuggee)

/-- The outcome of the first part of starting a debuggee. -/
def Outcome.ofStart : Except LaunchFailure NewDebuggee → Outcome
  | .error e => answered (.launched (.error e))
  | .ok d => started d

/-- Execute a command. -/
def execute : Command → WorkerM σ Outcome
  | .launch r => return .ofStart (← launch r)
  | .attach r => return .ofStart (← attach r)
  | .continue => return .answered (.executed (← continueExecution))
  | .step kind thread => return .answered (.executed (← step kind thread))
  | .pause => return .answered (.executed (.ok ()))
  | .terminate => return .answered (.executed (← terminate))
  | .setBreakpoints file lines => return .answered (.breakpoints (← setBreakpoints file lines))
  | .threads => return .answered (.threads (← threads))
  | .stackTrace thread => return .answered (.frames (← stackTrace thread))
  | .scopes frame => return .answered (.scopes (← scopes frame))
  | .variables reference => return .answered (.variables (← variablesBelow reference))
  | .setVariable reference name value =>
    return .answered (.variableSet (← setVariable reference name value))
  | .evaluate expression frame => return .answered (.evaluated (← evaluate expression frame))
  | .processInfo => return .answered (.process (← get).process)

end Worker

/-- What can happen at a gateway. All but `advance` is done by callers. -/
inductive GatewayAction
  /-- A command is queued, if commands are accepted. -/
  | submit (c : Command)
  /-- The engine thread is woken. -/
  | interrupt
  /-- The gateway is disposed of: no further disposal has an effect. -/
  | markDisposed
  /-- No further commands are accepted, after a last one to terminate. -/
  | closeQueue
  /-- The engine thread is to end. -/
  | cancel
  /-- The subscribers are dropped. -/
  | silence
  /-- The engine thread makes a step. -/
  | advance
  deriving Repr

namespace Gateway

variable {σ : Type}

/-- A gateway on a new engine. -/
def new (engine : σ) (options : GatewayOptions) : Gateway σ :=
  { worker := { session := { engine }, options } }

/-- The engine. -/
def engine (g : Gateway σ) : σ :=
  g.worker.session.engine

/-- Put another engine in the place of the engine. -/
def setEngine (engine : σ) (g : Gateway σ) : Gateway σ :=
  { g with worker := g.worker.onEngine fun _ => engine }

/-- The answer to a command, if it was given. -/
def answer? (g : Gateway σ) (ticket : Ticket) : Option Reply :=
  (g.answers.find? (·.1 == ticket)).map (·.2)

/-- Queue a command. The answer is its ticket, `none` if commands are not accepted any more. A
command to terminate is the last one that is accepted. -/
def submit (c : Command) (g : Gateway σ) : Option Ticket × Gateway σ :=
  if g.accepting then
    (some g.issued,
      { g with
        queue := g.queue ++ [(g.issued, c)]
        issued := g.issued + 1
        -- the queue closes behind a command to terminate
        accepting := c ≠ .terminate })
  else (none, g)

/-- Accept no further commands; if there was none to terminate, queue it. -/
def closeQueue (g : Gateway σ) : Gateway σ :=
  (g.submit .terminate).2

/-- Have the engine thread end when it next looks. -/
def cancel (g : Gateway σ) : Gateway σ :=
  { g with worker := { g.worker with cancelled := true } }

/-- Take work of the engine thread over into the gateway. -/
def work {α : Type} (m : WorkerM σ α) (g : Gateway σ) : α × Gateway σ :=
  let (a, worker) := m.run g.worker
  (a, { g with worker })

/-- Go to a phase. -/
def goto (phase : Phase) (g : Gateway σ) : Gateway σ :=
  { g with phase }

/-- Answer a command. -/
def reply (ticket : Ticket) (r : Reply) (g : Gateway σ) : Gateway σ :=
  { g with answers := g.answers ++ [(ticket, r)] }

/-- A command to terminate is the last one that is accepted. -/
theorem accepting_submit_terminate (g : Gateway σ) :
    (g.submit .terminate).2.accepting = false := by
  unfold submit
  split <;> simp_all

variable [Engine σ]

/-- Wake the engine thread out of a native wait. -/
def interrupt (g : Gateway σ) : Gateway σ :=
  if g.phase.isWaiting then { g with worker := g.worker.onEngine Engine.interrupt } else g

/-- Ask the native wait for its answer. -/
def poll (purpose : WaitPurpose) (g : Gateway σ) : Gateway σ :=
  let (answer, engine) := (Engine.waitForEvent : StateM σ _).run g.engine
  let g := g.setEngine engine
  match answer with
  | none => g.goto (.waiting purpose)
  | some answer => g.goto (.woken purpose answer)

/-- Execute a command and go on to `next`, unless the command has to wait. -/
def perform (ticket : Ticket) (c : Command) (g : Gateway σ) : Gateway σ :=
  match g.work (Worker.execute c) with
  | (.answered r, g) => (g.reply ticket r).goto .draining
  | (.started d, g) => g.goto (.entering (.start ticket d))

/-- Look at the queue: execute the oldest command, or start a turn anew. When nothing is left and
nothing can come any more, the engine thread is to end. -/
def takeCommand (g : Gateway σ) : Gateway σ :=
  match g.queue with
  | (ticket, c) :: rest => { g with queue := rest }.perform ticket c
  | [] => (if g.accepting then g else g.cancel).goto .looping

/-- Go on after a native wait. -/
def wake (purpose : WaitPurpose) (answer : Except EngineError (List NativeEvent))
    (g : Gateway σ) : Gateway σ :=
  match purpose, answer with
  -- the command is answered now, also if the wait has failed
  | .start ticket d, answer =>
    let (result, g) := g.work (Worker.finishStart d answer)
    (g.reply ticket (.launched result)).goto .draining
  -- no further wait is entered until the debuggee is resumed
  | .stop, .error _ => { g with worker := { g.worker with stalled := true } }.goto .ready
  | .stop, .ok events =>
    -- a wait that was ended to cancel the work is not reported
    if g.worker.cancelled then g.goto .ready
    else (g.work (Worker.report events)).2.goto .ready

/-- Execute a command left over at the end: only one to terminate. -/
def performLast (g : Gateway σ) : Ticket × Command → Gateway σ
  | (ticket, .terminate) =>
    let (result, g) := g.work Worker.terminate
    g.reply ticket (.executed result)
  -- all other commands are dropped without an answer
  | _ => g

/-- Empty the queue, let go of the engine, and end. -/
def leave (g : Gateway σ) : Gateway σ :=
  let g := g.queue.foldl performLast { g with queue := [] }
  { g with worker := g.worker.release }.goto .finished

/-- A step of the engine thread. -/
def advance (g : Gateway σ) : Gateway σ :=
  match g.phase with
  | .starting => (g.work (Worker.ask Engine.clearBreakpoints)).2.goto .looping
  | .looping =>
    if g.worker.cancelled then g.goto .leaving
    else
      let (wants, g) := g.work Worker.wantsWait
      g.goto (if wants then .entering .stop else .ready)
  -- the native wait is asked anew as long as it has not returned
  | .entering purpose | .waiting purpose => g.poll purpose
  | .woken purpose answer => g.wake purpose answer
  -- how long the queue is watched depends on the status, which is read for that
  | .ready => (g.work Worker.wantsWait).2.takeCommand
  | .draining => if g.worker.cancelled then g.goto .looping else g.takeCommand
  | .leaving => g.leave
  | .finished => g

/-- What an action does. -/
def act (g : Gateway σ) : GatewayAction → Gateway σ
  | .submit c => (g.submit c).2
  | .interrupt => g.interrupt
  | .markDisposed => { g with disposed := true }
  | .closeQueue => g.closeQueue
  | .cancel => g.cancel
  | .silence => { g with silenced := true }
  | .advance => g.advance

/-- The state after a history. -/
def run (g : Gateway σ) (history : List GatewayAction) : Gateway σ :=
  history.foldl act g

/-- Without actions a gateway is as it was. -/
@[simp] theorem run_nil (g : Gateway σ) : g.run [] = g := rfl

/-- Two histories one after the other are one history. -/
theorem run_append (g : Gateway σ) (h₁ h₂ : List GatewayAction) :
    g.run (h₁ ++ h₂) = (g.run h₁).run h₂ := by
  simp [run]

end Gateway

end DebugAdapter
