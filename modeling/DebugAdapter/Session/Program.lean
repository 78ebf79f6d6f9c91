import DebugAdapter.Gateway.Settle
import DebugAdapter.Log.Filter
import DebugAdapter.Protocol.Message

/-!
# Session programs

What a session does to what it shares with others: its state, the client's connection, the gateway,
and the machine it runs on. A program is a tree of such actions, each followed by what is done with
its result. So who else acts between two actions is left open; `Session/System` says what an action
does.
-/

namespace DebugAdapter

/-- How far a session has come. -/
inductive SessionState
  | uninitialized
  | initialized
  | stopped
  | running
  | terminated
  deriving DecidableEq, Repr

/-- The name of a session state. -/
def SessionState.name : SessionState → String
  | uninitialized => "Uninitialized"
  | initialized => "Initialized"
  | stopped => "Stopped"
  | running => "Running"
  | terminated => "Terminated"

/-- Go to a state, unless the session is over. -/
def SessionState.advanceTo (target current : SessionState) : SessionState :=
  if current = .terminated then .terminated else target

/-- A process of the machine, with its executable if that is known. -/
structure ProcessImage where
  pid : UInt32
  executable : Option String
  deriving DecidableEq, Repr

/-- An action on what is shared. -/
inductive Action
  /-- Change the session state; the result is the state before. -/
  | updateState (f : SessionState → SessionState)
  /-- Write a message to the client. -/
  | send (m : Message)
  /-- Make a log record. -/
  | note (r : LogRecord)
  /-- Whether there can be an engine. -/
  | engineSupported
  /-- Make an engine and a gateway on it, with a forwarder for its events. -/
  | openGateway (engineOptions : EngineOptions) (options : GatewayOptions)
  /-- Queue a command; no ticket if commands are not accepted. -/
  | submit (c : Command)
  /-- Wake the engine thread. -/
  | interrupt
  /-- Wait for the answer to a command; none if the command is dropped or the time is up. -/
  | await (ticket : Ticket)
  /-- Note that the gateway is disposed of; the result tells whether it was noted before. -/
  | markDisposed
  /-- Accept no further commands. -/
  | closeQueue
  /-- Have the engine thread end. -/
  | cancel
  /-- Wait until the engine thread has ended. -/
  | awaitEnd
  /-- Drop the subscribers of the gateway. -/
  | silence
  /-- Wait until the forwarder has ended. -/
  | joinForwarder
  /-- Whether a path names a file or a directory. -/
  | pathExists (path : String)
  /-- Whether a path names a directory. -/
  | isDirectory (path : String)
  /-- Look for a program in the search path. -/
  | findProgram (name : String)
  /-- Change the working directory. -/
  | setDirectory (path : String)
  /-- Look for a process. -/
  | findProcess (pid : UInt32)
  /-- Where the sources of the standard library are, and a record if the look for them, which is made
  once, has failed now. -/
  | findStdLibrary

/-- What an action gives. -/
@[reducible] def Action.Result : Action → Type
  | updateState _ => SessionState
  | engineSupported => Bool
  | openGateway .. => Except GatewayError Unit
  | submit _ => Option Ticket
  | await _ => Option Reply
  | markDisposed => Bool
  | pathExists _ | isDirectory _ => Bool
  | findProgram _ => Option String
  | findProcess _ => Option ProcessImage
  | findStdLibrary => Option String × Option LogRecord
  | _ => Unit

/-- A program of actions. -/
inductive Program (α : Type)
  | done (a : α)
  | act (a : Action) (next : a.Result → Program α)

namespace Program

/-- Go on with another program. -/
def bind {α β : Type} (p : Program α) (f : α → Program β) : Program β :=
  match p with
  | done a => f a
  | act a next => act a fun r => (next r).bind f

instance : Monad Program where
  pure := done
  bind := bind

/-- The program of one action. -/
def perform (a : Action) : Program a.Result :=
  act a done

/-- Nothing is left to do. -/
def isDone {α : Type} : Program α → Bool
  | done _ => true
  | act .. => false

/-- The program that gives a value has no action. -/
@[simp] theorem pure_eq_done {α : Type} (a : α) : (Pure.pure a : Program α) = done a := rfl

/-- A program that is followed by nothing is the program itself. -/
theorem bind_done {α : Type} (p : Program α) : p.bind done = p := by
  induction p with
  | done a => rfl
  | act a next ih => simp only [bind, ih]

/-- It does not matter how three programs one after the other are put together. -/
theorem bind_assoc {α β γ : Type} (p : Program α) (f : α → Program β) (g : β → Program γ) :
    (p.bind f).bind g = p.bind fun a => (f a).bind g := by
  induction p with
  | done a => rfl
  | act a next ih => simp only [bind, ih]

instance : LawfulMonad Program :=
  LawfulMonad.mk' Program bind_done (fun _ _ => rfl) bind_assoc

end Program

end DebugAdapter
