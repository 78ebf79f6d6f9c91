import DebugAdapter.Engine.Session
import DebugAdapter.Gateway.Command
import DebugAdapter.Gateway.Event
import DebugAdapter.Memory.Basic
import DebugAdapter.SearchPath
import DebugAdapter.Store.Basic

/-!
# The worker

What the engine thread owns: the engine, the entities of the stopped debuggee, the breakpoints, and
what it remembers of the debuggee's progress. Events are published by appending them to a log, so a
subscriber is a position in that log.
-/

namespace DebugAdapter

/-- How a gateway works. -/
structure GatewayOptions where
  /-- Milliseconds a caller waits for an answer. -/
  requestTimeout : Nat := 180000
  /-- Milliseconds that are waited for the engine thread to end. -/
  joinTimeout : Nat := 5000
  /-- Milliseconds between two looks at the queue while the debuggee is stopped. -/
  idlePoll : Nat := 100
  maxFrames : Nat := 1000
  settings : EngineSettings := {}
  /-- Source directories beside those of a request. -/
  sourcePaths : List String := []
  /-- Symbol directories beside those of a request. -/
  symbolPaths : List String := []
  /-- Where the sources of the standard library are. -/
  stdLibrary : Option String := none
  environment : Environment := []
  deriving DecidableEq, Repr

/-- How the debuggee was resumed last. -/
inductive Resume
  | continued
  | stepped
  deriving DecidableEq, Repr

/-- The symbols of one kind in one frame of one thread. -/
structure GroupKey where
  thread : UInt32
  frame : UInt32
  kind : ScopeKind
  deriving DecidableEq, Repr

/-- A symbol group in use, and the number of its symbols. -/
structure CachedGroup where
  group : GroupId
  count : UInt32
  deriving DecidableEq, Repr

/-- The state of the engine thread. -/
structure Worker (σ : Type) where
  session : EngineSession σ
  options : GatewayOptions := {}
  store : Store := {}
  breakpoints : BreakpointTable := {}
  typeNames : TypeNameCache := {}
  groups : List (GroupKey × CachedGroup) := []
  process : Option ProcessInfo := none
  resume : Option Resume := none
  knownThreads : List UInt32 := []
  /-- The debuggee has exited. -/
  exited : Bool := false
  /-- The last native wait failed; there is none until the debuggee is resumed. -/
  stalled : Bool := false
  /-- The engine thread is to end. Callers set this as well. -/
  cancelled : Bool := false
  /-- The events published, oldest first. -/
  published : List GatewayEvent := []

/-- Work of the engine thread. -/
abbrev WorkerM (σ : Type) := StateM (Worker σ)

namespace Worker

variable {σ : Type}

/-- The engine. -/
def engine (w : Worker σ) : σ :=
  w.session.engine

/-- Call the engine. -/
def ask {α : Type} (m : EngineM σ α) : WorkerM σ (Except EngineError α) := fun w =>
  let (answer, session) := w.session.call m
  (answer, { w with session })

/-- Call the engine; `none` if the call fails. -/
def ask? {α : Type} (m : EngineM σ α) : WorkerM σ (Option α) := do
  return (← ask m).toOption

/-- Call the engine as part of work that ends with a failure of its own. -/
def require {ε α : Type} (failure : EngineError → ε) (m : EngineM σ α) :
    ExceptT ε (WorkerM σ) α := do
  match ← ask m with
  | .ok a => return a
  | .error e => throw (failure e)

/-- Change the engine without a call that may fail. -/
def onEngine (f : σ → σ) (w : Worker σ) : Worker σ :=
  { w with session := { w.session with engine := f w.session.engine } }

/-- Change the entity store. -/
def modifyStore (f : Store → Store) : WorkerM σ Unit :=
  modify fun w => { w with store := f w.store }

/-- Change the entity store and keep what that gives. -/
def withStore {α : Type} (f : Store → α × Store) : WorkerM σ α :=
  modifyGet fun w =>
    let (a, store) := f w.store
    (a, { w with store })

/-- Publish an event. -/
def publish (e : GatewayEvent) : WorkerM σ Unit :=
  modify fun w => { w with published := w.published ++ [e] }

/-- The debuggee's pointer size in bytes. -/
def pointerSize (w : Worker σ) : UInt8 :=
  (w.process.map (·.pointerSize)).getD 8

/-- Look at the debuggee's memory. -/
def inMemory {α : Type} (m : MemoryM σ α) : WorkerM σ α := fun w =>
  let (a, mem) := m.run
    { engine := w.session.engine, typeNames := w.typeNames, pointerSize := w.pointerSize }
  (a, { w with session := { w.session with engine := mem.engine }, typeNames := mem.typeNames })

variable [Engine σ]

/-- What the debuggee is doing; a status that cannot be read counts as no debuggee. -/
def status : WorkerM σ ExecutionStatus := do
  return (← ask? Engine.executionStatus).getD .noDebuggee

/-- There is a native wait to enter. -/
def wantsWait : WorkerM σ Bool := do
  let running := (← status).isRunning
  return running && !(← get).stalled

/-- Release the symbol groups that do not pass a test. -/
def retainGroups (keep : GroupKey → Bool) (w : Worker σ) : Worker σ :=
  -- a group is released once, by whoever takes it out of the list
  let dropped := (w.groups.filter fun g => !keep g.1).map (·.2.group)
  let w := dropped.foldl (fun w g => onEngine (Engine.releaseGroup g) w) w
  { w with groups := w.groups.filter fun g => keep g.1 }

/-- Release all symbol groups. -/
def clearGroups (w : Worker σ) : Worker σ :=
  w.retainGroups fun _ => false

/-- Take the symbol group under a key out of the list. -/
def takeGroup? (key : GroupKey) : WorkerM σ (Option CachedGroup) :=
  modifyGet fun w =>
    ((w.groups.find? (·.1 == key)).map (·.2),
      { w with groups := w.groups.filter (·.1 != key) })

/-- Keep a symbol group. -/
def putGroup (key : GroupKey) (g : CachedGroup) : WorkerM σ Unit :=
  modify fun w => { w with groups := (key, g) :: w.groups }

/-- Let go of all that was taken from the engine, and then of the engine. -/
def release (w : Worker σ) : Worker σ :=
  -- an engine that is let go has no group left
  let w := w.clearGroups
  { w with
    store := {}
    typeNames := {}
    process := none
    session := { engine := w.session.close, ended := true } }

end Worker

end DebugAdapter
