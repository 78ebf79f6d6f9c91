import DebugAdapter.Gateway.Basic
import DebugAdapter.Proofs.MemoryFrame
import DebugAdapter.Proofs.StoreThreads

/-!
# What the work of the engine thread leaves as it is

All work of the engine thread is put together from a few kinds of changes: calls of the engine,
operations on the entity store, events that are published, and so on. What is kept by these
(`Worker.Frame`) is kept by the work.

Most work does only some of these: looking at a value calls the engine, and listing a stack also adds to
the store. For each there is a smaller frame (`Worker.CallFrame`, `Worker.LookingFrame`,
`Worker.AddingFrame` and so on), which asks only for what that work does.

Three things are kept apart from this. Operations that add or remove threads are only done by some
commands (`Worker.ThreadFrame`), and breakpoints are only changed by one (`Worker.BreakpointFrame`). And
while the variables of a scope are looked up, a symbol group is in use that is in no list
(`Worker.GroupFrame`).

## Key results

- `Worker.Frame.report`: what is kept when a stop is published
- `Worker.StartingFrame.finishStart`: what is kept when the first stop of a debuggee has been awaited
-/

namespace DebugAdapter

/-- A call that neither ends the native session nor hands out symbols nor changes breakpoints. -/
inductive OrdinaryCall {σ : Type} [Engine σ] : {α : Type} → EngineM σ α → Prop
  | createProcess (commandLine : String) : OrdinaryCall (Engine.createProcess commandLine)
  | attachProcess (pid : UInt32) : OrdinaryCall (Engine.attachProcess pid)
  | executionStatus : OrdinaryCall Engine.executionStatus
  | setExecutionStatus (s : ExecutionStatus) : OrdinaryCall (Engine.setExecutionStatus s)
  | execute (command : String) : OrdinaryCall (Engine.execute command)
  | applySettings (s : EngineSettings) : OrdinaryCall (Engine.applySettings s)
  | setSymbolPath (path : String) : OrdinaryCall (Engine.setSymbolPath path)
  | setSourcePath (path : String) : OrdinaryCall (Engine.setSourcePath path)
  | mainModuleName : OrdinaryCall Engine.mainModuleName
  | reloadSymbols (moduleName : String) : OrdinaryCall (Engine.reloadSymbols moduleName)
  | offsetByLine (file : String) (line : UInt32) : OrdinaryCall (Engine.offsetByLine file line)
  | lineByOffset (offset : UInt64) : OrdinaryCall (Engine.lineByOffset offset)
  | findSourceFile (file : String) : OrdinaryCall (Engine.findSourceFile file)
  | nameByOffset (offset : UInt64) : OrdinaryCall (Engine.nameByOffset offset)
  | threadIds : OrdinaryCall Engine.threadIds
  | currentThread : OrdinaryCall Engine.currentThread
  | setCurrentThread (thread : UInt32) : OrdinaryCall (Engine.setCurrentThread thread)
  | currentProcess : OrdinaryCall Engine.currentProcess
  | isPointer64 : OrdinaryCall Engine.isPointer64
  | stackTrace (maxFrames : Nat) : OrdinaryCall (Engine.stackTrace maxFrames)
  | currentFrameIndex : OrdinaryCall Engine.currentFrameIndex
  | setFrameIndex (index : UInt32) : OrdinaryCall (Engine.setFrameIndex index)
  | groupCount (g : GroupId) : OrdinaryCall (Engine.groupCount g)
  | groupEntry (g : GroupId) (index : UInt32) : OrdinaryCall (Engine.groupEntry g index)
  | data {α : Type} {m : EngineM σ α} (h : DataCall m) : OrdinaryCall m

/-- An ordinary call that neither starts a debuggee nor lets it run. -/
inductive InspectingCall {σ : Type} [Engine σ] : {α : Type} → EngineM σ α → Prop
  | executionStatus : InspectingCall Engine.executionStatus
  | applySettings (s : EngineSettings) : InspectingCall (Engine.applySettings s)
  | setSymbolPath (path : String) : InspectingCall (Engine.setSymbolPath path)
  | setSourcePath (path : String) : InspectingCall (Engine.setSourcePath path)
  | mainModuleName : InspectingCall Engine.mainModuleName
  | reloadSymbols (moduleName : String) : InspectingCall (Engine.reloadSymbols moduleName)
  | offsetByLine (file : String) (line : UInt32) : InspectingCall (Engine.offsetByLine file line)
  | lineByOffset (offset : UInt64) : InspectingCall (Engine.lineByOffset offset)
  | findSourceFile (file : String) : InspectingCall (Engine.findSourceFile file)
  | nameByOffset (offset : UInt64) : InspectingCall (Engine.nameByOffset offset)
  | threadIds : InspectingCall Engine.threadIds
  | currentThread : InspectingCall Engine.currentThread
  | setCurrentThread (thread : UInt32) : InspectingCall (Engine.setCurrentThread thread)
  | currentProcess : InspectingCall Engine.currentProcess
  | isPointer64 : InspectingCall Engine.isPointer64
  | stackTrace (maxFrames : Nat) : InspectingCall (Engine.stackTrace maxFrames)
  | currentFrameIndex : InspectingCall Engine.currentFrameIndex
  | setFrameIndex (index : UInt32) : InspectingCall (Engine.setFrameIndex index)
  | groupCount (g : GroupId) : InspectingCall (Engine.groupCount g)
  | groupEntry (g : GroupId) (index : UInt32) : InspectingCall (Engine.groupEntry g index)
  | data {α : Type} {m : EngineM σ α} (h : DataCall m) : InspectingCall m

/-- Inspecting calls are ordinary ones. -/
theorem InspectingCall.ordinary {σ α : Type} [Engine σ] {m : EngineM σ α} (h : InspectingCall m) :
    OrdinaryCall m := by
  cases h with
  | data h => exact .data h
  | _ => constructor

/-- What holds of the calls that start a debuggee or let it run, and of those that inspect, holds of all ordinary
calls. -/
theorem OrdinaryCall.elim {σ : Type} [Engine σ] {P : ∀ α : Type, EngineM σ α → Prop}
    (create : ∀ commandLine, P Unit (Engine.createProcess commandLine))
    (attach : ∀ pid, P Unit (Engine.attachProcess pid))
    (status : ∀ s, P Unit (Engine.setExecutionStatus s)) (execute : ∀ command, P Unit (Engine.execute command))
    (inspect : ∀ {α : Type} {m : EngineM σ α}, InspectingCall m → P α m) {α : Type} {m : EngineM σ α}
    (h : OrdinaryCall m) : P α m := by
  cases h with
  | createProcess commandLine => exact create commandLine
  | attachProcess pid => exact attach pid
  | setExecutionStatus s => exact status s
  | execute command => exact execute command
  | data h => exact inspect (.data h)
  | _ => exact inspect (by constructor)

/-- A call that changes the engine's breakpoints. -/
inductive BreakpointCall {σ : Type} [Engine σ] : {α : Type} → EngineM σ α → Prop
  | clearBreakpoints : BreakpointCall Engine.clearBreakpoints
  | addCodeBreakpoint (id : UInt32) (offset : UInt64) :
      BreakpointCall (Engine.addCodeBreakpoint id offset)
  | removeBreakpoint (id : UInt32) : BreakpointCall (Engine.removeBreakpoint id)

/-- The event is that a thread has started or ended. -/
def GatewayEvent.isOfThread : GatewayEvent → Bool
  | threadStarted _ | threadExited _ => true
  | _ => false

namespace Worker

variable {σ : Type} [Engine σ]

/-- What holds of a worker is kept by its changes. -/
structure Frame (I : Worker σ → Prop) : Prop where
  call : ∀ {α : Type} {m : EngineM σ α}, OrdinaryCall m → ∀ w, I w →
    I { w with session := (w.session.call m).2 }
  wait : ∀ w, I w → I (w.onEngine fun engine => (Engine.waitForEvent.run engine).2)
  interrupt : ∀ w, I w → I (w.onEngine Engine.interrupt)
  store : ∀ w (op : Store.Op), ¬op.OnThreads → op.LegalIn w.store → I w →
    I { w with store := op.apply w.store }
  retainGroups : ∀ w keep, I w → I (w.retainGroups keep)
  publish : ∀ w e, e ≠ .terminated → I w → I { w with published := w.published ++ [e] }
  typeNames : ∀ w typeNames, I w → I { w with typeNames }
  process : ∀ w process, I w → I { w with process }
  resume : ∀ w resume, I w → I { w with resume }
  knownThreads : ∀ w knownThreads, I w → I { w with knownThreads }
  exited : ∀ w exited, I w → I { w with exited }
  stalled : ∀ w stalled, I w → I { w with stalled }

/-- What holds of a worker is also kept by changes of the list of threads. -/
structure ThreadFrame (I : Worker σ → Prop) : Prop extends Frame I where
  anyStore : ∀ w (op : Store.Op), op.LegalIn w.store → I w → I { w with store := op.apply w.store }

/-- What holds of a worker is kept by calls that inspect. -/
structure CallFrame (I : Worker σ → Prop) : Prop where
  call : ∀ {α : Type} {m : EngineM σ α}, InspectingCall m → ∀ w, I w →
    I { w with session := (w.session.call m).2 }

/-- What holds of a worker is kept by a look at values. -/
structure LookingFrame (I : Worker σ → Prop) : Prop extends CallFrame I where
  typeNames : ∀ w typeNames, I w → I { w with typeNames }

/-- What holds of a worker is kept when the store's current thread is chosen. -/
structure SelectingFrame (I : Worker σ → Prop) : Prop extends CallFrame I where
  choose : ∀ w thread, I w → I { w with store := w.store.setCurrentThread thread }

/-- What holds of a worker is kept when a thread or a frame is chosen. -/
structure ChoosingFrame (I : Worker σ → Prop) : Prop extends SelectingFrame I where
  chooseFrame : ∀ w frame, frame ∈ w.store.handlesOf .frame → I w →
    I { w with store := w.store.setCurrentFrame frame }

/-- What holds of a worker is kept when scopes and variables are shown. -/
structure ShowingFrame (I : Worker σ → Prop) : Prop extends LookingFrame I, ChoosingFrame I where
  addScope : ∀ w parent scope, I w → I { w with store := (w.store.add parent (.scope scope)).2 }
  addVariable : ∀ w parent v, I w → I { w with store := (w.store.add parent (.variable v)).2 }

/-- What holds of a worker is kept when something is put below what the store has as well. -/
structure AddingFrame (I : Worker σ → Prop) : Prop extends LookingFrame I, ChoosingFrame I where
  add : ∀ w parent entity, I w → I { w with store := (w.store.add parent entity).2 }

/-- What holds of a worker is kept when threads are added as well. -/
structure ThreadAddingFrame (I : Worker σ → Prop) : Prop extends AddingFrame I where
  addThread : ∀ w thread name, I w → I { w with store := (w.store.addThread thread name).2 }

/-- What holds of a worker is kept by a look at values and by changes of the store, but for those of the
list of threads. -/
structure StoreFrame (I : Worker σ → Prop) : Prop extends LookingFrame I where
  store : ∀ w (op : Store.Op), ¬op.OnThreads → op.LegalIn w.store → I w →
    I { w with store := op.apply w.store }

/-- What holds of a worker is kept by a look at values and by all changes of the store. -/
structure ListingFrame (I : Worker σ → Prop) : Prop extends LookingFrame I where
  anyStore : ∀ w (op : Store.Op), op.LegalIn w.store → I w → I { w with store := op.apply w.store }

/-- What holds of a worker is kept by what commands do, but for the symbol groups and the breakpoints. -/
structure CommandFrame (I : Worker σ → Prop) : Prop extends ListingFrame I where
  ordinary : ∀ {α : Type} {m : EngineM σ α}, OrdinaryCall m → ∀ w, I w →
    I { w with session := (w.session.call m).2 }
  resumed : ∀ w how, I w → I { w with resume := some how, stalled := false }

/-- What holds of a worker is kept when a symbol group is taken, handed back for another one, and put
under its key. `J key g` holds as long as the entry under the key is taken, and `g`, if there is one,
is the group in use for it. -/
structure GroupFrame (I : Worker σ → Prop) (J : GroupKey → Option GroupId → Worker σ → Prop) :
    Prop where
  frame : ∀ key g, StoreFrame (J key g)
  take : ∀ key, Ensures I (takeGroup? key) fun previous => J key (previous.map (·.group))
  replace : ∀ key kind previous,
    Ensures (J key previous) (ask? (Engine.scopeSymbolGroup kind previous)) fun
      | none => I
      | some g => J key (some g)
  put : ∀ key g count, Ensures (J key (some g)) (putGroup key ⟨g, count⟩) fun _ => I

/-- What holds of a worker is kept by what is published of a stop, apart from threads. -/
structure ReportingFrame (I : Worker σ → Prop) : Prop extends SelectingFrame I where
  publish : ∀ w e, e.isOfThread = false → e ≠ .terminated → I w →
    I { w with published := w.published ++ [e] }
  exited : ∀ w, I w → I { w with exited := true }
  resume : ∀ w, I w → I { w with resume := none }

/-- What holds of a worker is kept by what is published of the list of threads. -/
structure SyncFrame (I : Worker σ → Prop) : Prop extends CallFrame I where
  knownThreads : ∀ w knownThreads, I w → I { w with knownThreads }
  publish : ∀ w e, e.isOfThread = true → I w → I { w with published := w.published ++ [e] }
  retainGroups : ∀ w keep, I w → I (w.retainGroups keep)

/-- What holds of a worker is kept when the first stop of a debuggee has been awaited. -/
structure StartingFrame (I : Worker σ → Prop) : Prop extends CallFrame I where
  output : ∀ w text, I w → I { w with published := w.published ++ [.output text] }
  reset : ∀ w, I w → I { w with exited := false, resume := none }
  knownThreads : ∀ w knownThreads, I w → I { w with knownThreads }
  process : ∀ w process, I w → I { w with process }

/-- What holds of a worker is kept whatever becomes of the breakpoints. -/
structure BreakpointFrame (I : Worker σ → Prop) : Prop extends CallFrame I where
  breakpointCall : ∀ {α : Type} {m : EngineM σ α}, BreakpointCall m → ∀ w, I w →
    I { w with session := (w.session.call m).2 }
  breakpoints : ∀ w breakpoints, I w → I { w with breakpoints }

namespace CallFrame

variable {I : Worker σ → Prop} (F : CallFrame I)
include F

/-- An inspecting call keeps what the frame keeps. -/
theorem ask {α : Type} {m : EngineM σ α} (h : InspectingCall m) : Keeps I (Worker.ask m) :=
  F.call h

/-- So it does where its failure is only logged. -/
theorem ask? {α : Type} {m : EngineM σ α} (h : InspectingCall m) : Keeps I (Worker.ask? m) :=
  (F.ask h).bind fun _ => .pure _

/-- So it does where its failure is passed on. -/
theorem require {ε α : Type} {failure : EngineError → ε} {m : EngineM σ α} (h : InspectingCall m) :
    Keeps I (Worker.require failure m).run := by
  refine (F.ask h).lift.bindExcept fun answer => ?_
  cases answer with
  | ok a => exact .ok _
  | error e => exact .error _

/-- Asking for the execution status is an inspecting call. -/
theorem status : Keeps I (Worker.status (σ := σ)) :=
  (F.ask? .executionStatus).bind fun _ => .pure _

/-- Deciding whether to wait asks for the status at most. -/
theorem wantsWait : Keeps I (Worker.wantsWait (σ := σ)) :=
  F.status.bind fun _ => Keeps.get.bind fun _ => .pure _

/-- Preparing a new debuggee applies settings and asks for nothing else. -/
theorem prepare (d : NewDebuggee) : Keeps I (Worker.prepare d).run := by
  refine (F.require .currentProcess).bindExcept fun pid => ?_
  refine (F.ask? .isPointer64).lift.bindExcept fun is64 => ?_
  refine Keeps.get.lift.bindExcept fun w => ?_
  refine (F.require (.setSourcePath _)).bindExcept fun _ => ?_
  refine (F.require (.setSymbolPath _)).bindExcept fun _ => ?_
  refine (F.require .mainModuleName).bindExcept fun moduleName => ?_
  refine (F.require (.reloadSymbols _)).bindExcept fun _ => ?_
  exact (F.ask? (.applySettings _)).lift.bindExcept fun _ => .ok _

end CallFrame

/-- Work on the memory of the debuggee keeps what a frame keeps. -/
theorem LookingFrame.inMemory {I : Worker σ → Prop} (F : LookingFrame I) {α : Type} {m : MemoryM σ α}
    (hm : ∀ {J : Memory σ → Prop}, Memory.Frame J → Keeps J m) : Keeps I (Worker.inMemory m) := by
  intro w hw
  -- what holds of the worker, as a condition on the part of it that is looked through
  have frame : Memory.Frame fun mem : Memory σ =>
      I { w with session := { w.session with engine := mem.engine }, typeNames := mem.typeNames } :=
    { call := fun h mem hmem => F.call (.data h) _ hmem
      typeNames := fun mem typeNames hmem => F.typeNames _ typeNames hmem }
  exact hm frame { engine := w.session.engine, typeNames := w.typeNames, pointerSize := w.pointerSize } hw

/-- Selecting a thread keeps what a frame keeps, whether the engine does it or not. -/
theorem SelectingFrame.selectThread {I : Worker σ → Prop} (F : SelectingFrame I) (thread : UInt32) :
    Keeps I (Worker.selectThread thread).run := by
  have chosen : Keeps I (ExceptT.lift (modifyStore (·.setCurrentThread thread)) :
      ExceptT EngineError (WorkerM σ) Unit).run :=
    (Keeps.modify fun w hw => F.choose w thread hw).lift
  refine (F.require .currentThread).bindExcept fun current => ?_
  refine .iteExcept (fun _ => ?_) fun _ => chosen
  exact (F.require (.setCurrentThread thread)).bindExcept fun _ => chosen

/-- Finding out the current thread keeps what a frame keeps. -/
theorem SelectingFrame.currentThread {I : Worker σ → Prop} (F : SelectingFrame I) :
    Keeps I (Worker.currentThread (σ := σ)) := by
  refine (F.ask? .currentThread).bind fun thread => ?_
  exact (Keeps.modify fun w hw => F.choose w _ hw).bind fun _ => .pure _

/-- Registering an entity keeps what is kept by adding it. -/
theorem AddingFrame.register {I : Worker σ → Prop} (F : AddingFrame I) (parent : Handle)
    (entity : Entity) : Keeps I (Worker.register parent entity) :=
  (Keeps.modifyGet fun w hw => F.add w parent entity hw).bind fun _ => .pure _

/-- Registering a scope keeps what is kept by adding it. -/
theorem ShowingFrame.registerScope {I : Worker σ → Prop} (F : ShowingFrame I) (parent : Handle)
    (scope : Scope) : Keeps I (Worker.register parent (.scope scope)) :=
  (Keeps.modifyGet fun w hw => F.addScope w parent scope hw).bind fun _ => .pure _

/-- Registering a variable keeps what is kept by adding it. -/
theorem ShowingFrame.registerVariable {I : Worker σ → Prop} (F : ShowingFrame I) (parent : Handle)
    (v : Variable) : Keeps I (Worker.register parent (.variable v)) :=
  (Keeps.modifyGet fun w hw => F.addVariable w parent v hw).bind fun _ => .pure _

/-- What any addition keeps is kept by adding scopes and variables. -/
theorem AddingFrame.showing {I : Worker σ → Prop} (F : AddingFrame I) : ShowingFrame I where
  toLookingFrame := F.toLookingFrame
  choose := F.choose
  chooseFrame := F.chooseFrame
  addScope := fun w parent scope hw => F.add w parent (.scope scope) hw
  addVariable := fun w parent v hw => F.add w parent (.variable v) hw

/-- What any change of the store but those of threads keeps is kept by additions. -/
theorem StoreFrame.adding {I : Worker σ → Prop} (F : StoreFrame I) : AddingFrame I where
  toLookingFrame := F.toLookingFrame
  choose := fun w thread hw => F.store w (.setCurrentThread thread) id trivial hw
  add := fun w parent entity hw => F.store w (.add parent entity) id trivial hw
  chooseFrame := fun w frame live hw => F.store w (.setCurrentFrame frame) id live hw

/-- What does not depend on symbol groups is kept when one is exchanged. -/
theorem StoreFrame.groupFrame {I : Worker σ → Prop} (F : StoreFrame I)
    (groups : ∀ w groups, I w → I { w with groups })
    (exchange : ∀ kind previous w, I w →
      I { w with session := (w.session.call (Engine.scopeSymbolGroup kind previous)).2 }) :
    GroupFrame I fun _ _ => I where
  frame := fun _ _ => F
  take := fun key w hw => groups w (w.groups.filter (·.1 != key)) hw
  replace := by
    intro key kind previous w hw
    have kept : I ((ask? (Engine.scopeSymbolGroup kind previous)).run w).2 := exchange kind previous w hw
    generalize (ask? (Engine.scopeSymbolGroup kind previous)).run w = result at kept ⊢
    cases result.1 <;> exact kept
  put := fun key g count w hw => groups w ((key, ⟨g, count⟩) :: w.groups) hw

namespace ListingFrame

variable {I : Worker σ → Prop} (F : ListingFrame I)
include F

/-- What any change of the store keeps is kept by those that leave the threads alone. -/
theorem storing : StoreFrame I where
  toLookingFrame := F.toLookingFrame
  store := fun w op _ legal hw => F.anyStore w op legal hw

/-- What any change of the store keeps is kept by adding threads. -/
theorem threadAdding : ThreadAddingFrame I where
  toAddingFrame := F.storing.adding
  addThread := fun w thread name hw => F.anyStore w (.addThread thread name) trivial hw

end ListingFrame

/-- What all the work on threads keeps is kept by the commands. -/
theorem ThreadFrame.commands {I : Worker σ → Prop} (F : ThreadFrame I) : CommandFrame I where
  call := fun h => F.call h.ordinary
  ordinary := F.call
  typeNames := F.typeNames
  anyStore := F.anyStore
  resumed := fun w how hw => F.stalled _ false (F.resume w (some how) hw)

omit [Engine σ] in
/-- Of native events only output is published. -/
theorem keeps_publishOutput {I : Worker σ → Prop}
    (output : ∀ w text, I w → I { w with published := w.published ++ [.output text] })
    (events : List NativeEvent) : Keeps I (Worker.publishOutput events) := by
  refine (Keeps.forIn (fun e _ => ?_) events _).bind fun _ => .pure _
  split
  · next text => exact (Keeps.modify fun w hw => output w text hw).bind fun _ => .pure _
  · exact .pure _

namespace StartingFrame

variable {I : Worker σ → Prop} (F : StartingFrame I)
include F

/-- The end of a start publishes output and makes the debuggee known, and does nothing else. -/
theorem finishStart (d : NewDebuggee) (answer : Except EngineError (List NativeEvent)) :
    Keeps I (Worker.finishStart d answer) := by
  unfold Worker.finishStart
  split
  · exact .pure _
  · refine (keeps_publishOutput F.output _).bind fun _ => ?_
    refine (Keeps.modify fun w hw => F.reset w hw).bind fun _ => ?_
    refine (F.ask? .threadIds).bind fun ids => ?_
    refine (Keeps.modify fun w hw => F.knownThreads w _ hw).bind fun _ => ?_
    refine (F.prepare d).bind fun result => ?_
    split
    · exact (Keeps.modify fun w hw => F.process w _ hw).bind fun _ => .pure _
    · exact .pure _

end StartingFrame

namespace SyncFrame

variable {I : Worker σ → Prop} (F : SyncFrame I)
include F

/-- Publishing an event about a thread keeps what a frame keeps. -/
theorem emit {e : GatewayEvent} (he : e.isOfThread = true) : Keeps I (Worker.publish e) :=
  .modify fun w hw => F.publish w e he hw

/-- Telling of a new thread keeps what a frame keeps. -/
theorem threadStarted (thread : UInt32) : Keeps I (Worker.threadStarted (σ := σ) thread) := by
  refine Keeps.get.bind fun w => .ite (fun _ => ?_) fun _ => .pure _
  exact (Keeps.modify fun w hw => F.knownThreads w _ hw).bind fun _ => F.emit rfl

/-- Telling of a thread that has ended keeps what a frame keeps. -/
theorem threadExited (thread : UInt32) : Keeps I (Worker.threadExited (σ := σ) thread) := by
  refine Keeps.get.bind fun w => .ite (fun _ => ?_) fun _ => .pure _
  exact (Keeps.modify fun w hw => F.knownThreads w _ hw).bind fun _ => F.emit rfl

/-- Bringing the known threads up to date keeps what a frame keeps. -/
theorem syncThreads : Keeps I (Worker.syncThreads (σ := σ)) := by
  have told : ∀ (l : List UInt32) (toEvent : UInt32 → GatewayEvent),
      (∀ thread, (toEvent thread).isOfThread = true) →
      Keeps I (forIn l PUnit.unit fun thread _ => do
        Worker.publish (σ := σ) (toEvent thread)
        pure (ForInStep.yield PUnit.unit)) := by
    intro l toEvent h
    exact .forIn (fun thread _ => (F.emit (h thread)).bind fun _ => .pure _) l _
  -- without a debuggee all threads are told to have ended, otherwise those are told that have changed
  refine Keeps.get.bind fun w => Keeps.get.bind fun w' => .ite (fun _ => ?_) fun _ => ?_
  · refine (Keeps.modify fun w hw => F.knownThreads w [] hw).bind fun _ => ?_
    exact (told _ .threadExited fun _ => rfl).bind fun _ => .pure _
  · refine (F.ask? .threadIds).bind fun alive => ?_
    split
    · exact .pure _
    · refine (told _ .threadExited fun _ => rfl).bind fun _ => ?_
      refine (told _ .threadStarted fun _ => rfl).bind fun _ => ?_
      exact .modify fun w hw => F.retainGroups _ _ (F.knownThreads w _ hw)

end SyncFrame

namespace ReportingFrame

variable {I : Worker σ → Prop} (F : ReportingFrame I)
include F

theorem emit {e : GatewayEvent} (he : e.isOfThread = false) (on : e ≠ .terminated) :
    Keeps I (Worker.publish e) :=
  .modify fun w hw => F.publish w e he on hw

/-- Translating a native event keeps what a frame keeps, if telling of threads does. -/
theorem translate (started : ∀ thread, Keeps I (Worker.threadStarted (σ := σ) thread))
    (ended : ∀ thread, Keeps I (Worker.threadExited (σ := σ) thread)) (e : NativeEvent) :
    Keeps I (Worker.translate (σ := σ) e) := by
  -- only events of threads and the exit change more than what is published
  cases e with
  | breakpoint id =>
    refine F.currentThread.bind fun thread => Keeps.get.bind fun w => ?_
    split
    · exact F.emit rfl nofun
    · exact F.emit rfl nofun
  | exception code firstChance => exact F.currentThread.bind fun thread => F.emit rfl nofun
  | breakIn => exact F.currentThread.bind fun thread => F.emit rfl nofun
  | threadCreated thread => exact started thread
  | threadExited thread => exact ended thread
  | processExited exitCode =>
    exact (Keeps.modify fun w hw => F.exited w hw).bind fun _ => F.emit rfl nofun
  | output text => exact F.emit rfl nofun

omit F [Engine σ] in
/-- A stop that no event explains is told by an event about no thread, and by no end. -/
private theorem isOfThread_unexplainedStop (resume : Option Resume) (thread : UInt32) :
    (unexplainedStop resume thread).isOfThread = false ∧
      unexplainedStop resume thread ≠ .terminated := by
  unfold unexplainedStop
  split <;> exact ⟨rfl, nofun⟩

/-- Reporting the events of a wait keeps what a frame keeps. -/
theorem report (started : ∀ thread, Keeps I (Worker.threadStarted (σ := σ) thread))
    (ended : ∀ thread, Keeps I (Worker.threadExited (σ := σ) thread))
    (synced : Keeps I (Worker.syncThreads (σ := σ))) (events : List NativeEvent) :
    Keeps I (Worker.report (σ := σ) events) := by
  have translated : ∀ e, Keeps I (Worker.translate (σ := σ) e) := F.translate started ended
  refine (Keeps.forIn (fun e _ => (translated e).bind fun _ => .pure _) events _).bind fun _ => ?_
  refine synced.bind fun _ => F.status.bind fun status => ?_
  -- the last step is taken in either case
  have settled : Keeps I (if !status.isRunning then
      (modify fun w => { w with resume := none } : WorkerM σ Unit) else pure ()) :=
    .ite (fun _ => .modify fun w hw => F.resume w hw) fun _ => .pure _
  refine .ite (fun _ => ?_) fun _ => ?_
  · refine Keeps.get.bind fun w => .ite (fun _ => ?_) fun _ => settled
    refine (Keeps.modify fun w hw => F.exited w hw).bind fun _ => ?_
    exact (F.emit (e := .processExited 0) rfl nofun).bind fun _ => settled
  · refine .ite (fun _ => ?_) fun _ => settled
    refine F.currentThread.bind fun thread => Keeps.get.bind fun w => ?_
    obtain ⟨other, on⟩ := isOfThread_unexplainedStop w.resume thread
    exact (F.emit other on).bind fun _ => settled

end ReportingFrame

namespace Frame

variable {I : Worker σ → Prop} (F : Frame I)
include F

/-! ## Calls and the store -/

/-- A frame allows looking. -/
theorem looking : LookingFrame I where
  call := fun h => F.call h.ordinary
  typeNames := F.typeNames

/-- A frame allows changes of the store that leave the threads alone. -/
theorem storing : StoreFrame I where
  toLookingFrame := F.looking
  store := F.store

/-- A frame allows selections. -/
theorem selecting : SelectingFrame I :=
  F.storing.adding.toSelectingFrame

/-- An ordinary call keeps what a frame keeps. -/
theorem ask {α : Type} {m : EngineM σ α} (h : OrdinaryCall m) : Keeps I (Worker.ask m) :=
  F.call h

/-- An inspecting call whose failure is logged keeps what a frame keeps. -/
theorem ask? {α : Type} {m : EngineM σ α} (h : InspectingCall m) : Keeps I (Worker.ask? m) :=
  F.looking.ask? h

/-- Asking for the status keeps what a frame keeps. -/
theorem status : Keeps I (Worker.status (σ := σ)) :=
  F.looking.status

/-- Deciding whether to wait keeps what a frame keeps. -/
theorem wantsWait : Keeps I (Worker.wantsWait (σ := σ)) :=
  F.looking.wantsWait

/-! ## Starting -/

/-- A frame allows the end of a start. -/
theorem starting : StartingFrame I where
  call := F.looking.call
  output := fun w text hw => F.publish w _ (by simp) hw
  reset := fun w hw => F.resume _ none (F.exited w false hw)
  knownThreads := F.knownThreads
  process := fun w process hw => F.process w process hw

/-- The end of a start keeps what a frame keeps. -/
theorem finishStart (d : NewDebuggee) (answer : Except EngineError (List NativeEvent)) :
    Keeps I (Worker.finishStart d answer) :=
  F.starting.finishStart d answer

/-! ## Stops -/

/-- A frame allows the threads to be brought up to date. -/
theorem syncing : SyncFrame I where
  call := F.looking.call
  knownThreads := F.knownThreads
  publish := fun w e he hw => F.publish w e (by rintro rfl; cases he) hw
  retainGroups := F.retainGroups

/-- A frame allows reports. -/
theorem reporting : ReportingFrame I where
  toSelectingFrame := F.selecting
  publish := fun w e _ he hw => F.publish w e he hw
  exited := fun w hw => F.exited w true hw
  resume := fun w hw => F.resume w none hw

/-- Reporting events keeps what a frame keeps. -/
theorem report (events : List NativeEvent) : Keeps I (Worker.report (σ := σ) events) :=
  F.reporting.report F.syncing.threadStarted F.syncing.threadExited F.syncing.syncThreads events

end Frame

end Worker

end DebugAdapter
