import DebugAdapter.Proofs.GatewayLifecycle
import DebugAdapter.Scripted.Engine
import Mathlib.Data.Finset.Basic

/-!
# Known threads

That a thread has started or ended is published from two sources: native events say so, and so does a
comparison of the known threads with the engine's list after each wait. Both may report the same change,
either may miss it, and the engine may fail to give its list.

Whoever starts from the list that was taken when a debuggee was started, and replays what is published
from then on, always has the threads that the worker knows (`Worker.Replays`). No thread is announced
that is there already, and none is taken back that is not.

The lists of the engine are taken to name no thread twice. On top of any engine there is one that puts
down the lists it gives (`ThreadLog`), so this is asked of the lists of one run only.

## Key results

- `Worker.heard_report`: what is published of a wait leads from the threads before to those after
- `Worker.heard_finishStart`: a new debuggee is where a new replay starts
- `Observed.run_replays`: a replay has the known threads, whatever turns are taken
-/

namespace DebugAdapter

variable {σ : Type}

/-! ## The lists of an engine -/

/-- An engine that puts down the lists of threads it gives. -/
structure ThreadLog (σ : Type) where
  engine : σ
  /-- The lists given, oldest first. -/
  lists : List (List UInt32) := []

namespace ThreadLog

/-- No list names a thread twice. -/
def Distinct (s : ThreadLog σ) : Prop :=
  ∀ l ∈ s.lists, l.Nodup

instance (s : ThreadLog σ) : Decidable s.Distinct :=
  inferInstanceAs (Decidable (∀ l ∈ s.lists, l.Nodup))

/-- A call of the engine below. -/
def pass {α : Type} (m : EngineM σ α) : EngineM (ThreadLog σ) α := fun s =>
  ((m.call s.engine).1, { s with engine := (m.call s.engine).2 })

instance [DataSpaces σ] : DataSpaces (ThreadLog σ) where
  typedData r := pass (DataSpaces.typedData r)
  typedText r data := pass (DataSpaces.typedText r data)
  fieldNames data := pass (DataSpaces.fieldNames data)
  typeName moduleBase typeId := pass (DataSpaces.typeName moduleBase typeId)
  readVirtual offset size := pass (DataSpaces.readVirtual offset size)
  readString offset maxLength := pass (DataSpaces.readString offset maxLength)
  writeVirtual offset bytes := pass (DataSpaces.writeVirtual offset bytes)

instance [Engine σ] : Engine (ThreadLog σ) where
  clearBreakpoints := pass Engine.clearBreakpoints
  createProcess commandLine := pass (Engine.createProcess commandLine)
  attachProcess pid := pass (Engine.attachProcess pid)
  endSession := pass Engine.endSession
  waitForEvent := fun s =>
    ((Engine.waitForEvent.run s.engine).1, { s with engine := (Engine.waitForEvent.run s.engine).2 })
  interrupt s := { s with engine := Engine.interrupt s.engine }
  executionStatus := pass Engine.executionStatus
  setExecutionStatus s := pass (Engine.setExecutionStatus s)
  execute command := pass (Engine.execute command)
  applySettings s := pass (Engine.applySettings s)
  setSymbolPath path := pass (Engine.setSymbolPath path)
  setSourcePath path := pass (Engine.setSourcePath path)
  mainModuleName := pass Engine.mainModuleName
  reloadSymbols moduleName := pass (Engine.reloadSymbols moduleName)
  offsetByLine file line := pass (Engine.offsetByLine file line)
  lineByOffset offset := pass (Engine.lineByOffset offset)
  findSourceFile file := pass (Engine.findSourceFile file)
  nameByOffset offset := pass (Engine.nameByOffset offset)
  addCodeBreakpoint id offset := pass (Engine.addCodeBreakpoint id offset)
  removeBreakpoint id := pass (Engine.removeBreakpoint id)
  threadIds := fun s =>
    let (answer, s) := (pass Engine.threadIds).call s
    (answer, { s with lists := s.lists ++ answer.toOption.toList })
  currentThread := pass Engine.currentThread
  setCurrentThread thread := pass (Engine.setCurrentThread thread)
  currentProcess := pass Engine.currentProcess
  isPointer64 := pass Engine.isPointer64
  stackTrace maxFrames := pass (Engine.stackTrace maxFrames)
  currentFrameIndex := pass Engine.currentFrameIndex
  setFrameIndex index := pass (Engine.setFrameIndex index)
  scopeSymbolGroup kind previous := pass (Engine.scopeSymbolGroup kind previous)
  groupCount g := pass (Engine.groupCount g)
  groupEntry g index := pass (Engine.groupEntry g index)
  releaseGroup g s := { s with engine := Engine.releaseGroup g s.engine }
  release s := { s with engine := Engine.release s.engine }

variable [Engine σ]

/-- What was put down before a call is there after it. -/
theorem Distinct.of_ordinaryCall {α : Type} {m : EngineM (ThreadLog σ) α} (h : OrdinaryCall m)
    {s : ThreadLog σ} (distinct : (m.call s).2.Distinct) : s.Distinct := by
  cases h with
  | threadIds => exact fun l mem => distinct l (List.mem_append_left _ mem)
  | data h => cases h <;> exact distinct
  | _ => exact distinct

/-- A list that is given is put down. -/
theorem Distinct.nodup {s : ThreadLog σ} {ids : List UInt32}
    (distinct : ((Engine.threadIds : EngineM (ThreadLog σ) _).call s).2.Distinct)
    (given : ((Engine.threadIds : EngineM (ThreadLog σ) _).call s).1 = .ok ids) : ids.Nodup := by
  have answer : (Engine.threadIds.call s.engine).1 = .ok ids := given
  refine distinct ids (List.mem_append_right _ ?_)
  rw [answer]
  exact List.mem_singleton_self ids

/-- Releasing symbol groups lists no threads. -/
theorem lists_foldl_releaseGroup (l : List GroupId) (s : ThreadLog σ) :
    (l.foldl (fun s g => Engine.releaseGroup g s) s).lists = s.lists := by
  induction l generalizing s with
  | nil => rfl
  | cons g l ih =>
    rw [List.foldl_cons, ih]
    rfl

/-- Finishing a session lists no threads. -/
theorem lists_finish (s : EngineSession (ThreadLog σ)) :
    s.finish.2.engine.lists = s.engine.lists := by
  unfold EngineSession.finish
  split <;> rfl

end ThreadLog

/-! ## Replays -/

/-- The threads that are there after an event; none if a thread is announced that is there already, or
one is taken back that is not. -/
def GatewayEvent.replay? (present : Finset UInt32) : GatewayEvent → Option (Finset UInt32)
  | threadStarted thread => if thread ∈ present then none else some (insert thread present)
  | threadExited thread => if thread ∈ present then some (present.erase thread) else none
  | _ => some present

/-- An event about no thread leaves the replayed threads as they are. -/
theorem GatewayEvent.replay?_of_other {e : GatewayEvent} (h : e.isOfThread = false)
    (present : Finset UInt32) : e.replay? present = some present := by
  cases e with
  | threadStarted thread | threadExited thread => exact nomatch h
  | _ => rfl

/-- Threads that are there are taken back one by one. -/
theorem replay_exited (present : Finset UInt32) {l : List UInt32} (nodup : l.Nodup)
    (there : ∀ t ∈ l, t ∈ present) :
    (l.map .threadExited).foldlM GatewayEvent.replay? present = some (present \ l.toFinset) := by
  induction l generalizing present with
  | nil => simp
  | cons t l ih =>
    obtain ⟨unlike, nodup⟩ := List.nodup_cons.1 nodup
    have rest : ∀ u ∈ l, u ∈ present.erase t := fun u hu =>
      Finset.mem_erase.2 ⟨fun e => unlike (e ▸ hu), there u (List.mem_cons_of_mem _ hu)⟩
    -- the first thread is there, and so are the others when it is gone
    have first : GatewayEvent.replay? present (.threadExited t) = some (present.erase t) :=
      if_pos (there t List.mem_cons_self)
    rw [List.map_cons, List.foldlM_cons, first, Option.bind_eq_bind, Option.bind_some, ih _ nodup rest]
    congr 1
    ext u
    simp only [Finset.mem_sdiff, Finset.mem_erase, List.mem_toFinset, List.mem_cons]
    tauto

/-- New threads are announced one by one. -/
theorem replay_started (present : Finset UInt32) {l : List UInt32} (nodup : l.Nodup)
    (new : ∀ t ∈ l, t ∉ present) :
    (l.map .threadStarted).foldlM GatewayEvent.replay? present = some (present ∪ l.toFinset) := by
  induction l generalizing present with
  | nil => simp
  | cons t l ih =>
    obtain ⟨unlike, nodup⟩ := List.nodup_cons.1 nodup
    -- the others are still new when the first one is there
    have rest : ∀ u ∈ l, u ∉ insert t present := by
      intro u hu
      rw [Finset.mem_insert, not_or]
      exact ⟨fun e => unlike (e ▸ hu), new u (List.mem_cons_of_mem _ hu)⟩
    have first : GatewayEvent.replay? present (.threadStarted t) = some (insert t present) :=
      if_neg (new t List.mem_cons_self)
    rw [List.map_cons, List.foldlM_cons, first, Option.bind_eq_bind, Option.bind_some, ih _ nodup rest]
    congr 1
    ext u
    simp only [Finset.mem_union, Finset.mem_insert, List.mem_toFinset, List.mem_cons]
    tauto

/-- Where a replay starts: from which threads, and after which events. -/
structure Roll where
  threads : List UInt32 := []
  before : List GatewayEvent := []
  deriving DecidableEq, Repr

namespace Worker

/-- A replay of what is published has the threads that are known. -/
structure Replays (roll : Roll) (w : Worker σ) : Prop where
  nodup : w.knownThreads.Nodup
  replay : ∃ events, w.published = roll.before ++ events ∧
    events.foldlM GatewayEvent.replay? roll.threads.toFinset = some w.knownThreads.toFinset

/-- A replay goes on with what is published next. -/
theorem Replays.goOn {roll : Roll} {w w' : Worker σ} (h : w.Replays roll) {next : List GatewayEvent}
    (published : w'.published = w.published ++ next) (nodup : w'.knownThreads.Nodup)
    (replay : next.foldlM GatewayEvent.replay? w.knownThreads.toFinset =
      some w'.knownThreads.toFinset) : w'.Replays roll where
  nodup := nodup
  replay := by
    obtain ⟨events, before, heard⟩ := h.replay
    refine ⟨events ++ next, by rw [published, before, List.append_assoc], ?_⟩
    rw [List.foldlM_append, heard]
    exact replay

/-- A replay has the threads that are known, as long as the engine names no thread twice. -/
def Heard (roll : Roll) (w : Worker (ThreadLog σ)) : Prop :=
  w.session.engine.Distinct → w.Replays roll

/-- Only the lists, the known threads and what was published count. -/
theorem Heard.congr {roll : Roll} {w w' : Worker (ThreadLog σ)} (h : w.Heard roll)
    (distinct : w'.session.engine.Distinct → w.session.engine.Distinct)
    (known : w'.knownThreads = w.knownThreads) (published : w'.published = w.published) :
    w'.Heard roll := by
  intro d
  have replays := h (distinct d)
  exact ⟨known ▸ replays.nodup, by rw [known, published]; exact replays.replay⟩

variable [Engine σ] {roll : Roll}

/-! ## Commands -/

/-- What was heard of the threads is kept by the work of commands. -/
private theorem heard_commands : CommandFrame (Heard (σ := σ) roll) where
  call := fun m _ h => h.congr (.of_ordinaryCall m.ordinary) rfl rfl
  ordinary := fun m _ h => h.congr (.of_ordinaryCall m) rfl rfl
  typeNames := fun _ _ h => h.congr id rfl rfl
  anyStore := fun _ _ _ h => h.congr id rfl rfl
  resumed := fun _ _ h => h.congr id rfl rfl

/-- What was heard is kept while a group is taken out and put back. -/
private theorem heard_groupFrame :
    GroupFrame (Heard (σ := σ) roll) fun _ _ => Heard roll :=
  heard_commands.storing.groupFrame (fun _ _ h => h.congr id rfl rfl)
    fun _ _ _ h => h.congr id rfl rfl

/-- What was heard is kept by the work on breakpoints. -/
private theorem heard_breakpointFrame : BreakpointFrame (Heard (σ := σ) roll) where
  call := heard_commands.call
  breakpointCall := fun m _ h => h.congr (by cases m <;> exact id) rfl rfl
  breakpoints := fun _ _ h => h.congr id rfl rfl

/-- What was heard is kept by terminating, whose event is about no thread. -/
private theorem heard_terminate : Keeps (Heard (σ := σ) roll) terminate := by
  intro w h
  rw [terminate_eq]
  intro distinct
  -- ending the session and releasing groups give no list
  have same : w.session.engine.Distinct := by
    intro l mem
    refine distinct l ?_
    rwa [ThreadLog.lists_foldl_releaseGroup, ThreadLog.lists_finish]
  exact (h same).goOn rfl (h same).nodup rfl

/-- What was heard is kept by every command. -/
theorem heard_execute (c : Command) : Keeps (Heard (σ := σ) roll) (execute c) := by
  by_cases hc : c = .terminate
  · subst hc
    exact heard_terminate.bind fun _ => .pure _
  · exact heard_commands.execute heard_groupFrame heard_breakpointFrame.setBreakpoints hc

/-- What was heard is kept when the engine is given up. -/
private theorem heard_release {w : Worker (ThreadLog σ)} (h : w.Heard roll) :
    w.release.Heard roll := by
  refine h.congr (fun distinct l mem => distinct l ?_) ?_ ?_
  · change l ∈ w.clearGroups.session.finish.2.engine.lists
    rw [ThreadLog.lists_finish, clearGroups_eq, ThreadLog.lists_foldl_releaseGroup]
    exact mem
  · simp only [release, clearGroups_eq]
  · simp only [release, clearGroups_eq]

/-! ## Stops -/

/-- What was heard is kept by the events of a report that are about no thread. -/
private theorem heard_reporting : ReportingFrame (Heard (σ := σ) roll) where
  call := heard_commands.call
  choose := fun _ _ h => h.congr id rfl rfl
  publish := by
    intro w e other _ h distinct
    refine (h distinct).goOn rfl (h distinct).nodup ?_
    rw [List.foldlM_cons, GatewayEvent.replay?_of_other other]
    rfl
  exited := fun _ h => h.congr id rfl rfl
  resume := fun _ h => h.congr id rfl rfl

omit [Engine σ] in
/-- Telling of a new thread adds it to what is known and to what was heard. -/
private theorem heard_threadStarted (thread : UInt32) :
    Keeps (Heard (σ := σ) roll) (threadStarted thread) := by
  refine Keeps.of_ensures (.bindGet fun w₀ _ => .ite (fun new => ?_) fun _ => .pure fun _ h => h.1)
  rintro w ⟨h, rfl⟩ distinct
  have new : thread ∉ w.knownThreads := by simpa using new
  refine (h distinct).goOn rfl ?_ ?_
  · have both := (h distinct).nodup.append (List.nodup_singleton thread)
    exact both (List.disjoint_singleton.2 new)
  · have heard := replay_started w.knownThreads.toFinset (List.nodup_singleton thread)
      (by simpa using new)
    have both : w.knownThreads.toFinset ∪ [thread].toFinset = (w.knownThreads ++ [thread]).toFinset := by
      ext u
      simp
    rw [both] at heard
    exact heard

omit [Engine σ] in
/-- Telling of a thread that has ended takes it from what is known and from what was heard. -/
private theorem heard_threadExited (thread : UInt32) :
    Keeps (Heard (σ := σ) roll) (threadExited thread) := by
  refine Keeps.of_ensures (.bindGet fun w₀ _ => .ite (fun known => ?_) fun _ => .pure fun _ h => h.1)
  rintro w ⟨h, rfl⟩ distinct
  have known : thread ∈ w.knownThreads := by simpa using known
  refine (h distinct).goOn rfl ((h distinct).nodup.erase thread) ?_
  have heard := replay_exited w.knownThreads.toFinset (List.nodup_singleton thread)
    (by simpa using known)
  -- the list names a thread once, so one erasure takes it out of the set
  have rest : w.knownThreads.toFinset \ [thread].toFinset = (w.knownThreads.erase thread).toFinset := by
    ext u
    simp [(h distinct).nodup.mem_erase_iff, and_comm]
  rw [rest] at heard
  exact heard

/-! ### The list of the engine -/

omit [Engine σ] in
/-- A sequence runs its first part and then its second, from where the first has led. -/
private theorem run_bind {α β : Type} (m : WorkerM σ α) (f : α → WorkerM σ β) (w : Worker σ) :
    (m >>= f).run w = (f (m.run w).1).run (m.run w).2 :=
  rfl

omit [Engine σ] in
/-- Events are published for threads one by one. -/
private theorem run_publishEach (toEvent : UInt32 → GatewayEvent) (l : List UInt32) (w : Worker σ) :
    (forIn l PUnit.unit fun thread _ => do
      publish (toEvent thread)
      pure (ForInStep.yield PUnit.unit) : WorkerM σ PUnit).run w =
      (PUnit.unit, { w with published := w.published ++ l.map toEvent }) := by
  induction l generalizing w with
  | nil =>
    rw [List.map_nil, List.append_nil]
    rfl
  | cons thread l ih =>
    have rest := ih { w with published := w.published ++ [toEvent thread] }
    rw [List.append_assoc] at rest
    rw [List.forIn_cons]
    exact rest

/-- What becomes of the known threads when they are compared with the engine's. -/
theorem syncThreads_eq (w : Worker σ) : (syncThreads.run w).2 =
    if w.exited then
      { w with knownThreads := [], published := w.published ++ w.knownThreads.map .threadExited }
    else
      match (ask? Engine.threadIds).run w with
      | (none, w) => w
      | (some alive, w) => retainGroups (fun key => alive.contains key.thread) { w with
          knownThreads := alive
          published := w.published ++
            (w.knownThreads.filter (!alive.contains ·)).map .threadExited ++
            (alive.filter (!w.knownThreads.contains ·)).map .threadStarted } := by
  unfold syncThreads
  simp only [StateT.run_bind, StateT.run_get, pure_bind]
  split
  · simp only [run_bind, run_publishEach]
    rfl
  · have kept : ((ask? Engine.threadIds).run w).2.knownThreads = w.knownThreads := rfl
    simp only [run_bind]
    -- asking for the threads leaves the known ones as they are, so the lists can be compared behind it
    generalize (ask? Engine.threadIds).run w = result at *
    obtain ⟨alive, w'⟩ := result
    cases alive with
    -- an engine that does not tell its threads leaves those that are known
    | none => rfl
    | some alive =>
      dsimp only at kept
      simp only [run_bind, run_publishEach, kept]
      rfl

/-- Dropping groups tells of no thread. -/
private theorem Heard.retainGroups {w : Worker (ThreadLog σ)} (h : w.Heard roll)
    (keep : GroupKey → Bool) : (w.retainGroups keep).Heard roll := by
  rw [retainGroups_eq]
  refine h.congr (fun distinct l mem => distinct l ?_) rfl rfl
  rwa [ThreadLog.lists_foldl_releaseGroup]

/-- Bringing the threads up to date tells exactly of those that have changed. -/
private theorem heard_syncThreads : Keeps (Heard (σ := σ) roll) syncThreads := by
  intro w h
  rw [syncThreads_eq]
  split
  · -- without a debuggee all known threads are told to have ended
    intro distinct
    refine (h distinct).goOn rfl List.nodup_nil ?_
    rw [replay_exited _ (h distinct).nodup fun t mem => List.mem_toFinset.2 mem, Finset.sdiff_self]
    rfl
  · have run : (ask? Engine.threadIds).run w =
        (((Engine.threadIds : EngineM (ThreadLog σ) _).call w.session.engine).1.toOption,
          { w with session := (w.session.call (Engine.threadIds : EngineM (ThreadLog σ) _)).2 }) := rfl
    rw [run]
    cases asked : ((Engine.threadIds : EngineM (ThreadLog σ) _).call w.session.engine).1 with
    | error e => exact h.congr (.of_ordinaryCall .threadIds) rfl rfl
    | ok alive =>
      refine Heard.retainGroups (fun distinct => ?_) _
      have nodup : alive.Nodup := ThreadLog.Distinct.nodup distinct asked
      have replays := h (.of_ordinaryCall .threadIds distinct)
      refine replays.goOn (List.append_assoc ..) nodup ?_
      -- those that are gone are taken back first, and then the new ones are announced
      rw [List.foldlM_append, replay_exited _ (replays.nodup.filter _) (by simp +contextual),
        Option.bind_eq_bind, Option.bind_some, replay_started _ (nodup.filter _) (by simp +contextual)]
      congr 1
      ext t
      simp only [Finset.mem_union, Finset.mem_sdiff, List.mem_toFinset, List.mem_filter,
        List.contains_eq_mem, Bool.not_eq_true', decide_eq_false_iff_not]
      tauto

/-- What is published of a wait leads from the threads that were known to those that are. -/
theorem heard_report (events : List NativeEvent) : Keeps (Heard (σ := σ) roll) (report events) :=
  heard_reporting.report heard_threadStarted heard_threadExited heard_syncThreads events

/-! ## New debuggees -/

/-- The list that is taken when a debuggee is started; no threads are known if it cannot be had. -/
def listed (w : Worker σ) : List UInt32 :=
  ((Engine.threadIds : EngineM σ _).call w.session.engine).1.toOption.getD []

/-- After `w`, only output was published. -/
private def Outputs (w w' : Worker σ) : Prop :=
  ∃ texts : List String, w'.published = w.published ++ texts.map .output

/-- The list is asked for when only output has been published. -/
private theorem ensures_listed (w : Worker (ThreadLog σ)) :
    Ensures (fun w' => w'.session = w.session ∧ w.Outputs w') (ask? Engine.threadIds) fun ids w' =>
      ids.getD [] = w.listed ∧ (w'.session.engine.Distinct → w.listed.Nodup) ∧ w.Outputs w' := by
  rintro w' ⟨same, output⟩
  have answer : ((ask? Engine.threadIds).run w').1 =
      ((Engine.threadIds : EngineM (ThreadLog σ) _).call w.session.engine).1.toOption := by
    rw [← same]
    rfl
  refine ⟨by rw [answer]; rfl, fun distinct => ?_, output⟩
  -- a list that the engine has given is on its log, and so has no thread twice
  rw [listed]
  cases given : ((Engine.threadIds : EngineM (ThreadLog σ) _).call w.session.engine).1 with
  | error e => exact List.nodup_nil
  | ok ids =>
    rw [← same] at given
    exact ThreadLog.Distinct.nodup distinct given

/-- Output does not count for a replay. -/
private theorem replay_output (texts : List String) (present : Finset UInt32) :
    (texts.map GatewayEvent.output).foldlM GatewayEvent.replay? present = some present := by
  induction texts with
  | nil => rfl
  | cons text texts ih => exact ih

/-- When the first stop of a debuggee has been awaited, a new replay starts. -/
theorem heard_finishStart (d : NewDebuggee) (events : List NativeEvent) (w : Worker (ThreadLog σ)) :
    ((finishStart d (.ok events)).run w).2.Heard ⟨w.listed, w.published⟩ := by
  have output : Keeps (fun w' => w'.session = w.session ∧ w.Outputs w') (publishOutput events) := by
    refine keeps_publishOutput (fun w' text h => ?_) events
    obtain ⟨same, texts, published⟩ := h
    refine ⟨same, texts ++ [text], ?_⟩
    rw [published, List.map_append, List.append_assoc]
    rfl
  have started : Ensures (fun w' => w'.session = w.session ∧ w.Outputs w')
      (finishStart d (.ok events)) fun _ => Heard ⟨w.listed, w.published⟩ := by
    -- output comes first, then the threads are listed and taken as known, with nothing told of them
    refine (Ensures.of_keeps output).bind fun _ => ?_
    refine Ensures.bind (R := fun _ w' => w'.session = w.session ∧ w.Outputs w') (fun _ h => h)
      fun _ => ?_
    refine (ensures_listed w).bind fun ids => ?_
    refine Ensures.bind (R := fun _ => Heard ⟨w.listed, w.published⟩) ?_ fun _ => Ensures.of_keeps ?_
    · rintro w' ⟨given, nodup, texts, published⟩ distinct
      -- the list that was given has no thread twice
      have known : (ids.getD []).Nodup := given ▸ nodup distinct
      refine ⟨known, texts.map .output, published, ?_⟩
      rw [replay_output, ← given]
      rfl
    · refine (heard_commands.prepare d).bind fun result => ?_
      split
      · exact (Keeps.modify fun _ h => h.congr id rfl rfl).bind fun _ => .pure _
      · exact .pure _
  exact started w ⟨rfl, [], (List.append_nil _).symm⟩

end Worker

/-! ## Steps and turns -/

namespace Gateway

/-- Where a replay starts after a step of the engine thread: anew, if that goes on with a debuggee whose
first stop has been awaited. -/
def rollAfter [Engine σ] (g : Gateway σ) (roll : Roll) : Roll :=
  match g.phase with
  | .woken (.start _ _) (.ok _) => ⟨g.worker.listed, g.worker.published⟩
  | _ => roll

variable [Engine σ] {g : Gateway (ThreadLog σ)} {roll : Roll}

/-- Taking a command keeps what was heard, be the queue empty or not. -/
private theorem heard_takeCommand (h : g.worker.Heard roll) : g.takeCommand.worker.Heard roll := by
  unfold takeCommand
  cases g.queue with
  | nil =>
    dsimp only
    split
    · exact h
    · exact h.congr id rfl rfl
  | cons head rest =>
    obtain ⟨ticket, c⟩ := head
    have executed := Worker.heard_execute c g.worker h
    dsimp only [perform, work]
    generalize (Worker.execute c).run g.worker = result at executed ⊢
    obtain ⟨outcome, w⟩ := result
    cases outcome <;> exact executed

/-- The end of the engine thread keeps what was heard. -/
private theorem heard_leave (h : g.worker.Heard roll) : g.leave.worker.Heard roll := by
  -- on the commands that are left: only those to terminate are carried out
  have last : ∀ (l : List (Ticket × Command)) (g : Gateway (ThreadLog σ)), g.worker.Heard roll →
      (l.foldl performLast g).worker.Heard roll := by
    intro l
    induction l with
    | nil => exact fun _ h => h
    | cons head l ih =>
      obtain ⟨ticket, c⟩ := head
      intro g h
      rw [List.foldl_cons]
      refine ih _ ?_
      by_cases hc : c = .terminate
      · subst hc
        exact Worker.heard_execute .terminate g.worker h
      · rwa [performLast_of_ne hc]
  rw [leave_eq]
  exact Worker.heard_release (last g.queue { g with queue := [] } h)

/-- A step of the engine thread. -/
theorem heard_advance (h : g.worker.Heard roll) : g.advance.worker.Heard (g.rollAfter roll) := by
  -- a wait that is asked for its answer tells of no thread
  have waited : ∀ purpose, (g.poll purpose).worker.Heard roll := by
    intro purpose
    rw [poll_eq (g := g) rfl]
    exact h.congr id rfl rfl
  -- whether to wait is looked up without telling of threads
  have wants : (g.work Worker.wantsWait).2.worker.Heard roll :=
    Worker.heard_reporting.wantsWait g.worker h
  unfold advance rollAfter
  cases g.phase with
  | starting => exact Worker.heard_breakpointFrame.breakpointCall .clearBreakpoints g.worker h
  | looping =>
    dsimp only
    split
    · exact h
    · exact wants
  | entering purpose | waiting purpose => exact waited purpose
  | woken purpose answer =>
    -- the wait of a start that was successful begins a new roll
    match purpose, answer with
    | .start ticket d, .error e => exact h
    | .start ticket d, .ok events => exact Worker.heard_finishStart d events g.worker
    | .stop, .error e => exact h.congr id rfl rfl
    | .stop, .ok events =>
      dsimp only [wake]
      split
      · exact h
      · exact Worker.heard_report events g.worker h
  | ready => exact heard_takeCommand wants
  | draining =>
    dsimp only
    split
    · exact h
    · exact heard_takeCommand h
  | leaving => exact heard_leave h
  | finished => exact h

/-- What callers do. -/
theorem heard_act (h : g.worker.Heard roll) {a : GatewayAction} (ha : a ≠ .advance) :
    (g.act a).worker.Heard roll := by
  -- no action of a caller publishes anything
  have submitted : ∀ c, (g.submit c).2.worker.Heard roll := by
    intro c
    unfold submit
    split <;> exact h
  cases a with
  | submit c => exact submitted c
  | closeQueue => exact submitted .terminate
  | interrupt =>
    simp only [Gateway.act, interrupt]
    split
    · exact h.congr id rfl rfl
    · exact h
  | cancel => exact h.congr id rfl rfl
  | markDisposed | silence => exact h
  | advance => exact absurd rfl ha

end Gateway

namespace Observed

variable [Engine σ]

/-- Where a replay starts after turns. -/
def rollAfter (o : Observed σ) (roll : Roll) : List Turn → Roll
  | [] => roll
  | .engine :: turns => (o.take .engine).rollAfter (o.gateway.rollAfter roll) turns
  | t :: turns => (o.take t).rollAfter roll turns

/-- The roll is one of the records that are kept along a run. -/
private theorem rollAfter_eq_recorded (o : Observed σ) (roll : Roll) (turns : List Turn) :
    o.rollAfter roll turns = o.recorded Gateway.rollAfter roll turns := by
  induction turns generalizing o roll with
  | nil => rfl
  | cons t turns ih => cases t <;> exact ih _ _

/-- Whatever turns the callers and the engine thread take, a replay of what is published since the last
debuggee was started has the threads that are known, as long as the engine names no thread twice. -/
theorem run_replays (engine : σ) (options : GatewayOptions) (turns : List Turn)
    (distinct : ((new (⟨engine, []⟩ : ThreadLog σ) options).run turns).gateway.engine.Distinct) :
    ((new (⟨engine, []⟩ : ThreadLog σ) options).run turns).gateway.worker.Replays
      ((new (⟨engine, []⟩ : ThreadLog σ) options).rollAfter {} turns) := by
  have started : (new (⟨engine, []⟩ : ThreadLog σ) options).gateway.worker.Heard {} :=
    fun _ => ⟨List.nodup_nil, [], rfl, rfl⟩
  rw [rollAfter_eq_recorded]
  exact recorded_run (P := fun roll g => g.worker.Heard roll) Gateway.heard_advance Gateway.heard_act
    started (fun _ mem => absurd mem List.not_mem_nil) turns distinct

/-- A debuggee whose threads change at two stops, with and without a native event for it. -/
def changingThreads : Scripted.World where
  stops := [{ events := [.threadCreated 2], threads := some [1, 2, 3] },
    { events := [.threadExited 1, .threadCreated 4], threads := some [4, 2] }]

/-- The debuggee is launched, and resumed twice. -/
def resumedTwice : List Turn :=
  [.call (.submit (.launch ⟨"app", "app", [], []⟩)), .call (.submit .continue)] ++
    List.replicate 11 .engine ++ [.call (.submit .continue)] ++ List.replicate 6 .engine

/-- Each change is published once, whoever reports it. -/
theorem run_replays_changingThreads :
    let o := new (⟨changingThreads, []⟩ : ThreadLog Scripted.World) {}
    (o.run resumedTwice).gateway.worker.knownThreads = [4, 2] ∧
    (o.run resumedTwice).gateway.worker.published = [.threadStarted 2, .threadStarted 3, .breakHit 1,
      .threadExited 1, .threadStarted 4, .threadExited 3, .breakHit 1] ∧
    (o.run resumedTwice).gateway.worker.Replays ⟨[1], []⟩ := by
  refine ⟨?_, ?_, ?_⟩
  · decide +kernel
  · decide +kernel
  · -- the first roll is begun by the launch, with the one thread that was there
    have roll : (new (⟨changingThreads, []⟩ : ThreadLog Scripted.World) {}).rollAfter {} resumedTwice =
        ⟨[1], []⟩ := by
      decide +kernel
    rw [← roll]
    exact run_replays changingThreads {} resumedTwice (by decide +kernel)

end Observed

end DebugAdapter
