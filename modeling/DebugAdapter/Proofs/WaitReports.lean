import DebugAdapter.Proofs.KnownThreads
import DebugAdapter.Proofs.StopReports

/-!
# What a wait that has returned makes known

A report has three parts. The native events are published one by one; the threads are compared with the
engine's; and then the engine is asked for its status, which decides what is published last and whether
the way in which the debuggee was resumed is forgotten.

The three parts are told apart here once (`Worker.Reported`), for stops and for exits alike.

## Key results

- `Worker.reported_report`: what a report publishes, part by part
- `Gateway.reported_advance`: the step of the engine thread that reports
- `Gateway.published_advance_of_failed`: a wait that has failed is not reported
-/

namespace DebugAdapter

/-- What a wait that has just returned was for, and its events. -/
def Phase.woken? : Phase → Option (WaitPurpose × List NativeEvent)
  | woken purpose (.ok events) => some (purpose, events)
  | _ => none

/-- A phase with events is the one after a wait that gave them. -/
theorem Phase.eq_of_woken? {phase : Phase} {purpose : WaitPurpose} {events : List NativeEvent}
    (h : phase.woken? = some (purpose, events)) : phase = .woken purpose (.ok events) := by
  unfold woken? at h
  split at h
  · cases h
    rfl
  · cases h

namespace Worker

variable {σ : Type} [Engine σ]

/-- The parts of a report before the status is read. -/
def publishEvents (events : List NativeEvent) : WorkerM σ Unit := do
  for e in events do translate e
  syncThreads

/-- The worker that has published the events of a wait and compared the threads. -/
def informed (w : Worker σ) (events : List NativeEvent) : Worker σ :=
  ((publishEvents events).run w).2

/-- What the engine answers when it is asked for its status after the events of a wait. -/
def statusAnswer (w : Worker σ) (events : List NativeEvent) : Except EngineError ExecutionStatus :=
  ((Engine.executionStatus : EngineM σ _).call (w.informed events).session.engine).1

/-- The status after the events of a wait; there is no debuggee if it cannot be read. -/
def finalStatus (w : Worker σ) (events : List NativeEvent) : ExecutionStatus :=
  (w.statusAnswer events).toOption.getD .noDebuggee

/-- What is published last of a wait: an exit that no event has told of, or a stop that none has. -/
def lastPublished (w : Worker σ) (events : List NativeEvent) (thread : UInt32) : List GatewayEvent :=
  if w.finalStatus events = .noDebuggee then
    if w.exited || events.any NativeEvent.isProcessExit then [] else [.processExited 0]
  else if events.any NativeEvent.isStop || (w.finalStatus events).isRunning then []
  else [unexplainedStop w.resume thread]

/-- What has become of `w₀` when a wait was reported. -/
structure Reported (w₀ : Worker σ) (events : List NativeEvent) (w : Worker σ) : Prop where
  published : ∃ (parts : List (NativeEvent × List GatewayEvent)) (compared : List GatewayEvent)
    (thread : UInt32), parts.map (·.1) = events ∧
      (∀ p ∈ parts, p.1.PublishedAs w₀.breakpoints p.2) ∧ (∀ e ∈ compared, e.isOfThread = true) ∧
      (w₀.informed events).published = w₀.published ++ parts.flatMap (·.2) ++ compared ∧
      w.published = (w₀.informed events).published ++ w₀.lastPublished events thread
  knownThreads_eq : w.knownThreads = (w₀.informed events).knownThreads
  resume_eq : w.resume = if (w₀.finalStatus events).isRunning then w₀.resume else none

/-! ## The events, and the threads -/

/-- Following the threads changes neither how the debuggee was resumed nor whether it has exited. -/
private theorem resumed_syncing (how : Option Resume) (exited : Bool) :
    SyncFrame fun w : Worker σ => w.resume = how ∧ w.exited = exited where
  call := fun _ _ h => h
  knownThreads := fun _ _ h => h
  publish := fun _ _ _ h => h
  retainGroups := by
    intro w keep h
    rw [retainGroups_eq]
    exact h

/-- A selection changes neither how the debuggee was resumed nor whether it has exited. -/
private theorem resumed_selecting (how : Option Resume) (exited : Bool) :
    SelectingFrame fun w : Worker σ => w.resume = how ∧ w.exited = exited where
  call := fun _ _ h => h
  choose := fun _ _ h => h

/-- An event does not change how the debuggee was resumed, and only that of an exit has it exit. -/
private theorem ensures_translate_exited (how : Option Resume) (exited : Bool) (e : NativeEvent) :
    Ensures (fun w : Worker σ => w.resume = how ∧ w.exited = exited) (translate e) fun _ w =>
      w.resume = how ∧ w.exited = (exited || e.isProcessExit) := by
  -- an event that is no exit leaves the mark
  have kept : e.isProcessExit = false → Keeps (fun w : Worker σ => w.resume = how ∧ w.exited = exited)
      (translate e) → Ensures (fun w : Worker σ => w.resume = how ∧ w.exited = exited) (translate e)
        fun _ w => w.resume = how ∧ w.exited = (exited || e.isProcessExit) := by
    intro other keeps
    rw [other, Bool.or_false]
    exact keeps
  have published : ∀ g : GatewayEvent,
      Keeps (fun w : Worker σ => w.resume = how ∧ w.exited = exited) (publish g) :=
    fun _ => .modify fun _ h => h
  have selecting := resumed_selecting (σ := σ) how exited
  have syncing := resumed_syncing (σ := σ) how exited
  -- only the event of an exit marks the debuggee as gone
  cases e with
  | breakpoint id =>
    refine kept rfl (selecting.currentThread.bind fun thread => Keeps.get.bind fun w => ?_)
    split <;> exact published _
  | exception code firstChance => exact kept rfl (selecting.currentThread.bind fun _ => published _)
  | breakIn => exact kept rfl (selecting.currentThread.bind fun _ => published _)
  | threadCreated thread => exact kept rfl (syncing.threadStarted thread)
  | threadExited thread => exact kept rfl (syncing.threadExited thread)
  | processExited exitCode => exact fun w h => ⟨h.1, (Bool.or_true _).symm⟩
  | output text => exact kept rfl (published _)

/-- When the events are published, the debuggee has exited if it had before or one of them says so. -/
theorem ensures_translated_exited (how : Option Resume) (events : List NativeEvent)
    (exited : Bool) :
    Ensures (fun w : Worker σ => w.resume = how ∧ w.exited = exited)
      (forIn events PUnit.unit fun e _ => do
        translate e
        pure (ForInStep.yield PUnit.unit)) fun _ w =>
      w.resume = how ∧ w.exited = (exited || events.any NativeEvent.isProcessExit) := by
  induction events generalizing exited with
  | nil =>
    rw [List.any_nil, Bool.or_false]
    exact .pure fun _ h => h
  | cons e events ih =>
    rw [List.forIn_cons, List.any_cons, ← Bool.or_assoc]
    exact fun w h => ih _ _ (ensures_translate_exited how exited e w h)

/-- Translating events remembers an exit, and how the debuggee was resumed. -/
private theorem resume_informed (w : Worker σ) (events : List NativeEvent) :
    (w.informed events).resume = w.resume ∧
    (w.informed events).exited = (w.exited || events.any NativeEvent.isProcessExit) := by
  have synced := (resumed_syncing (σ := σ) w.resume (w.exited || events.any NativeEvent.isProcessExit)).syncThreads
  exact ((ensures_translated_exited w.resume events w.exited).bind fun _ => .of_keeps synced) w ⟨rfl, rfl⟩

/-- Of a comparison, only that threads have started or ended is published. -/
private theorem compared_syncing (before : List GatewayEvent) :
    SyncFrame fun w : Worker σ => ∃ compared : List GatewayEvent,
      (∀ e ∈ compared, e.isOfThread = true) ∧ w.published = before ++ compared where
  call := fun _ _ h => h
  knownThreads := fun _ _ h => h
  -- while the lists are compared, only events of threads are published
  publish := by
    rintro w e he ⟨compared, all, same⟩
    refine ⟨compared ++ [e], fun e' mem => ?_, ?_⟩
    · rcases List.mem_append.1 mem with mem | mem
      · exact all e' mem
      · rwa [List.mem_singleton.1 mem]
    · rw [same, List.append_assoc]
  retainGroups := by
    intro w keep h
    rw [retainGroups_eq]
    exact h

/-- The events are published one by one, and then what the comparison shows. -/
private theorem published_informed (w : Worker σ) (events : List NativeEvent) :
    ∃ (parts : List (NativeEvent × List GatewayEvent)) (compared : List GatewayEvent),
      parts.map (·.1) = events ∧ (∀ p ∈ parts, p.1.PublishedAs w.breakpoints p.2) ∧
      (∀ e ∈ compared, e.isOfThread = true) ∧
      (w.informed events).published = w.published ++ parts.flatMap (·.2) ++ compared := by
  obtain ⟨parts, same, all, -, translated⟩ :=
    ensures_translated events w.published w ⟨rfl, rfl⟩
  obtain ⟨compared, ofThread, published⟩ := (compared_syncing _).syncThreads _
    ⟨[], fun e none => absurd none List.not_mem_nil, translated.trans (List.append_nil _).symm⟩
  exact ⟨parts, compared, same, all, ofThread, published⟩

/-! ## The status -/

/-- The last part of a report. -/
private def conclude (stopped : Bool) (status : ExecutionStatus) : WorkerM σ Unit := do
  if status = .noDebuggee then
    if !(← get).exited then
      modify fun w => { w with exited := true }
      publish (.processExited 0)
  else if !stopped && !status.isRunning then
    let thread ← currentThread
    publish (unexplainedStop (← get).resume thread)
  if !status.isRunning then
    modify fun w => { w with resume := none }

/-- A report translates the events, asks for the status, and concludes from it. -/
private theorem run_report (events : List NativeEvent) (w : Worker σ) :
    (report events).run w =
      (conclude (events.any NativeEvent.isStop) (w.finalStatus events)).run
        (status.run (w.informed events)).2 :=
  rfl

/-- What is concluded depends on the status, and on whether a stop or an exit was reported already. -/
private theorem run_conclude (stopped : Bool) (status : ExecutionStatus) (w : Worker σ) :
    ((conclude stopped status).run w).2.knownThreads = w.knownThreads ∧
    ((conclude stopped status).run w).2.resume = (if status.isRunning then w.resume else none) ∧
    ∃ thread, ((conclude stopped status).run w).2.published = w.published ++
      if status = .noDebuggee then if w.exited then [] else [.processExited 0]
      else if stopped || status.isRunning then [] else [unexplainedStop w.resume thread] := by
  have silent : w.published = w.published ++ [] := (List.append_nil _).symm
  unfold conclude
  by_cases gone : status = .noDebuggee
  · -- an exit is published once
    subst gone
    cases exited : w.exited <;>
      simp only [StateT.run_bind, StateT.run_get, pure_bind, exited, if_true, Bool.not_true,
        Bool.not_false, Bool.false_eq_true, if_false]
    · exact ⟨rfl, rfl, 0, rfl⟩
    · exact ⟨rfl, rfl, 0, silent⟩
  · simp only [if_neg gone]
    -- a stop that nothing explains is published for a debuggee that stands still
    cases stopped <;> cases runs : status.isRunning
    · exact ⟨rfl, rfl, _, rfl⟩
    · exact ⟨rfl, rfl, 0, silent⟩
    · exact ⟨rfl, rfl, 0, silent⟩
    · exact ⟨rfl, rfl, 0, silent⟩

/-- What a report makes of a worker. -/
theorem reported_report (events : List NativeEvent) (w : Worker σ) :
    w.Reported events ((report events).run w).2 := by
  obtain ⟨parts, compared, same, all, ofThread, informed⟩ := published_informed w events
  obtain ⟨resume, exited⟩ := resume_informed w events
  obtain ⟨known, resumed, thread, last⟩ := run_conclude (events.any NativeEvent.isStop)
    (w.finalStatus events) (status.run (w.informed events)).2
  rw [← run_report] at known resumed last
  -- reading the status changes the engine only
  refine ⟨⟨parts, compared, thread, same, all, ofThread, informed, last.trans ?_⟩, known, resumed.trans ?_⟩
  · rw [lastPublished, ← exited, ← resume]
    rfl
  · rw [← resume]
    rfl

end Worker

namespace Gateway

variable {σ : Type} [Engine σ] {g : Gateway σ}

/-- What the engine thread makes known when a wait for a stop has returned and it is not to end. -/
theorem reported_advance {events : List NativeEvent} (woken : g.phase = .woken .stop (.ok events))
    (on : g.worker.cancelled = false) : g.worker.Reported events g.advance.worker := by
  have step : g.advance = (g.work (Worker.report events)).2.goto .ready := by
    simp only [advance, woken, wake, on, Bool.false_eq_true, if_false]
  rw [step]
  exact Worker.reported_report events g.worker

/-- A wait that has failed makes nothing known. -/
theorem published_advance_of_failed {e : EngineError} (woken : g.phase = .woken .stop (.error e)) :
    g.advance.worker.published = g.worker.published := by
  simp only [advance, woken]
  rfl

end Gateway

end DebugAdapter
