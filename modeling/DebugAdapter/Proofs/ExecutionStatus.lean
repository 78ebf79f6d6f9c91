import DebugAdapter.Proofs.GatewayOrder

/-!
# The execution status of an engine

An engine is seen by its execution status (`StatusView`). On an engine that changes it only when it is
asked to, or in a native wait (`StatusView.Lawful`), the engine thread is in step with it: it is inside a
wait for a stop only while the debuggee runs, and what it publishes when a wait has returned tells of a
stop exactly if the debuggee has stopped.

## Key results

- `Worker.ensures_report_tells`: a stop is published if and only if the debuggee does not run
- `Worker.execute_resumes`: the debuggee runs after a command to resume it if the command succeeds
- `Gateway.Underway.advance`: what a step of the engine thread can do as long as the debuggee lives
-/

namespace DebugAdapter

/-! ## Engines that keep to their status -/

/-- How the execution status of an engine is seen. -/
structure StatusView (σ : Type) where
  /-- The engine is in a state in which it does what it is asked for. -/
  fit : σ → Prop
  status : σ → ExecutionStatus

/-- A call that lets the debuggee run. -/
inductive ResumingCall {σ : Type} [Engine σ] : EngineM σ Unit → Prop
  | go : ResumingCall (Engine.setExecutionStatus .go)
  | stepInto : ResumingCall (Engine.setExecutionStatus .stepInto)
  | stepOver : ResumingCall (Engine.setExecutionStatus .stepOver)
  | stepOut : ResumingCall (Engine.execute "gu")

/-- A call that starts a debuggee. -/
inductive StartingCall {σ : Type} [Engine σ] : EngineM σ Unit → Prop
  | createProcess (commandLine : String) : StartingCall (Engine.createProcess commandLine)
  | attachProcess (pid : UInt32) : StartingCall (Engine.attachProcess pid)

namespace StatusView

variable {σ : Type} (V : StatusView σ)

/-- The debuggee runs. -/
def runs (s : σ) : Bool :=
  (V.status s).isRunning

/-- A change leaves an engine fit and its status as it is. -/
structure Leaves (s s' : σ) : Prop where
  fit : V.fit s → V.fit s'
  status_eq : V.fit s → V.status s' = V.status s

/-- The status is what the engine tells. It changes when the debuggee is started or resumed, if that
succeeds, and in a native wait: one that reports a stop leaves the debuggee stopped, one that reports
nothing, or fails, leaves it as it was. -/
structure Lawful [Engine σ] : Prop where
  read : ∀ s, V.fit s → ((Engine.executionStatus : EngineM σ _).call s).1 = .ok (V.status s)
  inspect : ∀ {α : Type} {m : EngineM σ α}, InspectingCall m → ∀ s, V.Leaves s (m.call s).2
  breakpoint : ∀ {α : Type} {m : EngineM σ α}, BreakpointCall m → ∀ s, V.Leaves s (m.call s).2
  symbolGroup : ∀ kind previous s, V.Leaves s ((Engine.scopeSymbolGroup kind previous).call s).2
  releaseGroup : ∀ g s, V.Leaves s (Engine.releaseGroup g s)
  interrupt : ∀ s, V.Leaves s (Engine.interrupt s)
  start : ∀ {m : EngineM σ Unit}, StartingCall m → ∀ s, V.fit s → V.runs s = false →
    V.fit (m.call s).2 ∧ V.runs (m.call s).2 = false
  resume : ∀ {m : EngineM σ Unit}, ResumingCall m → ∀ s, V.fit s → V.runs s = false →
    V.fit (m.call s).2 ∧ V.runs (m.call s).2 = (m.call s).1.isOk
  fit_wait : ∀ s, V.fit s → V.fit (Engine.waitForEvent.run s).2
  /-- A wait does not let a debuggee run that is stopped. -/
  wait_of_stopped : ∀ s, V.fit s → V.runs s = false → V.runs (Engine.waitForEvent.run s).2 = false
  wait_of_unreported : ∀ s, V.fit s → (∀ events, (Engine.waitForEvent.run s).1 ≠ some (.ok events)) →
    V.runs (Engine.waitForEvent.run s).2 = V.runs s
  wait_of_reported : ∀ s, V.fit s → ∀ events, (Engine.waitForEvent.run s).1 = some (.ok events) →
    events.any NativeEvent.isStop = true → V.runs (Engine.waitForEvent.run s).2 = false

/-- A provider leaves fit what is fit, and the engines it makes have no debuggee that runs. -/
def Makes (provider : EngineProvider σ) : Prop :=
  ∀ options s, V.fit s → V.fit ((provider.create options).call s).2 ∧
    (((provider.create options).call s).1 = .ok () → V.runs ((provider.create options).call s).2 = false)

/-- What leaves the status alone twice leaves it alone. -/
theorem Leaves.trans {V : StatusView σ} {s₁ s₂ s₃ : σ} (h : V.Leaves s₁ s₂) (h' : V.Leaves s₂ s₃) :
    V.Leaves s₁ s₃ :=
  ⟨fun fit => h'.fit (h.fit fit), fun fit => (h'.status_eq (h.fit fit)).trans (h.status_eq fit)⟩

/-- Releasing symbol groups leaves the status alone. -/
theorem Lawful.foldl_releaseGroup [Engine σ] {V : StatusView σ} (L : V.Lawful) (l : List GroupId)
    (s : σ) : V.Leaves s (l.foldl (fun s g => Engine.releaseGroup g s) s) := by
  induction l generalizing s with
  | nil => exact ⟨id, fun _ => rfl⟩
  | cons g l ih => exact (L.releaseGroup g s).trans (ih _)

end StatusView

/-- A command that lets the debuggee run. -/
def Command.resumes : Command → Bool
  | .continue | .step .. => true
  | _ => false

/-- A command that starts a debuggee. -/
def Command.starts : Command → Bool
  | .launch _ | .attach _ => true
  | _ => false

variable {σ : Type} [Engine σ] {V : StatusView σ} {st : ExecutionStatus}

namespace Worker

/-! ## Work that publishes nothing -/

/-- The engine is fit and shows a status. Nothing was published since `w₀`, and whether the debuggee has
exited is what it was. -/
structure ShowsStatus (V : StatusView σ) (st : ExecutionStatus) (w₀ w : Worker σ) : Prop where
  fit : V.fit w.session.engine
  status_eq : V.status w.session.engine = st
  exited_eq : w.exited = w₀.exited
  published_eq : w.published = w₀.published

namespace ShowsStatus

variable {w₀ w w' : Worker σ}

omit [Engine σ] in
/-- Only the engine, what was published and whether the debuggee has exited count. -/
theorem congr (h : w₀.ShowsStatus V st w) (engine : V.Leaves w.session.engine w'.session.engine)
    (exited : w'.exited = w.exited) (published : w'.published = w.published) : w₀.ShowsStatus V st w' where
  fit := engine.fit h.fit
  status_eq := (engine.status_eq h.fit).trans h.status_eq
  exited_eq := exited.trans h.exited_eq
  published_eq := published.trans h.published_eq

omit [Engine σ] in
/-- A worker with the same engine and the same events shows the same status. -/
theorem same (h : w₀.ShowsStatus V st w) (engine : w'.session.engine = w.session.engine)
    (exited : w'.exited = w.exited) (published : w'.published = w.published) : w₀.ShowsStatus V st w' :=
  h.congr (by rw [engine]; exact ⟨id, fun _ => rfl⟩) exited published

omit [Engine σ] in
/-- The debuggee runs if the status that is shown says so. -/
theorem runs_eq (h : w₀.ShowsStatus V st w) : V.runs w.session.engine = st.isRunning := by
  rw [StatusView.runs, h.status_eq]

end ShowsStatus

/-- Showing a status is kept by looking and by changes of the store. -/
theorem shows_listingFrame (L : V.Lawful) (st : ExecutionStatus) (w₀ : Worker σ) :
    ListingFrame (w₀.ShowsStatus V st) where
  call := fun m _ h => h.congr (L.inspect m _) rfl rfl
  typeNames := fun _ _ h => h.same rfl rfl rfl
  anyStore := fun _ _ _ h => h.same rfl rfl rfl

/-- Showing a status is kept while a group is taken out and put back. -/
theorem shows_groupFrame (L : V.Lawful) (st : ExecutionStatus) (w₀ : Worker σ) :
    GroupFrame (w₀.ShowsStatus V st) fun _ _ => w₀.ShowsStatus V st :=
  (shows_listingFrame L st w₀).storing.groupFrame (fun _ _ h => h.same rfl rfl rfl)
    fun kind previous _ h => h.congr (L.symbolGroup kind previous _) rfl rfl

/-- Showing a status is kept by the work on breakpoints. -/
theorem shows_breakpointFrame (L : V.Lawful) (st : ExecutionStatus) (w₀ : Worker σ) :
    BreakpointFrame (w₀.ShowsStatus V st) where
  call := (shows_listingFrame L st w₀).call
  breakpointCall := fun m _ h => h.congr (L.breakpoint m _) rfl rfl
  breakpoints := fun _ _ h => h.same rfl rfl rfl

/-- Commands that inspect leave the status as it is. -/
theorem shows_execute (L : V.Lawful) {c : Command} (hc : c.inspects = true) (w₀ : Worker σ) :
    Keeps (w₀.ShowsStatus V st) (execute c) :=
  (shows_listingFrame L st w₀).execute (shows_groupFrame L st w₀)
    (shows_breakpointFrame L st w₀).setBreakpoints hc

/-- The status is read off the engine. -/
theorem ensures_status (L : V.Lawful) (I : Worker σ → Prop)
    (shows : ∀ w, I w → V.fit w.session.engine ∧ V.status w.session.engine = st) (F : CallFrame I) :
    Ensures I (status (σ := σ)) fun st' w => I w ∧ st' = st := by
  intro w hw
  obtain ⟨fit, same⟩ := shows w hw
  refine ⟨F.status w hw, ?_⟩
  have read := L.read _ fit
  change ((Engine.executionStatus.call w.session.engine).1.toOption).getD .noDebuggee = st
  rw [read, ← same]
  rfl

/-- A wait is wanted while the debuggee runs, unless the last one has failed. -/
theorem ensures_wantsWait (L : V.Lawful) (w₀ : Worker σ) :
    Ensures (w₀.ShowsStatus V st) (wantsWait (σ := σ)) fun wants w =>
      w₀.ShowsStatus V st w ∧ (wants = true → st.isRunning = true) := by
  have status : Ensures (w₀.ShowsStatus V st) (Worker.status (σ := σ)) fun st' w =>
      w₀.ShowsStatus V st w ∧ st' = st :=
    ensures_status L _ (fun _ h => ⟨h.fit, h.status_eq⟩) (shows_listingFrame L st w₀).toCallFrame
  refine status.bind fun st' => Ensures.bindGet fun w₁ h₁ => .pure fun w h => ⟨h.1.1, fun wants => ?_⟩
  rw [Bool.and_eq_true] at wants
  rw [← h₁.2]
  exact wants.1

/-! ## Commands to start and to resume the debuggee -/

omit [Engine σ] in
/-- A call leads to a status that goes with its answer. -/
private theorem ensures_ask {α : Type} {m : EngineM σ α}
    {goes : Except EngineError α → ExecutionStatus → Prop}
    (called : ∀ s, V.fit s → V.status s = st →
      V.fit (m.call s).2 ∧ goes (m.call s).1 (V.status (m.call s).2)) (w₀ : Worker σ) :
    Ensures (w₀.ShowsStatus V st) (ask m) fun answer w => ∃ st', goes answer st' ∧ w₀.ShowsStatus V st' w := by
  intro w hw
  obtain ⟨fit, goes⟩ := called w.session.engine hw.fit hw.status_eq
  exact ⟨_, goes, fit, rfl, hw.exited_eq, hw.published_eq⟩

/-- The debuggee runs if the engine was asked to resume it and has not refused. -/
private theorem ensures_resumeBy_shows (L : V.Lawful) {m : EngineM σ Unit} (hm : ResumingCall m) (how : Resume)
    (failure : EngineError → ExecutionFailure) (stopped : st.isRunning = false) (w₀ : Worker σ) :
    Ensures (w₀.ShowsStatus V st) (resumeBy how failure m) fun result w =>
      ∃ st', st'.isRunning = result.isOk ∧ w₀.ShowsStatus V st' w := by
  have asked : Ensures (w₀.ShowsStatus V st) (ask m) fun answer w =>
      ∃ st', st'.isRunning = answer.isOk ∧ w₀.ShowsStatus V st' w :=
    ensures_ask (fun s fit status => L.resume hm s fit (by rw [StatusView.runs, status, stopped])) w₀
  refine (Ensures.of_keeps (shows_listingFrame L st w₀).clearStore).bind fun _ => ?_
  refine asked.bind fun answer => ?_
  cases answer with
  | error e => exact .pure fun w hw => hw
  | ok u =>
    rintro w ⟨st', runs, hw⟩
    exact ⟨st', runs, hw.same rfl rfl rfl⟩

/-- A step of either kind resumes. -/
private theorem resuming_stepCall (kind : StepKind) : ResumingCall (stepCall (σ := σ) kind) :=
  match kind with
  | .into => .stepInto
  | .over => .stepOver
  | .out => .stepOut

/-- A step that succeeds leaves the debuggee running, one that fails leaves it stopped. -/
private theorem ensures_step_shows (L : V.Lawful) (kind : StepKind) (thread : Option UInt32)
    (stopped : st.isRunning = false) (w₀ : Worker σ) :
    Ensures (w₀.ShowsStatus V st) (step kind thread) fun result w =>
      ∃ st', st'.isRunning = result.isOk ∧ w₀.ShowsStatus V st' w := by
  have stepped := ensures_resumeBy_shows L (resuming_stepCall kind) .stepped .stepping stopped w₀
  cases thread with
  | none => exact stepped
  | some id =>
    -- a thread that cannot be selected is no reason to run
    have selected := (shows_listingFrame L st w₀).storing.adding.selectThread id
    refine (Ensures.of_keeps selected).bind fun selected => ?_
    cases selected with
    | error e => exact .pure fun w hw => ⟨st, stopped, hw⟩
    | ok a => exact stepped

/-- A command to resume a stopped debuggee is carried out at once, and the debuggee runs if it
succeeds. -/
theorem execute_resumes (L : V.Lawful) {c : Command} (hc : c.resumes = true)
    (stopped : st.isRunning = false) (w₀ : Worker σ) :
    Ensures (w₀.ShowsStatus V st) (execute c) fun outcome w =>
      ∃ result, outcome = .answered (.executed result) ∧
        ∃ st', st'.isRunning = result.isOk ∧ w₀.ShowsStatus V st' w := by
  cases c with
  | «continue» =>
    refine Ensures.bind (ensures_resumeBy_shows L .go .continued .continuing stopped w₀) fun result => ?_
    exact .pure fun w hw => ⟨result, rfl, hw⟩
  | step kind thread =>
    refine Ensures.bind (ensures_step_shows L kind thread stopped w₀) fun result => ?_
    exact .pure fun w hw => ⟨result, rfl, hw⟩
  | _ => cases hc

/-- A debuggee that was started does not run before its first stop. -/
theorem execute_starts (L : V.Lawful) {c : Command} (hc : c.starts = true)
    (stopped : st.isRunning = false) (w₀ : Worker σ) :
    Ensures (w₀.ShowsStatus V st) (execute c) fun outcome w =>
      (∃ start, outcome = .ofStart start) ∧ ∃ st', st'.isRunning = false ∧ w₀.ShowsStatus V st' w := by
  -- a debuggee that is being started has not run yet, be it created or attached to
  have asked : ∀ {m : EngineM σ Unit}, StartingCall m → Ensures (w₀.ShowsStatus V st) (ask m) fun _ w =>
      ∃ st', st'.isRunning = false ∧ w₀.ShowsStatus V st' w :=
    fun hm => ensures_ask
      (fun s fit status => L.start hm s fit (by rw [StatusView.runs, status, stopped])) w₀
  have cleared := Ensures.of_keeps (shows_listingFrame L st w₀).clearStore
  cases c with
  | launch r =>
    refine Ensures.bind (R := fun _ w => ∃ st', st'.isRunning = false ∧ w₀.ShowsStatus V st' w) ?_ fun start =>
      .pure fun w hw => ⟨⟨start, rfl⟩, hw⟩
    refine cleared.bind fun _ => (asked (.createProcess _)).bind fun answer => ?_
    cases answer <;> exact .pure fun w hw => hw
  | attach r =>
    refine Ensures.bind (R := fun _ w => ∃ st', st'.isRunning = false ∧ w₀.ShowsStatus V st' w) ?_ fun start =>
      .pure fun w hw => ⟨⟨start, rfl⟩, hw⟩
    refine cleared.bind fun _ => (asked (.attachProcess _)).bind fun answer => ?_
    cases answer <;> exact .pure fun w hw => hw
  | _ => cases hc

/-! ## Work that publishes -/

/-- After `before`, either it was published that the debuggee has exited, or it has not, and `told` is
whether a stop was published. -/
structure Tells (V : StatusView σ) (st : ExecutionStatus) (before : List GatewayEvent) (told : Bool)
    (w : Worker σ) : Prop where
  fit : V.fit w.session.engine
  status_eq : V.status w.session.engine = st
  published : ∃ es, w.published = before ++ es ∧
    ((∃ code, .processExited code ∈ es) ∨ w.exited = false ∧ es.any GatewayEvent.isStop = told)

namespace Tells

variable {before : List GatewayEvent} {told : Bool} {w w' : Worker σ}

omit [Engine σ] in
/-- What leaves the engine's status alone and tells nothing keeps what was told. -/
theorem congr (h : w.Tells V st before told) (engine : V.Leaves w.session.engine w'.session.engine)
    (exited : w'.exited = w.exited) (published : w'.published = w.published) :
    w'.Tells V st before told where
  fit := engine.fit h.fit
  status_eq := (engine.status_eq h.fit).trans h.status_eq
  published := by
    rw [published, exited]
    exact h.published

omit [Engine σ] in
/-- An event is published. -/
theorem publish (h : w.Tells V st before told) (e : GatewayEvent) :
    { w with published := w.published ++ [e] }.Tells V st before (told || e.isStop) := by
  obtain ⟨es, published, exit | ⟨alive, same⟩⟩ := h.published
  · obtain ⟨code, mem⟩ := exit
    refine ⟨h.fit, h.status_eq, es ++ [e], ?_, .inl ⟨code, List.mem_append_left _ mem⟩⟩
    rw [published, List.append_assoc]
  · refine ⟨h.fit, h.status_eq, es ++ [e], ?_, .inr ⟨alive, ?_⟩⟩
    · rw [published, List.append_assoc]
    · rw [List.any_append, same, List.any_cons, List.any_nil, Bool.or_false]

omit [Engine σ] in
/-- Once it was published that the debuggee has exited, nothing else matters. -/
theorem exit (h : w.Tells V st before told) (code : UInt32) (told' : Bool) :
    { w with exited := true, published := w.published ++ [GatewayEvent.processExited code] }.Tells V st
      before told' := by
  obtain ⟨es, published, -⟩ := h.published
  refine ⟨h.fit, h.status_eq, es ++ [.processExited code], ?_, .inl ⟨code, ?_⟩⟩
  · rw [published, List.append_assoc]
  · exact List.mem_append_right _ (List.mem_singleton_self _)

omit [Engine σ] in
/-- Once an exit was told, stops are not asked for. -/
theorem of_exited (h : w.Tells V st before told) (exited : w.exited = true) (told' : Bool) :
    w.Tells V st before told' := by
  obtain ⟨es, published, exit | ⟨alive, -⟩⟩ := h.published
  · exact ⟨h.fit, h.status_eq, es, published, .inl exit⟩
  · exact nomatch exited.symm.trans alive

end Tells

variable {before : List GatewayEvent} {told : Bool}

omit [Engine σ] in
/-- An event about a thread tells of no stop. -/
theorem not_isStop_of_isOfThread {e : GatewayEvent} (h : e.isOfThread = true) :
    e.isStop = false := by
  cases e <;> first | rfl | cases h

/-- What was told is kept by selections. -/
private theorem tells_selecting (L : V.Lawful) : SelectingFrame (Tells V st before told) where
  call := fun m _ h => h.congr (L.inspect m _) rfl rfl
  choose := fun _ _ h => h.congr ⟨id, fun _ => rfl⟩ rfl rfl

/-- What was told is kept by bringing the threads up to date, whose events tell of no stop. -/
private theorem tells_syncing (L : V.Lawful) : SyncFrame (Tells V st before told) where
  call := (tells_selecting L).call
  knownThreads := fun _ _ h => h.congr ⟨id, fun _ => rfl⟩ rfl rfl
  publish := by
    intro w e he h
    have published := h.publish e
    rwa [not_isStop_of_isOfThread he, Bool.or_false] at published
  retainGroups := by
    intro w keep h
    rw [retainGroups_eq]
    exact h.congr (L.foldl_releaseGroup _ _) rfl rfl

omit [Engine σ] in
/-- Publishing an event tells of a stop if the event does. -/
private theorem ensures_publish (e : GatewayEvent) : Ensures (Tells (σ := σ) V st before told) (publish e)
    fun _ => Tells V st before (told || e.isStop) :=
  fun _ h => h.publish e

/-- A native event is published as a stop if it is one. -/
private theorem ensures_translate_tells (L : V.Lawful) (e : NativeEvent) :
    Ensures (Tells V st before told) (translate (σ := σ) e) fun _ =>
      Tells V st before (told || e.isStop) := by
  -- events that stop are told with the thread they stop in, the others tell of no stop
  have stopped : ∀ {toEvent : UInt32 → GatewayEvent}, (∀ thread, (toEvent thread).isStop = true) →
      e.isStop = true → Ensures (Tells V st before told) (do publish (toEvent (← currentThread)))
        fun _ => Tells V st before (told || e.isStop) := by
    intro toEvent stops isStop
    refine (Ensures.of_keeps (tells_selecting (σ := σ) L).currentThread).bind fun thread w h => ?_
    rw [isStop, ← stops thread]
    exact h.publish _
  have quiet : e.isStop = false → ∀ {m : WorkerM σ Unit}, Keeps (Tells V st before told) m →
      Ensures (Tells V st before told) m fun _ => Tells V st before (told || e.isStop) := by
    intro other m keeps
    rw [other, Bool.or_false]
    exact Ensures.of_keeps keeps
  cases e with
  -- a breakpoint tells of a stop, whether it is known or not
  | breakpoint id =>
    refine (Ensures.of_keeps (tells_selecting (σ := σ) L).currentThread).bind fun thread => ?_
    refine (Ensures.of_keeps Keeps.get).bind fun w₀ => ?_
    split <;> exact ensures_publish _
  | exception code firstChance => exact stopped (fun _ => rfl) rfl
  | breakIn => exact stopped (fun _ => rfl) rfl
  | threadCreated thread => exact quiet rfl ((tells_syncing L).threadStarted thread)
  | threadExited thread => exact quiet rfl ((tells_syncing L).threadExited thread)
  | processExited exitCode => exact fun w h => h.exit exitCode _
  | output text => exact ensures_publish (.output text)

/-- Translating the events of a wait tells of a stop if one of them does. -/
private theorem ensures_translated_tells (L : V.Lawful) (events : List NativeEvent) (told : Bool) :
    Ensures (Tells V st before told) (forIn events PUnit.unit fun e _ => do
      translate (σ := σ) e
      pure (ForInStep.yield PUnit.unit)) fun _ =>
        Tells V st before (told || events.any NativeEvent.isStop) := by
  -- on the events, with what was told so far
  induction events generalizing told with
  | nil =>
    rw [List.any_nil, Bool.or_false]
    exact .pure fun w h => h
  | cons e events ih =>
    rw [List.forIn_cons, List.any_cons, ← Bool.or_assoc]
    refine Ensures.bind (R := fun step w => step = .yield PUnit.unit ∧
      Tells V st before (told || e.isStop) w) ?_ fun step => ?_
    · exact (ensures_translate_tells L e).bind fun _ => .pure fun w h => ⟨rfl, h⟩
    · refine Ensures.assume (fun w h => h.1) ?_
      rintro rfl
      exact (ih _).mono (fun w h => h.2) fun _ _ h => h

omit [Engine σ] in
/-- A stop that no event explains is told as a stop. -/
private theorem isStop_unexplainedStop (resume : Option Resume) (thread : UInt32) :
    (unexplainedStop resume thread).isStop = true := by
  unfold unexplainedStop
  split <;> rfl

/-- Of a wait that has returned, a stop is published if its events tell of one, or if the debuggee does
not run. -/
theorem ensures_report_tells (L : V.Lawful) (events : List NativeEvent) :
    Ensures (Tells V st before false) (report (σ := σ) events) fun _ =>
      Tells V st before (events.any NativeEvent.isStop || !st.isRunning) := by
  let stop := events.any NativeEvent.isStop
  have translated : Ensures (Tells V st before false) (forIn events PUnit.unit fun e _ => do
      translate (σ := σ) e
      pure (ForInStep.yield PUnit.unit)) fun _ => Tells V st before stop := by
    simpa only [Bool.false_or] using ensures_translated_tells L events false
  have syncing : SyncFrame (Tells V st before stop) := tells_syncing L
  -- between the events and the status the threads are brought up to date, which tells of no stop
  have synced := syncing.syncThreads
  have read : Ensures (Tells V st before stop) (Worker.status (σ := σ)) fun st' w =>
      Tells V st before stop w ∧ st' = st :=
    ensures_status L _ (fun _ h => ⟨h.fit, h.status_eq⟩) (tells_selecting L).toCallFrame
  -- the last step is taken in either case
  have settled : Keeps (Tells V st before (stop || !st.isRunning)) (if !st.isRunning then
      (modify fun w => { w with resume := none } : WorkerM σ Unit) else pure ()) :=
    .ite (fun _ => .modify fun w h => h.congr ⟨id, fun _ => rfl⟩ rfl rfl) fun _ => .pure _
  refine translated.bind fun _ => (Ensures.of_keeps synced).bind fun _ => read.bind fun st' => ?_
  refine Ensures.assume (fun w h => h.2) ?_
  rintro rfl
  refine Ensures.mono (P := Tells V st' before stop) ?_ (fun w h => h.1) fun _ _ h => h
  refine .ite (fun none => ?_) fun _ => ?_
  · -- the debuggee is gone
    refine Ensures.bindGet fun w₀ _ => .ite (fun _ => ?_) fun exited => ?_
    · exact fun w h => settled _ (h.1.exit 0 _)
    · have exited : w₀.exited = true := by simpa using exited
      refine Ensures.mono (Ensures.of_keeps settled) ?_ fun _ _ h => h
      rintro w ⟨h, rfl⟩
      exact h.of_exited exited _
  · -- the debuggee is there: a stop is told now if it has stopped and no event has told so
    refine .ite (fun unexplained => ?_) fun explained => ?_
    · refine (Ensures.of_keeps (tells_selecting L).currentThread).bind fun thread => ?_
      refine (Ensures.of_keeps Keeps.get).bind fun w₀ => ?_
      refine (ensures_publish _).bind fun _ => ?_
      rw [isStop_unexplainedStop]
      have stopped : (stop || true) = (stop || !st'.isRunning) := by
        rw [(Bool.and_eq_true_iff.1 unexplained).2]
      rw [stopped]
      exact settled
    · -- the debuggee runs, or a stop was told already
      have same : ∀ a b : Bool, ¬(!a && !b) = true → a = (a || !b) := by decide
      have same : stop = (stop || !st'.isRunning) := same _ _ explained
      refine Ensures.mono (Ensures.of_keeps settled) (fun w h => ?_) fun _ _ h => h
      rwa [← same]

/-! ## The first stop of a debuggee -/

/-- What was told is kept by the end of a start. -/
private theorem tells_starting (L : V.Lawful) : StartingFrame (Tells V st before false) where
  call := (tells_selecting L).call
  output := fun _ text h => h.publish (.output text)
  reset := by
    rintro w ⟨fit, status, es, published, exit | ⟨alive, same⟩⟩
    · exact ⟨fit, status, es, published, .inl exit⟩
    · exact ⟨fit, status, es, published, .inr ⟨rfl, same⟩⟩
  knownThreads := fun _ _ h => h.congr ⟨id, fun _ => rfl⟩ rfl rfl
  process := fun _ _ h => h.congr ⟨id, fun _ => rfl⟩ rfl rfl

/-- Of the first stop of a debuggee, no stop is published. -/
theorem tells_finishStart (L : V.Lawful) (d : NewDebuggee)
    (answer : Except EngineError (List NativeEvent)) :
    Keeps (Tells V st before false) (finishStart (σ := σ) d answer) :=
  (tells_starting L).finishStart d answer

end Worker

/-! ## The engine thread -/

omit [Engine σ] in
/-- Calm work does not end a session that has not ended. -/
theorem Worker.Calm.unended {w₀ w : Worker σ} (h : w₀.Calm w)
    (unended : GatewayEvent.terminated ∉ w₀.published) : .terminated ∉ w.published := by
  rw [← List.count_eq_zero] at unended ⊢
  rw [h.count_terminated, unended]

/-- A wait for a stop has returned, and nothing was published of it yet. -/
def Phase.hasReturned : Phase → Bool
  | woken .stop _ => true
  | _ => false

/-- A phase goes with whether the debuggee runs: the engine thread waits for a stop only while it runs,
and for the first stop of a debuggee only while it does not. -/
def Phase.Suits (runs : Bool) : Phase → Prop
  | entering .stop | waiting .stop | woken .stop (.error _) => runs = true
  | woken .stop (.ok events) => events.any NativeEvent.isStop = true → runs = false
  | entering (.start ..) | waiting (.start ..) | woken (.start ..) _ => runs = false
  | leaving | finished => False
  | starting | looping | ready | draining => True

namespace Gateway

/-- It was not published that the debuggee has exited. -/
def Lives (g : Gateway σ) : Prop :=
  ∀ code, .processExited code ∉ g.worker.published

/-- The engine thread is at work on a fit engine, and its phase suits the status. -/
structure Underway (V : StatusView σ) (g : Gateway σ) : Prop where
  fit : V.fit g.engine
  accepting : g.accepting = true
  cancelled : g.worker.cancelled = false
  exited : g.worker.exited = false
  unended : .terminated ∉ g.worker.published
  phase : g.phase.Suits (V.runs g.engine)

/-- Nothing is taken from the queue, and nobody gets an answer. -/
structure Idles (g g' : Gateway σ) : Prop where
  queue_eq : g'.queue = g.queue
  answers_eq : g'.answers = g.answers

/-- What a step of the engine thread can do, but for what it publishes: `told` is whether that was a
stop. -/
inductive Turn (V : StatusView σ) (g : Gateway σ) : (told : Bool) → Gateway σ → Prop
  /-- Nothing happens that callers could see. -/
  | work {g' : Gateway σ} (idles : g.Idles g') (runs : V.runs g'.engine = V.runs g.engine)
      (returned : g.phase.hasReturned = false ∧ g'.phase.hasReturned = false)
      (starting : g'.phase.starting? = g.phase.starting?) : Turn V g false g'
  /-- A wait for a stop returns. -/
  | returns {g' : Gateway σ} (idles : g.Idles g') (ran : V.runs g.engine = true)
      (returned : g.phase.hasReturned = false ∧ g'.phase.hasReturned = true)
      (starting : g.phase.starting? = none ∧ g'.phase.starting? = none) : Turn V g false g'
  /-- A wait that has returned is reported. -/
  | reports {g' : Gateway σ} (idles : g.Idles g') (runs : V.runs g'.engine = V.runs g.engine)
      (returned : g.phase.hasReturned = true ∧ g'.phase.hasReturned = false)
      (starting : g.phase.starting? = none ∧ g'.phase.starting? = none) :
      Turn V g (!V.runs g.engine) g'
  /-- The start of a debuggee is answered. -/
  | started {g' : Gateway σ} {ticket : Ticket} {d : NewDebuggee}
      {result : Except LaunchFailure ProcessInfo} (queue : g'.queue = g.queue)
      (answers : g'.answers = g.answers ++ [(ticket, .launched result)])
      (runs : V.runs g'.engine = V.runs g.engine)
      (returned : g.phase.hasReturned = false ∧ g'.phase.hasReturned = false)
      (starting : g.phase.starting? = some (ticket, d) ∧ g'.phase.starting? = none) :
      Turn V g false g'
  /-- A command is carried out. -/
  | carries {g' : Gateway σ} {ticket : Ticket} {c : Command} {rest : List (Ticket × Command)}
      {r : Reply} (queue : g.queue = (ticket, c) :: rest ∧ g'.queue = rest)
      (answers : g'.answers = g.answers ++ [(ticket, r)])
      (effect : c.resumes = true ∧ (∃ result, r = .executed result ∧ V.runs g'.engine = result.isOk) ∨
        c.inspects = true ∧ V.runs g'.engine = V.runs g.engine ∨
        c.starts = true ∧ (∃ e, r = .launched (.error e)) ∧ V.runs g'.engine = false)
      (returned : g.phase.hasReturned = false ∧ g'.phase.hasReturned = false)
      (starting : g.phase.starting? = none ∧ g'.phase.starting? = none) : Turn V g false g'
  /-- A debuggee is started, and its first stop has to be awaited. -/
  | begins {g' : Gateway σ} {ticket : Ticket} {c : Command} {rest : List (Ticket × Command)}
      {d : NewDebuggee} (queue : g.queue = (ticket, c) :: rest ∧ g'.queue = rest)
      (answers : g'.answers = g.answers) (starts : c.starts = true) (runs : V.runs g'.engine = false)
      (returned : g.phase.hasReturned = false ∧ g'.phase.hasReturned = false)
      (starting : g.phase.starting? = none ∧ g'.phase.starting? = some (ticket, d)) :
      Turn V g false g'

/-- The next command either inspects, or it starts or resumes a debuggee that does not run. -/
def Admits (V : StatusView σ) (g : Gateway σ) : Prop :=
  ∀ {ticket c rest}, g.queue = (ticket, c) :: rest →
    c.inspects = true ∨ (c.starts = true ∨ c.resumes = true) ∧ V.runs g.engine = false

omit [Engine σ] in
/-- A command that is admitted does not terminate the debuggee. -/
theorem Admits.ne_terminate {g : Gateway σ} (admits : g.Admits V) {ticket : Ticket} {c : Command}
    {rest : List (Ticket × Command)} (queue : g.queue = (ticket, c) :: rest) : c ≠ .terminate := by
  rintro rfl
  rcases admits queue with h | ⟨h | h, -⟩ <;> cases h

namespace Underway

variable {g : Gateway σ}

omit [Engine σ] in
/-- The worker of a session that is under way shows the engine's status. -/
theorem shows (h : g.Underway V) : g.worker.ShowsStatus V (V.status g.engine) g.worker :=
  ⟨h.fit, rfl, rfl, rfl⟩

omit [Engine σ] in
/-- The engine thread has done some work by which nothing was published. -/
private theorem of_shows (h : g.Underway V) {st : ExecutionStatus} {g' : Gateway σ}
    (shows : g.worker.ShowsStatus V st g'.worker) (calm : g.worker.Calm g'.worker)
    (accepting : g'.accepting = g.accepting) (phase : g'.phase.Suits st.isRunning) : g'.Underway V where
  fit := shows.fit
  accepting := accepting.trans h.accepting
  cancelled := calm.cancelled_eq.trans h.cancelled
  exited := shows.exited_eq.trans h.exited
  unended := calm.unended h.unended
  phase := by
    rw [show V.runs g'.engine = st.isRunning from shows.runs_eq]
    exact phase

/-- A command is carried out, and answered. -/
private theorem perform_answered {g : Gateway σ} {c : Command} {r : Reply}
    (outcome : ((Worker.execute c).run g.worker).1 = .answered r) (ticket : Ticket) :
    g.perform ticket c =
      ({ g with worker := ((Worker.execute c).run g.worker).2 }.reply ticket r).goto .draining := by
  rcases e : (Worker.execute c).run g.worker with ⟨outcome', w⟩
  rw [e] at outcome
  cases outcome
  simp only [perform, work, e]

/-- A debuggee is started, and its first stop has to be awaited. -/
private theorem perform_started {g : Gateway σ} {c : Command} {d : NewDebuggee}
    (outcome : ((Worker.execute c).run g.worker).1 = .started d) (ticket : Ticket) :
    g.perform ticket c =
      { g with worker := ((Worker.execute c).run g.worker).2 }.goto (.entering (.start ticket d)) := by
  rcases e : (Worker.execute c).run g.worker with ⟨outcome', w⟩
  rw [e] at outcome
  cases outcome
  simp only [perform, work, e]

/-- A command that inspects is answered at once. -/
private theorem execute_inspects {c : Command} (hc : c.inspects = true) (w : Worker σ) :
    ∃ r, ((Worker.execute c).run w).1 = .answered r := by
  cases c with
  | launch | attach => cases hc
  | _ => exact ⟨_, rfl⟩

/-- The oldest command is carried out. -/
private theorem performs (L : V.Lawful) (h : g.Underway V) (admits : g.Admits V)
    (off : g.phase.hasReturned = false ∧ g.phase.starting? = none) {w : Worker σ}
    (shows : g.worker.ShowsStatus V (V.status g.engine) w) (calm : g.worker.Calm w) {ticket : Ticket}
    {c : Command} {rest : List (Ticket × Command)} (queue : g.queue = (ticket, c) :: rest)
    {g' : Gateway σ} (hg' : { g with worker := w, queue := rest }.perform ticket c = g') :
    g'.Underway V ∧ g'.worker.published = g.worker.published ∧ Turn V g false g' := by
  have calm := calm.trans (Worker.calm_execute (admits.ne_terminate queue) w)
  -- by kind of command: it inspects, starts a debuggee or resumes the one there is
  rcases admits queue with inspects | ⟨starts | resumes, stopped⟩
  · obtain ⟨r, outcome⟩ := execute_inspects inspects w
    have shows := Worker.shows_execute L inspects g.worker w shows
    rw [← hg', perform_answered outcome]
    refine ⟨h.of_shows shows calm rfl trivial, shows.published_eq, ?_⟩
    exact .carries ⟨queue, rfl⟩ rfl (.inr (.inl ⟨inspects, shows.runs_eq⟩)) ⟨off.1, rfl⟩ ⟨off.2, rfl⟩
  · obtain ⟨⟨start, outcome⟩, st, stopped, shows⟩ :=
      Worker.execute_starts L starts stopped g.worker w shows
    have runs : V.runs ((Worker.execute c).run w).2.session.engine = false := shows.runs_eq.trans stopped
    cases start with
    -- a start that fails is answered at once, and one that succeeds leaves the answer to the wait
    | error e =>
      rw [← hg', perform_answered (r := .launched (.error e)) outcome]
      refine ⟨h.of_shows shows calm rfl trivial, shows.published_eq, ?_⟩
      exact .carries ⟨queue, rfl⟩ rfl (.inr (.inr ⟨starts, ⟨e, rfl⟩, runs⟩)) ⟨off.1, rfl⟩ ⟨off.2, rfl⟩
    | ok d =>
      rw [← hg', perform_started (d := d) outcome]
      refine ⟨h.of_shows shows calm rfl stopped, shows.published_eq, ?_⟩
      exact .begins ⟨queue, rfl⟩ rfl starts runs ⟨off.1, rfl⟩ ⟨off.2, rfl⟩
  · obtain ⟨result, outcome, st, runs, shows⟩ :=
      Worker.execute_resumes L resumes stopped g.worker w shows
    rw [← hg', perform_answered outcome]
    refine ⟨h.of_shows shows calm rfl trivial, shows.published_eq, ?_⟩
    have effect := shows.runs_eq.trans runs
    exact .carries ⟨queue, rfl⟩ rfl (.inl ⟨resumes, result, rfl, effect⟩) ⟨off.1, rfl⟩ ⟨off.2, rfl⟩

/-- The next command is carried out, if there is one. -/
private theorem takeCommand (L : V.Lawful) (h : g.Underway V) (admits : g.Admits V)
    (phase : g.phase = .ready ∨ g.phase = .draining) {w : Worker σ}
    (shows : g.worker.ShowsStatus V (V.status g.engine) w) (calm : g.worker.Calm w) {g' : Gateway σ}
    (hg' : { g with worker := w }.takeCommand = g') :
    g'.Underway V ∧ g'.worker.published = g.worker.published ∧ Turn V g false g' := by
  have off : g.phase.hasReturned = false ∧ g.phase.starting? = none := by
    rcases phase with e | e <;> rw [e] <;> exact ⟨rfl, rfl⟩
  -- an empty queue only begins a turn, since commands are still accepted
  cases queue : g.queue with
  | nil =>
    simp only [Gateway.takeCommand, queue, h.accepting, if_true] at hg'
    rw [← hg']
    refine ⟨h.of_shows shows calm h.accepting.symm trivial, shows.published_eq, ?_⟩
    exact .work ⟨queue.symm, rfl⟩ shows.runs_eq ⟨off.1, rfl⟩ off.2.symm
  | cons head rest =>
    obtain ⟨ticket, c⟩ := head
    simp only [Gateway.takeCommand, queue] at hg'
    exact h.performs L admits off shows calm queue hg'

/-- A native wait is asked for its answer. -/
private theorem polls (L : V.Lawful) (h : g.Underway V) {purpose : WaitPurpose}
    (phase : g.phase = .entering purpose ∨ g.phase = .waiting purpose) :
    (g.poll purpose).Underway V ∧ Turn V g false (g.poll purpose) := by
  have fit := L.fit_wait g.engine h.fit
  have unreported := L.wait_of_unreported g.engine h.fit
  have reported := L.wait_of_reported g.engine h.fit
  have stopped := L.wait_of_stopped g.engine h.fit
  have starting := Phase.starting?_afterWait phase
  have off : g.phase.hasReturned = false := by rcases phase with e | e <;> rw [e] <;> rfl
  have suits : (Phase.waiting purpose).Suits (V.runs g.engine) := by
    have suits := h.phase
    rcases phase with e | e <;> rw [e] at suits <;> cases purpose <;> exact suits
  rcases asked : (Engine.waitForEvent : StateM σ _).run g.engine with ⟨answer, engine⟩
  rw [asked] at fit unreported reported stopped
  rw [poll_eq asked]
  -- only the engine and the phase have changed
  have underway : (Phase.afterWait purpose answer).Suits (V.runs engine) →
      ((g.setEngine engine).goto (.afterWait purpose answer)).Underway V :=
    fun phase => ⟨fit, h.accepting, h.cancelled, h.exited, h.unended, phase⟩
  -- during a start nothing runs yet, and otherwise only events that were handed over may stop what runs
  cases purpose with
  | start ticket d =>
    have runs : V.runs engine = V.runs g.engine := (stopped suits).trans suits.symm
    refine ⟨underway ?_, .work ⟨rfl, rfl⟩ runs ⟨off, ?_⟩ (starting answer)⟩
    · cases answer <;> exact stopped suits
    · cases answer <;> rfl
  | stop =>
    have idle : g.phase.starting? = none := by rcases phase with e | e <;> rw [e] <;> rfl
    cases answer with
    | none =>
      have runs : V.runs engine = V.runs g.engine := unreported nofun
      exact ⟨underway (runs.trans suits), .work ⟨rfl, rfl⟩ runs ⟨off, rfl⟩ (starting none)⟩
    | some answer =>
      refine ⟨underway ?_, .returns ⟨rfl, rfl⟩ suits ⟨off, rfl⟩ ⟨idle, rfl⟩⟩
      -- only events that were handed over say whether the debuggee still runs
      cases answer with
      | error e => exact (unreported nofun).trans suits
      | ok events => exact reported events rfl

omit [Engine σ] in
/-- Before anything is published, no stop was told of. -/
private theorem tells (h : g.Underway V) :
    g.worker.Tells V (V.status g.engine) g.worker.published false :=
  ⟨h.fit, rfl, [], (List.append_nil _).symm, .inr ⟨h.exited, rfl⟩⟩

omit [Engine σ] in
/-- The engine thread has published something, but not that the debuggee has exited. -/
private theorem of_tells (h : g.Underway V) (g' : Gateway σ) {told : Bool}
    (tells : g'.worker.Tells V (V.status g.engine) g.worker.published told)
    (calm : g.worker.Calm g'.worker) (accepting : g'.accepting = g.accepting)
    (phase : g'.phase.Suits (V.runs g'.engine)) (lives : g'.Lives) :
    g'.Underway V ∧ V.runs g'.engine = V.runs g.engine ∧
      ∃ es, g'.worker.published = g.worker.published ++ es ∧ es.any GatewayEvent.isStop = told := by
  obtain ⟨fit, status, es, published, ⟨code, exit⟩ | ⟨alive, stop⟩⟩ := tells
  · refine absurd ?_ (lives code)
    rw [published]
    exact List.mem_append_right _ exit
  · have runs : V.runs g'.engine = V.runs g.engine := by
      rw [StatusView.runs, Gateway.engine, status]
      rfl
    exact ⟨⟨fit, accepting.trans h.accepting, calm.cancelled_eq.trans h.cancelled, alive,
      calm.unended h.unended, phase⟩, runs, es, published, stop⟩

/-- A wait for a stop has returned, and its events are published. -/
private theorem reports (L : V.Lawful) (h : g.Underway V) {events : List NativeEvent}
    (phase : g.phase = .woken .stop (.ok events)) {g' : Gateway σ}
    (hg' : (g.work (Worker.report events)).2.goto .ready = g') (lives : g'.Lives) :
    g'.Underway V ∧ ∃ es, g'.worker.published = g.worker.published ++ es ∧
      Turn V g (es.any GatewayEvent.isStop) g' := by
  subst hg'
  have calm : g.worker.Calm ((Worker.report events).run g.worker).2 :=
    Worker.Quiet.calm fun _ F h => F.report events _ h
  -- the events are reported after a wait for a stop, whose status is known
  have tells := Worker.ensures_report_tells L events g.worker h.tells
  obtain ⟨underway, runs, es, published, stop⟩ :=
    h.of_tells ((g.work (Worker.report events)).2.goto .ready) tells calm rfl trivial lives
  -- a stop among the events has left the debuggee stopped
  have stop : es.any GatewayEvent.isStop = !V.runs g.engine := by
    have suits : events.any NativeEvent.isStop = true → V.runs g.engine = false := by
      have suits := h.phase
      rwa [phase] at suits
    rw [stop]
    change (_ || !V.runs g.engine) = _
    cases any : events.any NativeEvent.isStop with
    | false => rfl
    | true =>
      rw [suits any]
      rfl
  refine ⟨underway, es, published, ?_⟩
  rw [stop]
  exact .reports ⟨rfl, rfl⟩ runs ⟨by rw [phase]; rfl, rfl⟩ ⟨by rw [phase]; rfl, rfl⟩

/-- The wait for the first stop of a debuggee has returned, and the command to start it is answered. -/
private theorem finishes (L : V.Lawful) (h : g.Underway V) {ticket : Ticket} {d : NewDebuggee}
    {answer : Except EngineError (List NativeEvent)} (phase : g.phase = .woken (.start ticket d) answer)
    {g' : Gateway σ} (hg' : g.wake (.start ticket d) answer = g') (lives : g'.Lives) :
    g'.Underway V ∧ ∃ es, g'.worker.published = g.worker.published ++ es ∧
      Turn V g (es.any GatewayEvent.isStop) g' := by
  subst hg'
  have calm := (Worker.quiet_finishStart d answer g.worker).calm
  have tells := Worker.tells_finishStart L d answer g.worker h.tells
  obtain ⟨underway, runs, es, published, stop⟩ :=
    h.of_tells (g.wake (.start ticket d) answer) tells calm rfl trivial lives
  refine ⟨underway, es, published, ?_⟩
  rw [stop]
  exact .started rfl rfl runs ⟨by rw [phase]; rfl, rfl⟩ ⟨by rw [phase]; rfl, rfl⟩

/-- The engine thread begins, and clears the breakpoints of the engine. -/
private theorem clears (L : V.Lawful) (h : g.Underway V) (hp : g.phase = .starting) :
    g.advance.Underway V ∧ g.advance.worker.published = g.worker.published ∧
      Turn V g false g.advance := by
  have step : g.advance = (g.work (Worker.ask Engine.clearBreakpoints)).2.goto .looping := by
    simp only [Gateway.advance, hp]
  have shows := (Worker.shows_breakpointFrame L _ g.worker).breakpointCall .clearBreakpoints _ h.shows
  rw [step]
  refine ⟨h.of_shows shows (Worker.calm_clearBreakpoints _) rfl trivial, shows.published_eq, ?_⟩
  exact .work ⟨rfl, rfl⟩ shows.runs_eq ⟨by rw [hp]; rfl, rfl⟩ (by rw [hp]; rfl)

/-- The engine is asked whether its debuggee runs, and if it does, a wait for a stop is entered. -/
private theorem looks (L : V.Lawful) (h : g.Underway V) (hp : g.phase = .looping) :
    g.advance.Underway V ∧ g.advance.worker.published = g.worker.published ∧
      Turn V g false g.advance := by
  have step : g.advance = (g.work Worker.wantsWait).2.goto
      (if (g.work Worker.wantsWait).1 then .entering .stop else .ready) := by
    simp only [Gateway.advance, hp, h.cancelled, Bool.false_eq_true, if_false]
  obtain ⟨shows, running⟩ := Worker.ensures_wantsWait L g.worker g.worker h.shows
  have calm : g.worker.Calm (Worker.wantsWait.run g.worker).2 :=
    Worker.Quiet.calm fun _ F h => F.wantsWait _ h
  rw [step]
  -- a wait is entered only if the debuggee runs
  cases wanted : (g.work Worker.wantsWait).1 with
  | true =>
    refine ⟨h.of_shows shows calm rfl (running wanted), shows.published_eq, ?_⟩
    exact .work ⟨rfl, rfl⟩ shows.runs_eq ⟨by rw [hp]; rfl, rfl⟩ (by rw [hp]; rfl)
  | false =>
    refine ⟨h.of_shows shows calm rfl trivial, shows.published_eq, ?_⟩
    exact .work ⟨rfl, rfl⟩ shows.runs_eq ⟨by rw [hp]; rfl, rfl⟩ (by rw [hp]; rfl)

/-- A wait for a stop that has failed is put down to a debuggee that runs, and nothing is told. -/
private theorem fails (h : g.Underway V) {e : EngineError} (hp : g.phase = .woken .stop (.error e)) :
    (g.wake .stop (.error e)).Underway V ∧ Turn V g false (g.wake .stop (.error e)) := by
  have runs : V.runs g.engine = true := by
    have suits := h.phase
    rwa [hp] at suits
  have turn : Turn V g (!V.runs g.engine) (g.wake .stop (.error e)) :=
    .reports ⟨rfl, rfl⟩ rfl ⟨by rw [hp]; rfl, rfl⟩ ⟨by rw [hp]; rfl, rfl⟩
  rw [runs] at turn
  exact ⟨⟨h.fit, h.accepting, h.cancelled, h.exited, h.unended, trivial⟩, turn⟩

/-- What a step of the engine thread does as long as the debuggee lives. -/
theorem advance (L : V.Lawful) (h : g.Underway V) (admits : g.Admits V) (lives : g.advance.Lives) :
    g.advance.Underway V ∧ ∃ es, g.advance.worker.published = g.worker.published ++ es ∧
      Turn V g (es.any GatewayEvent.isStop) g.advance := by
  -- a turn that publishes nothing tells of no stop
  have silent : ∀ {g' : Gateway σ}, g'.Underway V ∧ g'.worker.published = g.worker.published ∧
      Turn V g false g' → g'.Underway V ∧ ∃ es, g'.worker.published = g.worker.published ++ es ∧
        Turn V g (es.any GatewayEvent.isStop) g' :=
    fun ⟨underway, same, turn⟩ => ⟨underway, [], same.trans (List.append_nil _).symm, turn⟩
  -- a look at the engine publishes nothing, by whatever the wait is for
  have polled : ∀ {purpose : WaitPurpose}, g.phase = .entering purpose ∨ g.phase = .waiting purpose →
      g.advance = g.poll purpose → g.advance.Underway V ∧
        g.advance.worker.published = g.worker.published ∧ Turn V g false g.advance := by
    intro purpose phase step
    obtain ⟨underway, turn⟩ := h.polls L phase
    rw [step]
    refine ⟨underway, ?_, turn⟩
    rw [poll_eq rfl]
    rfl
  -- only a wait that has returned may be told of
  cases hp : g.phase with
  | starting => exact silent (h.clears L hp)
  | looping => exact silent (h.looks L hp)
  | entering purpose => exact silent (polled (.inl hp) (by simp only [Gateway.advance, hp]))
  | waiting purpose => exact silent (polled (.inr hp) (by simp only [Gateway.advance, hp]))
  | woken purpose answer =>
    have step : g.advance = g.wake purpose answer := by simp only [Gateway.advance, hp]
    cases purpose with
    | start ticket d => exact h.finishes L hp step.symm lives
    | stop =>
      cases answer with
      | ok events =>
        refine h.reports L hp ?_ lives
        simp only [step, wake, h.cancelled, Bool.false_eq_true, if_false]
      | error e =>
        obtain ⟨underway, turn⟩ := h.fails hp
        rw [step]
        exact silent ⟨underway, rfl, turn⟩
  | ready =>
    have step : (g.work Worker.wantsWait).2.takeCommand = g.advance := by simp only [Gateway.advance, hp]
    have calm : g.worker.Calm (Worker.wantsWait.run g.worker).2 :=
      Worker.Quiet.calm fun _ F h => F.wantsWait _ h
    have wants := Worker.ensures_wantsWait L g.worker g.worker h.shows
    exact silent (h.takeCommand L admits (.inl hp) wants.1 calm step)
  | draining =>
    have step : g.takeCommand = g.advance := by
      simp only [Gateway.advance, hp, h.cancelled, Bool.false_eq_true, if_false]
    exact silent (h.takeCommand L admits (.inr hp) h.shows (.refl _) step)
  | leaving | finished =>
    -- while commands are accepted, the engine thread does not leave
    have suits := h.phase
    rw [hp] at suits
    exact suits.elim

/-! ### Callers -/

omit [Engine σ] in
/-- Submitting anything but a command to terminate keeps a session under way. -/
theorem submit (h : g.Underway V) {c : Command} (on : c ≠ .terminate) : (g.submit c).2.Underway V := by
  rw [Gateway.submit, if_pos h.accepting]
  exact ⟨h.fit, by simpa using on, h.cancelled, h.exited, h.unended, h.phase⟩

/-- Interrupting a wait keeps a session under way and does not stop the debuggee by itself. -/
theorem interrupt (L : V.Lawful) (h : g.Underway V) :
    g.interrupt.Underway V ∧ V.runs g.interrupt.engine = V.runs g.engine := by
  have leaves := L.interrupt g.engine
  have runs : V.runs (Engine.interrupt g.engine) = V.runs g.engine := by
    rw [StatusView.runs, StatusView.runs, leaves.status_eq h.fit]
  rw [Gateway.interrupt]
  split
  · refine ⟨⟨leaves.fit h.fit, h.accepting, h.cancelled, h.exited, h.unended, ?_⟩, runs⟩
    have phase := h.phase
    rw [← runs] at phase
    exact phase
  · exact ⟨h, rfl⟩

end Underway

/-- The tickets of commands are numbers that were given out. -/
structure Numbered (g : Gateway σ) : Prop where
  queue : ∀ p ∈ g.queue, p.1 < g.issued
  answers : ∀ p ∈ g.answers, p.1 < g.issued
  starting : ∀ {ticket d}, g.phase.starting? = some (ticket, d) → ticket < g.issued

/-- A step of the engine thread issues no ticket. -/
theorem issued_advance (g : Gateway σ) : g.advance.issued = g.issued := by
  have step := advance_spec g
  generalize g.executions = executions, g.advance = g' at step ⊢
  cases step with
  | leave phase => rw [leave_eq]
  | _ => rfl

omit [Engine σ] in
/-- A turn keeps all tickets below the number of those that were issued. -/
theorem Numbered.turn {g g' : Gateway σ} {told : Bool} (h : g.Numbered) (turn : Turn V g told g')
    (issued : g'.issued = g.issued) : g'.Numbered := by
  have answered : ∀ {ticket : Ticket} {r : Reply}, ticket < g.issued →
      ∀ p ∈ g.answers ++ [(ticket, r)], p.1 < g.issued := by
    intro ticket r bound p mem
    rcases List.mem_append.1 mem with mem | mem
    · exact h.answers p mem
    · rw [List.mem_singleton.1 mem]
      exact bound
  -- a gateway that starts nothing owes no ticket to a start
  have idling : ∀ {ticket : Ticket} {d : NewDebuggee}, g'.phase.starting? = none →
      g'.phase.starting? = some (ticket, d) → ticket < g.issued :=
    fun idle start => nomatch idle.symm.trans start
  rw [← issued] at answered idling
  -- a ticket moves from the queue to the start or to the answers, and none is made up
  cases turn with
  | work idles runs returned starting =>
    exact ⟨by rw [idles.queue_eq, issued]; exact h.queue, by rw [idles.answers_eq, issued]; exact h.answers,
      by rw [starting, issued]; exact h.starting⟩
  | returns idles ran returned starting | reports idles runs returned starting =>
    exact ⟨by rw [idles.queue_eq, issued]; exact h.queue, by rw [idles.answers_eq, issued]; exact h.answers,
      idling starting.2⟩
  | started queue answers runs returned starting =>
    exact ⟨by rw [queue, issued]; exact h.queue, answers ▸ answered (issued ▸ h.starting starting.1),
      idling starting.2⟩
  | carries queue answers effect returned starting =>
    have bounds := h.queue
    rw [queue.1, ← queue.2, ← issued] at bounds
    exact ⟨fun p mem => bounds p (List.mem_cons_of_mem _ mem), answers ▸ answered (bounds _ List.mem_cons_self),
      idling starting.2⟩
  | begins queue answers starts runs returned starting =>
    have bounds := h.queue
    rw [queue.1, ← queue.2, ← issued] at bounds
    refine ⟨fun p mem => bounds p (List.mem_cons_of_mem _ mem), ?_, fun start => ?_⟩
    · rw [answers, issued]
      exact h.answers
    · obtain ⟨rfl, -⟩ := Prod.mk.inj (Option.some.inj (starting.2.symm.trans start))
      exact bounds _ List.mem_cons_self

end Gateway

end DebugAdapter
