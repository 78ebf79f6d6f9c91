import DebugAdapter.Proofs.GatewayOrder

/-!
# What is published of a stop

When a native wait has returned, each of its events is published for itself, in the order in which they
came: a breakpoint that the table knows by its file and line, any other as a break. What is published
besides comes after them, and none of it is the hit of a breakpoint.

## Key results

- `Worker.ensures_report`: what is published of the events of a wait
- `Gateway.reports_advance`: the step of the engine thread that publishes them
- `Gateway.published_advance_of_unreported`: the waits whose events are not published
-/

namespace DebugAdapter

/-- The event is the hit of a breakpoint of the table. -/
def GatewayEvent.isBreakpointHit : GatewayEvent → Bool
  | breakpointHit .. => true
  | _ => false

/-- What a native event may be published as. Threads that are known, or unknown, already are not
announced, or taken back, again. -/
def NativeEvent.PublishedAs (table : BreakpointTable) : NativeEvent → List GatewayEvent → Prop
  | breakpoint id, es => ∃ thread,
    es = [((table.get? id).map (GatewayEvent.breakpointHit · thread)).getD (.breakHit thread)]
  | exception code firstChance, es => ∃ thread, es = [.exceptionHit code firstChance thread]
  | breakIn, es => ∃ thread, es = [.breakHit thread]
  | threadCreated thread, es => es = [] ∨ es = [.threadStarted thread]
  | threadExited thread, es => es = [] ∨ es = [.threadExited thread]
  | processExited exitCode, es => es = [.processExited exitCode]
  | output text, es => es = [.output text]

/-- After what was published before, the native events are published one by one, and then no hit of a
breakpoint. -/
def BreakpointTable.Reports (table : BreakpointTable) (events : List NativeEvent)
    (before after : List GatewayEvent) : Prop :=
  ∃ (parts : List (NativeEvent × List GatewayEvent)) (rest : List GatewayEvent),
    after = before ++ parts.flatMap (·.2) ++ rest ∧ parts.map (·.1) = events ∧
    (∀ p ∈ parts, p.1.PublishedAs table p.2) ∧ ∀ e ∈ rest, e.isBreakpointHit = false

/-- An event more that is no hit leaves a report one of the same events. -/
theorem BreakpointTable.Reports.append {table : BreakpointTable} {events : List NativeEvent}
    {before after : List GatewayEvent} (h : table.Reports events before after) {e : GatewayEvent}
    (he : e.isBreakpointHit = false) : table.Reports events before (after ++ [e]) := by
  obtain ⟨parts, rest, rfl, same, all, unhit⟩ := h
  refine ⟨parts, rest ++ [e], List.append_assoc .., same, all, fun e' mem => ?_⟩
  rcases List.mem_append.1 mem with mem | mem
  · exact unhit e' mem
  · rw [List.mem_singleton.1 mem]
    exact he

namespace Worker

variable {σ : Type} {table : BreakpointTable} {told : List GatewayEvent}

/-- The breakpoints, and what was published. -/
def Says (table : BreakpointTable) (told : List GatewayEvent) (w : Worker σ) : Prop :=
  w.breakpoints = table ∧ w.published = told

/-- Publishing adds the event to what was told and leaves the table alone. -/
private theorem says_publish (e : GatewayEvent) :
    Ensures (Says (σ := σ) table told) (publish e) fun _ => Says table (told ++ [e]) :=
  fun _ h => ⟨h.1, congrArg (· ++ [e]) h.2⟩

variable [Engine σ]

/-- What was told and the table are kept by selections. -/
private theorem says_selecting : SelectingFrame (Says (σ := σ) table told) where
  call := fun _ _ h => h
  choose := fun _ _ h => h

/-- A native event is published as what it means by the table. -/
private theorem ensures_translate (e : NativeEvent) :
    Ensures (Says (σ := σ) table told) (translate e) fun _ w =>
      ∃ es, e.PublishedAs table es ∧ w.Says table (told ++ es) := by
  -- a stop is published with the current thread
  have stopped : ∀ {toEvent : UInt32 → GatewayEvent},
      (∀ thread, e.PublishedAs table [toEvent thread]) →
      Ensures (Says (σ := σ) table told) (do publish (toEvent (← currentThread))) fun _ w =>
        ∃ es, e.PublishedAs table es ∧ w.Says table (told ++ es) := by
    intro toEvent h
    refine (Ensures.of_keeps says_selecting.currentThread).bind fun thread => ?_
    exact fun w hw => ⟨_, h thread, says_publish _ w hw⟩
  cases e with
  -- a breakpoint that is not in the table is told as a break
  | breakpoint id =>
    refine (Ensures.of_keeps says_selecting.currentThread).bind fun thread => .bindGet fun w₀ h₀ => ?_
    rw [h₀.1]
    refine Ensures.of_left fun w hw => ⟨_, ⟨thread, rfl⟩, ?_⟩
    cases table.get? id <;> exact says_publish _ w hw
  | exception code firstChance => exact stopped fun thread => ⟨thread, rfl⟩
  | breakIn => exact stopped fun thread => ⟨thread, rfl⟩
  | threadCreated thread =>
    -- a thread that is known already is not announced again
    refine .bindGet fun w₀ _ => .ite (fun _ => ?_) fun _ => ?_
    · exact fun w hw => ⟨_, .inr rfl, hw.1.1, congrArg (· ++ _) hw.1.2⟩
    · exact .pure fun w hw => ⟨[], .inl rfl, hw.1.1, hw.1.2.trans (List.append_nil _).symm⟩
  | threadExited thread =>
    refine .bindGet fun w₀ _ => .ite (fun _ => ?_) fun _ => ?_
    · exact fun w hw => ⟨_, .inr rfl, hw.1.1, congrArg (· ++ _) hw.1.2⟩
    · exact .pure fun w hw => ⟨[], .inl rfl, hw.1.1, hw.1.2.trans (List.append_nil _).symm⟩
  | processExited exitCode => exact fun w hw => ⟨_, rfl, hw.1, congrArg (· ++ _) hw.2⟩
  | output text => exact fun w hw => ⟨_, rfl, says_publish _ w hw⟩

/-- The events are translated one after the other. -/
theorem ensures_translated (events : List NativeEvent) (told : List GatewayEvent) :
    Ensures (Says (σ := σ) table told) (forIn events PUnit.unit fun e _ => do
      translate e
      pure (ForInStep.yield PUnit.unit)) fun _ w =>
        ∃ parts : List (NativeEvent × List GatewayEvent), parts.map (·.1) = events ∧
          (∀ p ∈ parts, p.1.PublishedAs table p.2) ∧ w.Says table (told ++ parts.flatMap (·.2)) := by
  -- on the events, with what was told so far
  induction events generalizing told with
  | nil =>
    refine .pure fun w hw => ⟨[], rfl, fun p none => absurd none List.not_mem_nil, ?_⟩
    rwa [List.flatMap_nil, List.append_nil]
  | cons e events ih =>
    rw [List.forIn_cons]
    intro w hw
    obtain ⟨es, means, hw⟩ := ensures_translate e w hw
    obtain ⟨parts, same, all, hw⟩ := ih (told ++ es) _ hw
    refine ⟨(e, es) :: parts, by rw [List.map_cons, same], ?_, ?_⟩
    · intro p hp
      rcases List.mem_cons.1 hp with rfl | hp
      · exact means
      · exact all p hp
    · rwa [List.flatMap_cons, ← List.append_assoc]

/-! ## What is published besides -/

variable {events : List NativeEvent} {before : List GatewayEvent}

omit [Engine σ] in
/-- Publishing an event that is no hit keeps a report. -/
private theorem keeps_publish {e : GatewayEvent} (he : e.isBreakpointHit = false) :
    Keeps (fun w : Worker σ => table.Reports events before w.published) (publish e) :=
  .modify fun _ h => h.append he

/-- A report is kept by selections. -/
private theorem reports_selecting :
    SelectingFrame fun w : Worker σ => table.Reports events before w.published where
  call := fun _ _ h => h
  choose := fun _ _ h => h

/-- A report is kept by bringing the threads up to date. -/
private theorem reports_syncing :
    SyncFrame fun w : Worker σ => table.Reports events before w.published where
  call := fun _ _ h => h
  knownThreads := fun _ _ h => h
  publish := fun _ e he h => h.append (by cases e <;> first | rfl | cases he)
  retainGroups := by
    intro w keep h
    rw [retainGroups_eq]
    exact h

omit [Engine σ] in
/-- A stop that no event explains is told as no hit. -/
private theorem isBreakpointHit_unexplainedStop (resume : Option Resume) (thread : UInt32) :
    (unexplainedStop resume thread).isBreakpointHit = false := by
  unfold unexplainedStop
  split <;> rfl

/-- The events of a wait are published by the table that there is. -/
theorem ensures_report (table : BreakpointTable) (events : List NativeEvent)
    (before : List GatewayEvent) :
    Ensures (fun w : Worker σ => w.breakpoints = table ∧ w.published = before) (report events)
      fun _ w => table.Reports events before w.published := by
  refine Ensures.bind (R := fun _ w => table.Reports events before w.published) ?_ fun _ => ?_
  · -- the events are translated one after the other, and nothing else is told yet
    intro w hw
    obtain ⟨parts, same, all, -, published⟩ := ensures_translated events before w hw
    exact ⟨parts, [], published.trans (List.append_nil _).symm, same, all,
      fun e none => absurd none List.not_mem_nil⟩
  refine Ensures.of_keeps (reports_syncing.syncThreads.bind fun _ => ?_)
  refine reports_selecting.status.bind fun status => ?_
  -- the last step is taken in either case
  have settled : Keeps (fun w : Worker σ => table.Reports events before w.published)
      (if !status.isRunning then modify fun w => { w with resume := none } else pure ()) :=
    .ite (fun _ => .modify fun _ hw => hw) fun _ => .pure _
  refine .ite (fun _ => ?_) fun _ => ?_
  · refine Keeps.get.bind fun w => .ite (fun _ => ?_) fun _ => settled
    refine Keeps.bind (.modify fun _ hw => hw) fun _ => ?_
    exact (keeps_publish rfl).bind fun _ => settled
  · refine .ite (fun _ => ?_) fun _ => settled
    refine reports_selecting.currentThread.bind fun thread => Keeps.get.bind fun w => ?_
    exact (keeps_publish (isBreakpointHit_unexplainedStop _ _)).bind fun _ => settled

/-- Of the first stop of a debuggee, output is published only. -/
private theorem starting_says (told : List GatewayEvent) :
    StartingFrame fun w : Worker σ => ∃ texts : List String,
      w.published = told ++ texts.map .output where
  call := fun _ _ h => h
  output := by
    rintro w text ⟨texts, h⟩
    refine ⟨texts ++ [text], ?_⟩
    rw [h, List.map_append, List.append_assoc]
    rfl
  reset := fun _ h => h
  knownThreads := fun _ _ h => h
  process := fun _ _ h => h

end Worker

/-- What the engine thread publishes when a wait for a stop has returned and it is not to end. -/
theorem Gateway.reports_advance {σ : Type} [Engine σ] {g : Gateway σ} {events : List NativeEvent}
    (woken : g.phase = .woken .stop (.ok events)) (on : g.worker.cancelled = false) :
    g.worker.breakpoints.Reports events g.worker.published g.advance.worker.published := by
  have step : g.advance = (g.work (Worker.report events)).2.goto .ready := by
    simp only [advance, woken, wake, on, Bool.false_eq_true, if_false]
  rw [step]
  exact Worker.ensures_report _ events _ g.worker ⟨rfl, rfl⟩

/-- What the engine thread publishes when any other wait has returned. -/
theorem Gateway.published_advance_of_unreported {σ : Type} [Engine σ] {g : Gateway σ}
    {purpose : WaitPurpose} {answer : Except EngineError (List NativeEvent)}
    (woken : g.phase = .woken purpose answer)
    (unreported : purpose ≠ .stop ∨ g.worker.cancelled = true) :
    ∃ texts : List String, g.advance.worker.published = g.worker.published ++ texts.map .output := by
  have silent : ∀ {g' : Gateway σ}, g'.worker.published = g.worker.published →
      ∃ texts : List String, g'.worker.published = g.worker.published ++ texts.map .output :=
    fun same => ⟨[], same.trans (List.append_nil _).symm⟩
  simp only [advance, woken]
  -- the wait of a start publishes output, and that of a cancelled thread nothing
  cases purpose with
  | start ticket d =>
    exact (Worker.starting_says g.worker.published).finishStart d answer g.worker
      ⟨[], (List.append_nil _).symm⟩
  | stop =>
    have off : g.worker.cancelled = true := unreported.resolve_left fun h => h rfl
    cases answer with
    | error e => exact silent rfl
    | ok events =>
      refine silent ?_
      simp only [wake, off, if_true]
      rfl

end DebugAdapter
