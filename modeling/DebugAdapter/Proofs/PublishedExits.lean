import DebugAdapter.Proofs.WaitReports
import DebugAdapter.Scripted.Gateway

/-!
# Which exits are published

That the debuggee has exited is learned from a native event, or from the status that is read when the
events of a wait are published. A status that cannot be read counts as no debuggee, so it is published
as an exit as well.

With an event of an exit among those of a wait, all threads are taken back that were known or were
announced by then.

## Key results

- `Worker.Reported.tellsExits`: the exits that are published of a report
- `Worker.gone_informed`: no thread stays known after an event of an exit
- `Gateway.tellsExits_advance`: the exits that are published of any wait, in any state
- `Observed.exit_of_unreadable_status`: an exit that is published as the status cannot be read
-/

namespace DebugAdapter

/-- The exit code that an event tells of. -/
def NativeEvent.exitCode? : NativeEvent → Option UInt32
  | processExited exitCode => some exitCode
  | _ => none

/-- The exit code that an event tells of. -/
def GatewayEvent.exitCode? : GatewayEvent → Option UInt32
  | processExited exitCode => some exitCode
  | _ => none

/-- A published event has an exit code exactly if it is an exit with that code. -/
theorem GatewayEvent.exitCode?_eq_some_iff {e : GatewayEvent} {code : UInt32} :
    e.exitCode? = some code ↔ e = .processExited code := by
  cases e <;> simp [exitCode?]

/-- An event has an exit code exactly if it is an exit with that code. -/
theorem NativeEvent.exitCode?_eq_some_iff {e : NativeEvent} {code : UInt32} :
    e.exitCode? = some code ↔ e = .processExited code := by
  cases e <;> simp [exitCode?]

variable {σ : Type} [Engine σ]

/-- What a wait for a stop should tell of exits, and what should become of the threads. -/
structure TellsExits (w₀ : Worker σ) (events : List NativeEvent) (w : Worker σ)
    (es : List GatewayEvent) : Prop where
  /-- Each exit among the events is published. One more is if the status says that there is no debuggee,
  and it was not published before that it has exited. -/
  codes : es.filterMap GatewayEvent.exitCode? = events.filterMap NativeEvent.exitCode? ++
    if w₀.finalStatus events = .noDebuggee ∧ w₀.exited = false ∧
      events.filterMap NativeEvent.exitCode? = [] then [0] else []
  /-- An exit comes of an event, or of a status that is no debuggee or cannot be read. -/
  cause : ∀ code, .processExited code ∈ es → .processExited code ∈ events ∨
    w₀.statusAnswer events = .ok .noDebuggee ∨ ∃ e, w₀.statusAnswer events = .error e
  /-- After an event of an exit no thread stays known, and those that were are taken back. -/
  threads : (∃ code, .processExited code ∈ events) → w.knownThreads = [] ∧
    ∀ thread, thread ∈ w₀.knownThreads ∨ .threadCreated thread ∈ events →
      .threadExited thread ∈ es

/-! ## Exits -/

/-- An event is published with its exit code, if it has one. -/
private theorem exits_of_publishedAs {table : BreakpointTable} {n : NativeEvent}
    {es : List GatewayEvent} (h : n.PublishedAs table es) :
    es.filterMap GatewayEvent.exitCode? = n.exitCode?.toList := by
  -- only the event of an exit has a code
  cases n with
  | breakpoint id =>
    obtain ⟨thread, rfl⟩ := h
    cases table.get? id <;> rfl
  | exception code firstChance =>
    obtain ⟨thread, rfl⟩ := h
    rfl
  | breakIn =>
    obtain ⟨thread, rfl⟩ := h
    rfl
  | threadCreated thread | threadExited thread => rcases h with rfl | rfl <;> rfl
  | processExited exitCode | output text =>
    obtain rfl := h
    rfl

/-- The exits that are published for events are the exits among them, in order. -/
private theorem exits_of_parts {table : BreakpointTable}
    (parts : List (NativeEvent × List GatewayEvent)) (all : ∀ p ∈ parts, p.1.PublishedAs table p.2) :
    (parts.flatMap (·.2)).filterMap GatewayEvent.exitCode? =
      (parts.map (·.1)).filterMap NativeEvent.exitCode? := by
  induction parts with
  | nil => rfl
  | cons p parts ih =>
    rw [List.flatMap_cons, List.filterMap_append, ih fun q mem => all q (List.mem_cons_of_mem _ mem),
      exits_of_publishedAs (all p List.mem_cons_self), List.map_cons, List.filterMap_cons]
    cases p.1.exitCode? <;> rfl

/-- There are no exit codes exactly if there is no exit. -/
private theorem filterMap_exitCode?_eq_nil_iff (events : List NativeEvent) :
    events.filterMap NativeEvent.exitCode? = [] ↔ events.any NativeEvent.isProcessExit = false := by
  rw [List.filterMap_eq_nil_iff, List.any_eq_false]
  refine forall₂_congr fun e _ => ?_
  cases e <;> simp [NativeEvent.exitCode?, NativeEvent.isProcessExit]

namespace Worker

/-- Behind the events an exit is published only if none was, and there is no debuggee any more. -/
private theorem exits_lastPublished (w : Worker σ) (events : List NativeEvent) (thread : UInt32) :
    (w.lastPublished events thread).filterMap GatewayEvent.exitCode? =
      if w.finalStatus events = .noDebuggee ∧ w.exited = false ∧
        events.filterMap NativeEvent.exitCode? = [] then [0] else [] := by
  -- a stop tells of no exit
  have unexplained : (unexplainedStop w.resume thread).exitCode? = none := by
    unfold unexplainedStop
    split <;> rfl
  simp only [filterMap_exitCode?_eq_nil_iff]
  rw [lastPublished]
  split
  · next gone =>
    simp only [gone, true_and]
    cases w.exited <;> cases events.any NativeEvent.isProcessExit <;> rfl
  · next there =>
    simp only [there, false_and, if_false]
    split
    · rfl
    · rw [List.filterMap_cons, unexplained]
      rfl

/-! ## Threads -/

/-- Since `before` was published, a thread is known or was taken back, unless that is still to come. -/
private def Accounts (before : List GatewayEvent) (thread : UInt32) (due : Prop) (w : Worker σ) : Prop :=
  ∃ es, w.published = before ++ es ∧ (due ∨ thread ∈ w.knownThreads ∨ .threadExited thread ∈ es)

variable {before : List GatewayEvent} {thread : UInt32} {due : Prop}

/-- A thread that is accounted for stays so while events are published. -/
private theorem accounts_reporting : ReportingFrame (Accounts (σ := σ) before thread due) where
  call := fun _ _ h => h
  choose := fun _ _ h => h
  publish := by
    rintro w e - - ⟨es, published, there⟩
    refine ⟨es ++ [e], by rw [published, List.append_assoc], there.imp_right ?_⟩
    exact Or.imp_right fun mem => List.mem_append_left _ mem
  exited := fun _ h => h
  resume := fun _ h => h

omit [Engine σ] in
/-- A thread stays accounted for when another one starts. -/
private theorem accounts_threadStarted (other : UInt32) :
    Keeps (Accounts (σ := σ) before thread due) (threadStarted other) := by
  refine Keeps.of_ensures (.bindGet fun w₀ _ => .ite (fun _ => ?_) fun _ => .pure fun _ h => h.1)
  rintro w ⟨⟨es, published, there⟩, -⟩
  refine ⟨es ++ [.threadStarted other], ?_, there.imp_right (Or.imp ?_ ?_)⟩
  · rw [← List.append_assoc, ← published]
    rfl
  · exact fun mem => List.mem_append_left _ mem
  · exact fun mem => List.mem_append_left _ mem

omit [Engine σ] in
/-- A thread that has started is known. -/
private theorem accounts_started :
    Ensures (Accounts (σ := σ) before thread due) (threadStarted thread) fun _ =>
      Accounts before thread False := by
  refine .bindGet fun w₀ _ => .ite (fun _ => ?_) fun known => .pure ?_
  · rintro w ⟨⟨es, published, -⟩, -⟩
    refine ⟨es ++ [.threadStarted thread], ?_, .inr (.inl ?_)⟩
    · rw [← List.append_assoc, ← published]
      rfl
    · exact List.mem_append_right _ (List.mem_singleton_self _)
  · rintro w ⟨⟨es, published, -⟩, rfl⟩
    exact ⟨es, published, .inr (.inl (by simpa using known))⟩

omit [Engine σ] in
/-- A thread that has ended is taken back. -/
private theorem accounts_threadExited (other : UInt32) :
    Keeps (Accounts (σ := σ) before thread due) (threadExited other) := by
  refine Keeps.of_ensures (.bindGet fun w₀ _ => .ite (fun _ => ?_) fun _ => .pure fun _ h => h.1)
  rintro w ⟨⟨es, published, there⟩, -⟩
  refine ⟨es ++ [.threadExited other], ?_, there.imp_right ?_⟩
  · rw [← List.append_assoc, ← published]
    rfl
  · rintro (known | mem)
    · by_cases same : thread = other
      · exact .inr (List.mem_append_right _ (same ▸ List.mem_singleton_self _))
      · exact .inl ((List.mem_erase_of_ne same).2 known)
    · exact .inr (List.mem_append_left _ mem)

/-- When the events are published, a thread that was known before or has started among them is known, or
was taken back. -/
private theorem accounts_translated (events : List NativeEvent) :
    Ensures (Accounts (σ := σ) before thread (.threadCreated thread ∈ events))
      (forIn events PUnit.unit fun e _ => do
        translate e
        pure (ForInStep.yield PUnit.unit)) fun _ => Accounts before thread False := by
  -- induction on the events: a start that is still due comes first or later
  induction events with
  | nil =>
    refine .pure fun w h => ?_
    obtain ⟨es, published, there⟩ := h
    exact ⟨es, published, there.imp_left fun mem => absurd mem List.not_mem_nil⟩
  | cons e events ih =>
    rw [List.forIn_cons]
    have first : Ensures (Accounts (σ := σ) before thread (.threadCreated thread ∈ e :: events))
        (translate e) fun _ => Accounts before thread (.threadCreated thread ∈ events) := by
      by_cases start : e = .threadCreated thread
      · subst start
        refine accounts_started.mono (fun _ h => h) fun _ w h => ?_
        obtain ⟨es, published, there⟩ := h
        exact ⟨es, published, there.imp_left False.elim⟩
      · -- any other event leaves the start due
        have rest : .threadCreated thread ∈ e :: events → .threadCreated thread ∈ events :=
          fun mem => (List.mem_cons.1 mem).resolve_left fun same => start same.symm
        refine (Ensures.of_keeps (accounts_reporting.translate accounts_threadStarted
          accounts_threadExited e)).mono (fun w h => ?_) fun _ _ h => h
        obtain ⟨es, published, there⟩ := h
        exact ⟨es, published, there.imp_left rest⟩
    exact fun w h => ih _ (first w h)

/-- After an event of an exit no thread stays known, and those that were are taken back. -/
theorem gone_informed (w : Worker σ) {events : List NativeEvent}
    (exit : events.any NativeEvent.isProcessExit = true) :
    (w.informed events).knownThreads = [] ∧
    ∀ thread, thread ∈ w.knownThreads ∨ .threadCreated thread ∈ events →
      ∃ es, (w.informed events).published = w.published ++ es ∧ .threadExited thread ∈ es := by
  have exited := (ensures_translated_exited w.resume events w.exited w ⟨rfl, rfl⟩).2
  rw [exit, Bool.or_true] at exited
  have accounts : ∀ thread, thread ∈ w.knownThreads ∨ .threadCreated thread ∈ events →
      Accounts w.published thread False _ := fun thread there =>
    accounts_translated events w ⟨[], (List.append_nil _).symm, there.symm.imp_right .inl⟩
  have informed : w.informed events = (syncThreads.run (((forIn events PUnit.unit fun e _ => do
    translate e
    pure (ForInStep.yield PUnit.unit)) : WorkerM σ PUnit).run w).2).2 := rfl
  generalize (((forIn events PUnit.unit fun e _ => do
    translate e
    pure (ForInStep.yield PUnit.unit)) : WorkerM σ PUnit).run w).2 = w' at exited accounts informed
  -- once the debuggee has exited, an exit is published for every thread that is known
  rw [syncThreads_eq, if_pos exited] at informed
  rw [informed]
  refine ⟨rfl, fun thread there => ?_⟩
  obtain ⟨es, published, account⟩ := accounts thread there
  refine ⟨es ++ w'.knownThreads.map .threadExited, ?_, List.mem_append.2 ?_⟩
  · rw [published, List.append_assoc]
  · -- nothing is due any more; the thread is known still, or its exit was told
    obtain due | known | mem := account
    · exact due.elim
    · exact .inr (List.mem_map.2 ⟨thread, known, rfl⟩)
    · exact .inl mem

/-- What a report publishes of exits. -/
theorem Reported.tellsExits {w₀ w : Worker σ} {events : List NativeEvent} (h : w₀.Reported events w) :
    ∃ es, w.published = w₀.published ++ es ∧ TellsExits w₀ events w es := by
  obtain ⟨parts, compared, thread, same, all, ofThread, informed, published⟩ := h.published
  -- events of threads tell of no exit of the debuggee
  have quiet : compared.filterMap GatewayEvent.exitCode? = [] :=
    List.filterMap_eq_nil_iff.2 fun e mem => by
      have ofThread := ofThread e mem
      cases e <;> first | rfl | cases ofThread
  -- so the codes are those of the events, and the one for a debuggee that is gone without any
  have codes : (parts.flatMap (·.2) ++ compared ++ w₀.lastPublished events thread).filterMap
      GatewayEvent.exitCode? = events.filterMap NativeEvent.exitCode? ++
        if w₀.finalStatus events = .noDebuggee ∧ w₀.exited = false ∧
          events.filterMap NativeEvent.exitCode? = [] then [0] else [] := by
    rw [List.filterMap_append, List.filterMap_append, quiet, List.append_nil, exits_of_parts parts all,
      same, exits_lastPublished]
  refine ⟨parts.flatMap (·.2) ++ compared ++ w₀.lastPublished events thread, ?_, codes, ?_, ?_⟩
  · rw [published, informed]
    simp only [List.append_assoc]
  · intro code mem
    -- a code that was published is that of a native event, or stands for a debuggee that is gone
    have told := List.mem_filterMap.2 ⟨_, mem, GatewayEvent.exitCode?_eq_some_iff.2 rfl⟩
    rw [codes, List.mem_append] at told
    refine told.imp (fun mem => ?_) fun mem => ?_
    · obtain ⟨e, mem, tells⟩ := List.mem_filterMap.1 mem
      exact NativeEvent.exitCode?_eq_some_iff.1 tells ▸ mem
    · split at mem
      · next gone =>
        have final := gone.1
        rw [finalStatus] at final
        cases answer : w₀.statusAnswer events with
        | ok status =>
          rw [answer] at final
          exact .inl (congrArg Except.ok final)
        | error e => exact .inr ⟨e, rfl⟩
      · cases mem
  · -- an event of an exit leaves no thread known, and accounts for each that was
    rintro ⟨code, mem⟩
    obtain ⟨unknown, accounts⟩ := w₀.gone_informed (List.any_eq_true.2 ⟨_, mem, rfl⟩)
    refine ⟨h.knownThreads_eq.trans unknown, fun thread there => ?_⟩
    obtain ⟨es, told, mem⟩ := accounts thread there
    rw [informed, List.append_assoc] at told
    rw [List.append_cancel_left told]
    exact List.mem_append_left _ mem

end Worker

/-- In whatever state the engine thread is when a wait has returned: of a wait for a stop, an exit is
published only if an event tells of it, or if the status that is read then says that there is no
debuggee, or cannot be read. After an event of an exit no thread stays known, and all that were are taken
back. Of any other wait no exit is published. -/
theorem Gateway.tellsExits_advance {g : Gateway σ} {purpose : WaitPurpose}
    {answer : Except EngineError (List NativeEvent)} (woken : g.phase = .woken purpose answer) :
    ∃ es, g.advance.worker.published = g.worker.published ++ es ∧
      if purpose = .stop ∧ g.worker.cancelled = false then
        (∀ events, answer = .ok events → TellsExits g.worker events g.advance.worker es) ∧
        (∀ e, answer = .error e → es = [])
      else ∃ texts : List String, es = texts.map .output := by
  -- only a wait for a stop that was not cancelled is reported
  by_cases reported : purpose = .stop ∧ g.worker.cancelled = false
  · simp only [if_pos reported]
    obtain ⟨rfl, on⟩ := reported
    cases answer with
    | ok events =>
      obtain ⟨es, published, tells⟩ := (reported_advance woken on).tellsExits
      refine ⟨es, published, fun _ same => ?_, nofun⟩
      cases same
      exact tells
    | error e =>
      refine ⟨[], (published_advance_of_failed woken).trans (List.append_nil _).symm, nofun, ?_⟩
      exact fun _ _ => rfl
  · simp only [if_neg reported]
    have unreported : purpose ≠ .stop ∨ g.worker.cancelled = true := by
      rwa [not_and_or, Bool.not_eq_false] at reported
    -- any other wait has only its output published
    obtain ⟨texts, published⟩ := published_advance_of_unreported woken unreported
    exact ⟨_, published, texts, rfl⟩

namespace Observed

/-- A debuggee that ends while two of its threads run, one of which is new. -/
def endsWithThreads : Scripted.World where
  stops := [{ events := [.threadCreated 2, .processExited 3] }]

/-- The debuggee is launched and resumed. -/
def resumedOnce (engine : Scripted.World) : Observed Scripted.World :=
  (new engine {}).run ([.call (.submit (.launch ⟨"app", "app", [], []⟩)), .call (.submit .continue)] ++
    List.replicate 9 .engine)

end Observed

/-- Both threads are taken back with the exit. -/
theorem Gateway.tellsExits_advance_endsWithThreads :
    let g := (Observed.resumedOnce Observed.endsWithThreads).gateway
    g.phase.woken? = some (.stop, [.threadCreated 2, .processExited 3]) ∧
    g.worker.knownThreads = [1] ∧
    ∃ es, g.advance.worker.published = [] ++ es ∧
      TellsExits g.worker [.threadCreated 2, .processExited 3] g.advance.worker es := by
  have woken : (Observed.resumedOnce Observed.endsWithThreads).gateway.phase.woken? =
      some (.stop, [.threadCreated 2, .processExited 3]) := by decide +kernel
  have on : (Observed.resumedOnce Observed.endsWithThreads).gateway.worker.cancelled = false := by
    decide +kernel
  have before : (Observed.resumedOnce Observed.endsWithThreads).gateway.worker.published = [] := by
    decide +kernel
  obtain ⟨es, published, told⟩ := tellsExits_advance (Phase.eq_of_woken? woken)
  rw [before] at published
  rw [if_pos ⟨rfl, on⟩] at told
  exact ⟨woken, by decide +kernel, es, published, told.1 _ rfl⟩

namespace Observed

/-- The debuggee stops, and then its status cannot be read. -/
def stopsUnreadable : Gateway Scripted.World :=
  Scripted.patch { failures := some [("execution_status", .status .fail)] }
    (resumedOnce { stops := [{ events := [.breakIn] }] }).gateway

/-- An exit is published where the engine has reported none and its status is not that there is no
debuggee. The thread stays known. -/
theorem exit_of_unreadable_status :
    stopsUnreadable.phase.woken? = some (.stop, [.breakIn]) ∧
    stopsUnreadable.worker.statusAnswer [.breakIn] = .error (.status .fail) ∧
    stopsUnreadable.engine.status = .stopped ∧
    stopsUnreadable.advance.worker.published =
      stopsUnreadable.worker.published ++ [.breakHit 1, .processExited 0] ∧
    stopsUnreadable.advance.worker.knownThreads = [1] := by
  refine ⟨?_, ?_, ?_, ?_, ?_⟩
  · decide +kernel
  · rfl
  · decide +kernel
  · decide +kernel
  · decide +kernel

end Observed

end DebugAdapter
