import DebugAdapter.Proofs.ExecutionStatus
import DebugAdapter.Proofs.WaitReports

/-!
# Which stops are published

When a wait for a stop has returned, a stop is published for each breakpoint, exception and break among
its events, in their order. If there is none of these and no exit of the process, and the debuggee is
stopped then all the same, one more is published: a completed step if the debuggee was resumed by a step
since its last stop, a break otherwise.

How the debuggee was resumed is remembered by the worker over many commands and waits. What it should be
is put down on its own (`Gateway.marks`): a mark for each command that resumed the debuggee, and one for
each stop. The worker remembers what the last mark says.

## Key results

- `Worker.resume_execute`: a command is remembered if it has resumed the debuggee
- `Gateway.remembers_advance`: the worker remembers what the last mark says, after every step
- `Observed.run_tellsStops`: the stops that are published of a wait, whatever turns were taken
- `Observed.untold_stop_at_start`: a stop that is not published
-/

namespace DebugAdapter

/-- The event stops the debuggee and does not end it. -/
def NativeEvent.isHalt (e : NativeEvent) : Bool :=
  e.isStop && !e.isProcessExit

/-- What stops the debuggee halts it or is its exit. -/
theorem NativeEvent.isStop_eq (e : NativeEvent) : e.isStop = (e.isHalt || e.isProcessExit) := by
  cases e <;> rfl

/-- The stops that a wait should tell of: one for each native event that halts the debuggee, in their
order, and one more for a stop that no event accounts for. -/
structure TellsStops (table : BreakpointTable) (events : List NativeEvent) (status : ExecutionStatus)
    (how : Option Resume) (es : List GatewayEvent) : Prop where
  stops : ∃ (told : List GatewayEvent) (thread : UInt32),
    es.filter GatewayEvent.isStop = told ++
      (if events.any NativeEvent.isStop = false ∧ status = .stopped then
        [if how = some .stepped then .stepCompleted thread else .breakHit thread] else []) ∧
    List.Forall₂ (fun n e => n.PublishedAs table [e]) (events.filter NativeEvent.isHalt) told
  /-- Unless the process has exited, a debuggee that is stopped is not left unreported. -/
  reported : events.any NativeEvent.isProcessExit = false → status = .stopped →
    ∃ e ∈ es, e.isStop = true

/-! ## How the debuggee was resumed -/

/-- What counts for how the next stop is told. -/
inductive Mark
  | resumed (how : Resume)
  | stopped
  deriving DecidableEq, Repr

/-- How the debuggee was resumed, if it was not a stop. -/
def Mark.resume? : Mark → Option Resume
  | resumed how => some how
  | stopped => none

/-- How the debuggee was resumed last since its last stop. -/
def sinceStop (marks : List Mark) : Option Resume :=
  marks.getLast?.bind Mark.resume?

/-- Only the last mark counts. -/
@[simp] theorem sinceStop_append_singleton (marks : List Mark) (m : Mark) :
    sinceStop (marks ++ [m]) = m.resume? := by
  rw [sinceStop, List.getLast?_concat]
  rfl

variable {σ : Type} [Engine σ]

/-- How a command is to resume the debuggee, if it is. -/
def Command.resume? : Command → Option Resume
  | .continue => some .continued
  | .step .. => some .stepped
  | _ => none

/-- The command was carried out without an error. -/
def Worker.Outcome.succeeds : Worker.Outcome → Bool
  | .answered (.executed r) => r.isOk
  | _ => false

/-- The mark of a command: it has resumed the debuggee. -/
def Execution.mark? (e : Execution σ) : Option Mark :=
  if ((Worker.execute e.command).run e.worker).1.succeeds then e.command.resume?.map .resumed else none

/-- The marks of the next step of the engine thread. A debuggee that was started has stopped for the
first time, and after a wait that is reported the debuggee has stopped unless it runs. -/
def Gateway.marks (g : Gateway σ) : List Mark :=
  match g.phase with
  | .woken (.start _ _) (.ok _) => [.stopped]
  | .woken .stop (.ok events) =>
    if g.worker.cancelled || (g.worker.finalStatus events).isRunning then [] else [.stopped]
  | _ => g.executions.filterMap Execution.mark?

/-- The marks of turns. -/
def Observed.marks (o : Observed σ) (turns : List Turn) : List Mark :=
  o.recorded (fun g marks => marks ++ g.marks) [] turns

namespace Worker

/-! ## Commands -/

/-- Listing entities does not change how the debuggee was resumed. -/
private theorem resume_listing (how : Option Resume) : ListingFrame fun w : Worker σ => w.resume = how where
  call := fun _ _ h => h
  typeNames := fun _ _ h => h
  anyStore := fun _ _ _ h => h

/-- Looking into a group does not change how the debuggee was resumed. -/
private theorem resume_group (how : Option Resume) :
    GroupFrame (fun w : Worker σ => w.resume = how) fun _ _ w => w.resume = how :=
  (resume_listing how).storing.groupFrame (fun _ _ h => h) fun _ _ _ h => h

/-- Setting breakpoints does not change how the debuggee was resumed. -/
private theorem resume_breakpoint (how : Option Resume) :
    BreakpointFrame fun w : Worker σ => w.resume = how where
  call := fun _ _ h => h
  breakpointCall := fun _ _ h => h
  breakpoints := fun _ _ h => h

/-- Starting a debuggee does not change how the last one was resumed. -/
private theorem resume_starts {c : Command} (hc : c.starts = true) (how : Option Resume) :
    Keeps (fun w : Worker σ => w.resume = how) (execute c) := by
  have cleared := (resume_listing (σ := σ) how).clearStore
  have asked : ∀ m : EngineM σ Unit, Keeps (fun w : Worker σ => w.resume = how) (ask m) := fun _ _ h => h
  cases c with
  | launch r =>
    refine (cleared.bind fun _ => (asked _).bind fun answer => ?_).bind fun _ => .pure _
    cases answer <;> exact .pure _
  | attach r =>
    refine (cleared.bind fun _ => (asked _).bind fun answer => ?_).bind fun _ => .pure _
    cases answer <;> exact .pure _
  | _ => cases hc

/-- A call that resumes the debuggee is remembered if it succeeds. -/
private theorem ensures_resumeBy_resume (how : Option Resume) (kind : Resume)
    (failure : EngineError → ExecutionFailure) (m : EngineM σ Unit) :
    Ensures (fun w : Worker σ => w.resume = how) (resumeBy kind failure m) fun r w =>
      w.resume = if r.isOk then some kind else how := by
  refine (Ensures.of_keeps (resume_listing how).clearStore).bind fun _ => ?_
  refine Ensures.bind (R := fun _ w => w.resume = how) (fun _ h => h) fun answer => ?_
  cases answer with
  | error e => exact .pure fun _ h => h
  | ok u => exact fun _ _ => rfl

/-- A step that succeeds is remembered as one, and any other is forgotten. -/
private theorem ensures_step_resume (how : Option Resume) (kind : StepKind) (thread : Option UInt32) :
    Ensures (fun w : Worker σ => w.resume = how) (step kind thread) fun r w =>
      w.resume = if r.isOk then some .stepped else how := by
  have stepped := ensures_resumeBy_resume how .stepped .stepping (stepCall (σ := σ) kind)
  cases thread with
  | none => exact stepped
  | some id =>
    refine (Ensures.of_keeps ((resume_listing how).storing.adding.selectThread id)).bind fun r => ?_
    cases r with
    | error e => exact .pure fun _ h => h
    | ok a => exact stepped

/-- A termination does not change how the debuggee was resumed. -/
private theorem resume_terminate (w : Worker σ) : (terminate.run w).2.resume = w.resume := by
  rw [terminate_eq]

/-- A command is remembered if it has resumed the debuggee. -/
theorem resume_execute (ticket : Ticket) (c : Command) (w : Worker σ) :
    ((execute c).run w).2.resume =
      (Execution.mk ticket c w).mark?.elim w.resume Mark.resume? := by
  -- a command that is to resume nothing has no mark; one that is has a mark if it succeeds
  have unmarked : c.resume? = none → ((execute c).run w).2.resume = w.resume →
      ((execute c).run w).2.resume = (Execution.mk ticket c w).mark?.elim w.resume Mark.resume? := by
    intro none same
    rw [same, Execution.mark?, none]
    split <;> rfl
  have marked : ∀ {kind}, c.resume? = some kind → ((execute c).run w).2.resume =
      (if ((execute c).run w).1.succeeds then some kind else w.resume) →
      ((execute c).run w).2.resume = (Execution.mk ticket c w).mark?.elim w.resume Mark.resume? := by
    intro kind how same
    rw [same, Execution.mark?, how]
    dsimp only
    split <;> rfl
  -- only a continuation and a step have marks
  cases c with
  | «continue» => exact marked rfl (ensures_resumeBy_resume _ _ _ _ w rfl)
  | step kind thread => exact marked rfl (ensures_step_resume _ _ _ w rfl)
  | launch r => exact unmarked rfl (resume_starts rfl _ w rfl)
  | attach r => exact unmarked rfl (resume_starts rfl _ w rfl)
  | terminate => exact unmarked rfl (resume_terminate w)
  | _ =>
    exact unmarked rfl ((resume_listing w.resume).execute (resume_group w.resume)
      (resume_breakpoint w.resume).setBreakpoints rfl w rfl)

/-! ## First stops -/

/-- When a debuggee has stopped for the first time, nothing is remembered of those before. -/
theorem resume_finishStart (d : NewDebuggee) (events : List NativeEvent) (w : Worker σ) :
    ((finishStart d (.ok events)).run w).2.resume = none := by
  have forgotten : Ensures (fun _ : Worker σ => True) (finishStart d (.ok events))
      fun _ w => w.resume = none := by
    refine (Ensures.of_keeps (keeps_publishOutput (fun _ _ h => h) events)).bind fun _ => ?_
    -- here it is forgotten, and what follows keeps that
    refine Ensures.bind (R := fun _ w => w.resume = none) (fun _ _ => rfl) fun _ => ?_
    refine Ensures.of_keeps (((resume_listing none).ask? .threadIds).bind fun ids => ?_)
    refine Keeps.bind (.modify fun _ h => h) fun _ => ((resume_listing none).prepare d).bind fun result => ?_
    split
    · exact Keeps.bind (.modify fun _ h => h) fun _ => .pure _
    · exact .pure _
  exact forgotten w trivial

end Worker

/-! ## Steps and turns -/

omit [Engine σ] in
/-- A mark is the last one if there is one. -/
private theorem sinceStop_append_toList (marks : List Mark) (m : Option Mark) :
    sinceStop (marks ++ m.toList) = m.elim (sinceStop marks) Mark.resume? := by
  cases m with
  | none => exact congrArg sinceStop (List.append_nil marks)
  | some m => exact sinceStop_append_singleton marks m

namespace Gateway

variable {g : Gateway σ} {marks : List Mark}

/-- The worker remembers what the last mark says. -/
def Remembers (marks : List Mark) (g : Gateway σ) : Prop :=
  g.worker.resume = sinceStop marks

/-- Carrying out the first command of the queue, the gateway remembers its mark. -/
private theorem remembers_takeCommand (h : g.Remembers marks) : g.takeCommand.Remembers
    (marks ++ (firstExecution g.worker g.queue).filterMap Execution.mark?) := by
  unfold takeCommand Remembers
  cases g.queue with
  | nil =>
    rw [firstExecution, List.filterMap_nil, List.append_nil]
    dsimp only
    split <;> exact h
  | cons head rest =>
    obtain ⟨ticket, c⟩ := head
    have executed := Worker.resume_execute ticket c g.worker
    -- one command has at most one mark
    have marked : [Execution.mk ticket c g.worker].filterMap Execution.mark? =
        (Execution.mk ticket c g.worker).mark?.toList := by
      cases marked : (Execution.mk ticket c g.worker).mark? <;>
        simp only [List.filterMap_cons, List.filterMap_nil, marked, Option.toList]
    rw [firstExecution, marked, sinceStop_append_toList, ← show g.worker.resume = _ from h, ← executed]
    dsimp only [perform, work]
    generalize (Worker.execute c).run g.worker = result
    obtain ⟨outcome, w⟩ := result
    cases outcome <;> rfl

/-- What is carried out at the end resumes nothing. -/
private theorem marks_lastExecutions (l : List (Ticket × Command)) (w : Worker σ) :
    (lastExecutions w l).filterMap Execution.mark? = [] := by
  -- induction on the queue: of what is left there, only terminations are carried out
  induction l generalizing w with
  | nil => rfl
  | cons head l ih =>
    obtain ⟨ticket, c⟩ := head
    by_cases hc : c = .terminate
    · subst hc
      have unmarked : (Execution.mk ticket .terminate w).mark? = none := by
        unfold Execution.mark?
        split <;> rfl
      rw [lastExecutions, List.filterMap_cons, unmarked]
      exact ih _
    · rw [lastExecutions_of_ne hc]
      exact ih w

/-- Leaving the loop does not change how the debuggee was resumed. -/
private theorem resume_leave (g : Gateway σ) : g.leave.worker.resume = g.worker.resume := by
  -- leaving carries out commands to terminate only
  have last : ∀ (l : List (Ticket × Command)) (g : Gateway σ),
      (l.foldl performLast g).worker.resume = g.worker.resume := by
    intro l
    -- induction on the queue that is worked off
    induction l with
    | nil => exact fun _ => rfl
    | cons head l ih =>
      obtain ⟨ticket, c⟩ := head
      intro g
      rw [List.foldl_cons, ih]
      by_cases hc : c = .terminate
      · subst hc
        exact Worker.resume_terminate g.worker
      · rw [performLast_of_ne hc]
  rw [leave_eq]
  dsimp only [Worker.release]
  rw [Worker.clearGroups_eq]
  exact last g.queue { g with queue := [] }

omit [Engine σ] in
/-- Without a mark, what is remembered has to stay. -/
private theorem Remembers.same (h : g.Remembers marks) {g' : Gateway σ}
    (same : g'.worker.resume = g.worker.resume) : g'.Remembers (marks ++ []) := by
  rw [List.append_nil]
  exact same.trans h

/-- After a wait, the gateway remembers that the debuggee stands still, if it does. -/
private theorem remembers_wake (h : g.Remembers marks) {purpose : WaitPurpose}
    {answer : Except EngineError (List NativeEvent)} (woken : g.phase = .woken purpose answer) :
    g.advance.Remembers (marks ++ g.marks) := by
  -- a wait that failed leaves no mark
  cases answer with
  | error e =>
    have unmarked : g.marks = [] := by
      cases purpose <;> simp only [Gateway.marks, woken, executions, List.filterMap_nil]
    rw [unmarked]
    refine h.same ?_
    simp only [advance, woken]
    cases purpose <;> rfl
  | ok events =>
    cases purpose with
    | start ticket d =>
      -- the first stop of a debuggee is a mark of its own
      have one : g.marks = [.stopped] := by simp only [Gateway.marks, woken]
      rw [one, Remembers, sinceStop_append_singleton]
      simp only [advance, woken]
      exact Worker.resume_finishStart d events g.worker
    | stop =>
      cases on : g.worker.cancelled with
      -- a wait that was cancelled is not reported
      | true =>
        simp only [Gateway.marks, woken, on, Bool.true_or, if_true]
        refine h.same ?_
        simp only [advance, woken, wake, on, if_true]
        rfl
      | false =>
        have remembered := (reported_advance woken on).resume_eq
        simp only [Gateway.marks, woken, on, Bool.false_or]
        split
        · next runs => exact h.same (by rw [remembered, if_pos runs])
        · next halts =>
          rw [Remembers, sinceStop_append_singleton, remembered, if_neg halts]
          rfl

/-- After every step of the engine thread, the worker remembers what the last mark says. -/
theorem remembers_advance (h : g.Remembers marks) : g.advance.Remembers (marks ++ g.marks) := by
  -- whether to wait is looked up without a resume
  have wants : (g.work Worker.wantsWait).2.Remembers marks :=
    (Worker.resume_listing (sinceStop marks)).wantsWait g.worker h
  -- a mark is made where a command is carried out and where a wait ends, and nowhere else
  cases hp : g.phase with
  | woken purpose answer => exact remembers_wake h hp
  | ready =>
    simp only [advance, Gateway.marks, executions, hp]
    exact remembers_takeCommand wants
  | draining =>
    simp only [advance, Gateway.marks, executions, hp]
    split
    · exact h.same rfl
    · exact remembers_takeCommand h
  | leaving =>
    simp only [advance, Gateway.marks, executions, hp, marks_lastExecutions]
    exact h.same (resume_leave g)
  | looping =>
    simp only [advance, Gateway.marks, executions, hp, List.filterMap_nil]
    split
    · exact h.same rfl
    · exact wants.same rfl
  | entering purpose | waiting purpose =>
    simp only [advance, Gateway.marks, executions, hp, List.filterMap_nil]
    rw [poll_eq (g := g) rfl]
    exact h.same rfl
  | starting | finished =>
    simp only [advance, Gateway.marks, executions, hp, List.filterMap_nil]
    exact h.same rfl

/-- What callers do is not remembered. -/
theorem remembers_act (h : g.Remembers marks) {a : GatewayAction} (ha : a ≠ .advance) :
    (g.act a).Remembers marks := by
  have submitted : ∀ c, (g.submit c).2.Remembers marks := by
    intro c
    unfold submit
    split <;> exact h
  cases a with
  | submit c => exact submitted c
  | closeQueue => exact submitted .terminate
  | interrupt =>
    simp only [Gateway.act, interrupt]
    split <;> exact h
  | cancel | markDisposed | silence => exact h
  | advance => exact absurd rfl ha

end Gateway

/-! ## What is published -/

/-- An event that halts the debuggee is published as one stop, and any other as none. -/
private theorem stops_of_publishedAs {table : BreakpointTable} {n : NativeEvent}
    {es : List GatewayEvent} (h : n.PublishedAs table es) :
    if n.isHalt then ∃ e, es = [e] ∧ e.isStop = true else es.filter GatewayEvent.isStop = [] := by
  -- an event that halts is published as one stop, and any other as none
  cases n with
  | breakpoint id =>
    obtain ⟨thread, rfl⟩ := h
    refine ⟨_, rfl, ?_⟩
    cases table.get? id <;> rfl
  | exception code firstChance =>
    obtain ⟨thread, rfl⟩ := h
    exact ⟨_, rfl, rfl⟩
  | breakIn =>
    obtain ⟨thread, rfl⟩ := h
    exact ⟨_, rfl, rfl⟩
  | threadCreated thread | threadExited thread => rcases h with rfl | rfl <;> rfl
  | processExited exitCode | output text =>
    obtain rfl := h
    rfl

/-- The stops that are published for events are one for each event that halts the debuggee, in order. -/
private theorem stops_of_parts {table : BreakpointTable}
    (parts : List (NativeEvent × List GatewayEvent)) (all : ∀ p ∈ parts, p.1.PublishedAs table p.2) :
    List.Forall₂ (fun n e => n.PublishedAs table [e])
      ((parts.map (·.1)).filter NativeEvent.isHalt)
      ((parts.flatMap (·.2)).filter GatewayEvent.isStop) := by
  -- induction on the events: the first one gives one stop or none
  induction parts with
  | nil => exact .nil
  | cons p parts ih =>
    have rest := ih fun q mem => all q (List.mem_cons_of_mem _ mem)
    have first := all p List.mem_cons_self
    have stops := stops_of_publishedAs first
    rw [List.map_cons, List.filter_cons, List.flatMap_cons, List.filter_append]
    split at stops
    · next halts =>
      obtain ⟨e, same, stop⟩ := stops
      rw [if_pos halts, same, List.filter_cons_of_pos stop, List.filter_nil]
      exact .cons (same ▸ first) rest
    · next other =>
      rw [if_neg other, stops]
      exact rest


namespace Worker

/-- What is published last is a stop if the debuggee is stopped and no event has stopped it. -/
private theorem filter_lastPublished (w : Worker σ) (events : List NativeEvent) (thread : UInt32) :
    (w.lastPublished events thread).filter GatewayEvent.isStop =
      if events.any NativeEvent.isStop = false ∧ w.finalStatus events = .stopped then
        [if w.resume = some .stepped then .stepCompleted thread else .breakHit thread] else [] := by
  have unexplained : unexplainedStop w.resume thread =
      if w.resume = some .stepped then .stepCompleted thread else .breakHit thread := by
    unfold unexplainedStop
    cases w.resume with
    | none => rfl
    | some how => cases how <;> rfl
  have stop : (unexplainedStop w.resume thread).isStop = true := by
    rw [unexplained]
    split <;> rfl
  rw [lastPublished, ← unexplained]
  -- only a stop that nothing explains is published here
  cases status : w.finalStatus events <;> cases events.any NativeEvent.isStop
  case noDebuggee.false | noDebuggee.true =>
    cases w.exited || events.any NativeEvent.isProcessExit <;> rfl
  case stopped.false => exact List.filter_cons_of_pos stop
  all_goals rfl

/-- What a report publishes of stops. -/
theorem Reported.tellsStops {w₀ w : Worker σ} {events : List NativeEvent} (h : w₀.Reported events w) :
    ∃ es, w.published = w₀.published ++ es ∧
      TellsStops w₀.breakpoints events (w₀.finalStatus events) w₀.resume es := by
  obtain ⟨parts, compared, thread, same, all, ofThread, informed, published⟩ := h.published
  -- events of threads tell of no stop
  have quiet : compared.filter GatewayEvent.isStop = [] :=
    List.filter_eq_nil_iff.2 fun e mem => by
      rw [not_isStop_of_isOfThread (ofThread e mem)]
      exact Bool.false_ne_true
  -- the stops are those of the events, and perhaps the one without an event
  have told := stops_of_parts parts all
  rw [same] at told
  refine ⟨parts.flatMap (·.2) ++ compared ++ w₀.lastPublished events thread, ?_, ?_⟩
  · rw [published, informed, List.append_assoc, List.append_assoc, List.append_assoc]
  have stops : (parts.flatMap (·.2) ++ compared ++ w₀.lastPublished events thread).filter
      GatewayEvent.isStop = (parts.flatMap (·.2)).filter GatewayEvent.isStop ++
        (w₀.lastPublished events thread).filter GatewayEvent.isStop := by
    rw [List.filter_append, List.filter_append, quiet, List.append_nil]
  rw [filter_lastPublished] at stops
  refine ⟨⟨_, thread, stops, told⟩, fun alive stopped => ?_⟩
  -- an event that stops the debuggee halts it, as it is not an exit
  have some : (parts.flatMap (·.2) ++ compared ++ w₀.lastPublished events thread).filter
      GatewayEvent.isStop ≠ [] := by
    rw [stops]
    cases any : events.any NativeEvent.isStop with
    -- with no stop among the events, the one without an event is told
    | false =>
      rw [if_pos ⟨rfl, stopped⟩]
      exact List.append_ne_nil_of_right_ne_nil _ (List.cons_ne_nil _ _)
    | true =>
      obtain ⟨e, mem, stop⟩ := List.any_eq_true.1 any
      have halts : e.isHalt = true := by
        have other := List.any_eq_false.1 alive e mem
        rw [NativeEvent.isStop_eq, Bool.or_eq_true] at stop
        exact stop.resolve_right other
      have halting : events.filter NativeEvent.isHalt ≠ [] :=
        List.ne_nil_of_mem (List.mem_filter.2 ⟨mem, halts⟩)
      refine List.append_ne_nil_of_left_ne_nil (fun none => halting ?_) _
      exact List.length_eq_zero_iff.1 (told.length_eq.trans (List.length_eq_zero_iff.2 none))
  obtain ⟨e, mem⟩ := List.exists_mem_of_ne_nil _ some
  exact ⟨e, (List.mem_filter.1 mem).1, (List.mem_filter.1 mem).2⟩

end Worker

namespace Observed

/-- Whatever turns were taken before, of a wait for a stop that has returned, and is not cut off, the
stops are published that it should tell of. Of the first stop of a debuggee only output is published. -/
theorem run_tellsStops (engine : σ) (options : GatewayOptions) (turns : List Turn)
    {purpose : WaitPurpose} {events : List NativeEvent}
    (woken : ((new engine options).run turns).gateway.phase = .woken purpose (.ok events))
    (on : ((new engine options).run turns).gateway.worker.cancelled = false) :
    ∃ es, ((new engine options).run (turns ++ [.engine])).gateway.worker.published =
        ((new engine options).run turns).gateway.worker.published ++ es ∧
      if purpose = .stop then
        TellsStops ((new engine options).run turns).gateway.worker.breakpoints events
          (((new engine options).run turns).gateway.worker.finalStatus events)
          (sinceStop ((new engine options).marks turns)) es
      else ∃ texts : List String, es = texts.map .output := by
  have started : (new engine options).gateway.Remembers [] := rfl
  -- the kind of resume is that of the last resume since the last stop
  have remembers : ((new engine options).run turns).gateway.Remembers ((new engine options).marks turns) :=
    recorded_run (P := fun marks g => g.Remembers marks) Gateway.remembers_advance
      (fun h _ ha => Gateway.remembers_act h ha) started (fun _ mem => absurd mem List.not_mem_nil) turns
  rw [run_append]
  -- a wait that belongs to a start has its output published only
  by_cases stop : purpose = .stop
  · subst stop
    rw [← show _ = sinceStop _ from remembers]
    exact (Gateway.reported_advance woken on).tellsStops
  · obtain ⟨texts, published⟩ := Gateway.published_advance_of_unreported woken (.inl stop)
    refine ⟨_, published, ?_⟩
    rw [if_neg stop]
    exact ⟨texts, rfl⟩

/-- A debuggee that stops twice, where no native event says so. -/
def stopsSilently : Scripted.World where
  stops := [{}, { events := [.output "x"] }]

/-- The debuggee is launched and resumed, and makes a step when it has stopped. -/
def steppedAtStop : List Turn :=
  [.call (.submit (.launch ⟨"app", "app", [], []⟩)), .call (.submit .continue)] ++
    List.replicate 11 .engine ++ [.call (.submit (.step .over none))] ++ List.replicate 5 .engine

/-- The second stop is told as a completed step, which the first was not. -/
theorem run_tellsStops_steppedAtStop :
    let o := (new stopsSilently {}).run steppedAtStop
    o.gateway.phase.woken? = some (.stop, [.output "x"]) ∧
    o.gateway.worker.published = [.breakHit 1] ∧
    sinceStop ((new stopsSilently {}).marks steppedAtStop) = some .stepped ∧
    ∃ es, ((new stopsSilently {}).run (steppedAtStop ++ [.engine])).gateway.worker.published =
        [.breakHit 1] ++ es ∧ TellsStops {} [.output "x"] .stopped (some .stepped) es := by
  have woken : ((new stopsSilently {}).run steppedAtStop).gateway.phase.woken? =
      some (.stop, [.output "x"]) := by decide +kernel
  have before : ((new stopsSilently {}).run steppedAtStop).gateway.worker.published = [.breakHit 1] := by
    decide +kernel
  -- the last resume was a step, so the stop without an event is told as one
  have marks : sinceStop ((new stopsSilently {}).marks steppedAtStop) = some .stepped := by
    decide +kernel
  have status : ((new stopsSilently {}).run steppedAtStop).gateway.worker.finalStatus [.output "x"] =
      .stopped := by decide +kernel
  have table : ((new stopsSilently {}).run steppedAtStop).gateway.worker.breakpoints = {} := by
    decide +kernel
  refine ⟨woken, before, marks, ?_⟩
  have told := run_tellsStops stopsSilently {} steppedAtStop (Phase.eq_of_woken? woken) (by decide +kernel)
  rwa [before, marks, status, table] at told

/-- A debuggee whose first stop is a break. -/
def breaksAtStart : Observed Scripted.World :=
  (new { initial := [.breakIn] } {}).run
    ([.call (.submit (.launch ⟨"app", "app", [], []⟩))] ++ List.replicate 4 .engine)

/-- Of the first stop of a debuggee no stop is published, whatever the events are. -/
theorem untold_stop_at_start :
    breaksAtStart.gateway.phase.woken? =
      some (.start 0 ⟨some "app", [], []⟩, [.breakIn]) ∧
    breaksAtStart.gateway.worker.cancelled = false ∧
    ∀ es, (breaksAtStart.take .engine).gateway.worker.published =
        breaksAtStart.gateway.worker.published ++ es →
      ∀ table status how, ¬TellsStops table [.breakIn] status how es := by
  refine ⟨by decide +kernel, by decide +kernel, fun es published table status how tells => ?_⟩
  have before : breaksAtStart.gateway.worker.published = [] := by decide +kernel
  have after : (breaksAtStart.take .engine).gateway.worker.published = [] := by decide +kernel
  have none : es = [] := by rw [← published.symm.trans after, before, List.nil_append]
  obtain ⟨told, thread, stops, tells⟩ := tells.stops
  rw [none, List.filter_nil] at stops
  rw [(List.append_eq_nil_iff.1 stops.symm).1] at tells
  cases tells

end Observed

end DebugAdapter
