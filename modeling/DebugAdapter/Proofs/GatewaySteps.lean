import DebugAdapter.Proofs.CommandFrame

/-!
# Steps of the engine thread

What one step of the engine thread can do, said once: it begins, does quiet work, gives the answer that
the start of a debuggee has waited for, carries out the oldest command, gives up an empty queue that is
closed, decides to leave, or leaves. What is true of all steps is proved by these cases.

## Key results

- `Gateway.advance_spec`: a step is one of these, and carries out what `Gateway.executions` says
- `Gateway.leave_eq`: what the engine thread changes when it leaves
- `Gateway.moves_advance`: from which phase to which a step goes
-/

namespace DebugAdapter

variable {σ : Type}

/-- A command, and the worker that is about to carry it out. -/
structure Execution (σ : Type) where
  ticket : Ticket
  command : Command
  worker : Worker σ

/-- The command without the worker. -/
def Execution.entry (e : Execution σ) : Ticket × Command :=
  (e.ticket, e.command)

/-- The start of a debuggee that a phase is a part of: the command for it, and the debuggee. -/
def Phase.starting? : Phase → Option (Ticket × NewDebuggee)
  | entering (.start ticket d) | waiting (.start ticket d) | woken (.start ticket d) _ =>
    some (ticket, d)
  | _ => none

/-- The phase after a native wait was asked for its answer. -/
def Phase.afterWait (purpose : WaitPurpose) :
    Option (Except EngineError (List NativeEvent)) → Phase
  | none => waiting purpose
  | some answer => woken purpose answer

/-- A wait does not end the work of the engine thread. -/
theorem Phase.afterWait_ne (purpose : WaitPurpose)
    (answer : Option (Except EngineError (List NativeEvent))) :
    afterWait purpose answer ≠ .leaving ∧ afterWait purpose answer ≠ .finished := by
  cases answer <;> exact ⟨nofun, nofun⟩

/-- What is being started stays the same through a wait. -/
theorem Phase.starting?_afterWait {phase : Phase} {purpose : WaitPurpose}
    (h : phase = .entering purpose ∨ phase = .waiting purpose)
    (answer : Option (Except EngineError (List NativeEvent))) :
    (afterWait purpose answer).starting? = phase.starting? := by
  rcases h with rfl | rfl <;> cases answer <;> cases purpose <;> rfl

variable [Engine σ]

/-- A worker that has asked the native wait for its answer. -/
def Worker.awaited (w : Worker σ) : Worker σ :=
  w.onEngine fun engine => (Engine.waitForEvent.run engine).2

/-- Work that keeps all that the changes of a worker keep, but for those of the list of threads and of
the breakpoints. -/
def Worker.Quiet (w w' : Worker σ) : Prop :=
  ∀ I, Worker.Frame I → I w → I w'

/-- Doing nothing is quiet. -/
theorem Worker.Quiet.refl (w : Worker σ) : w.Quiet w :=
  fun _ _ h => h

/-- The end of a start is quiet. -/
theorem Worker.quiet_finishStart (d : NewDebuggee)
    (answer : Except EngineError (List NativeEvent)) (w : Worker σ) :
    w.Quiet ((Worker.finishStart d answer).run w).2 :=
  fun _ F h => F.finishStart d answer w h

/-- A native wait is quiet. -/
theorem Worker.quiet_awaited (w : Worker σ) : w.Quiet w.awaited :=
  fun _ F h => F.wait _ h

namespace Gateway

/-- Leaving, the engine thread changes nothing of a command that is not to terminate. -/
theorem performLast_of_ne {c : Command} (hc : c ≠ .terminate) (ticket : Ticket) (g : Gateway σ) :
    g.performLast (ticket, c) = g := by
  unfold performLast
  split
  · next e => exact absurd (Prod.mk.inj e).2 hc
  · rfl

/-- The last commands change nothing but the worker and the answers. -/
theorem foldl_performLast_eq (l : List (Ticket × Command)) (g : Gateway σ) :
    l.foldl performLast g =
      { g with
        worker := (l.foldl performLast g).worker
        answers := (l.foldl performLast g).answers } := by
  induction l generalizing g with
  | nil => rfl
  | cons head rest ih =>
    obtain ⟨ticket, c⟩ := head
    rw [List.foldl_cons]
    by_cases hc : c = .terminate
    · subst hc
      exact ih _
    · rw [performLast_of_ne hc]
      exact ih g

/-- What the engine thread does to leave. -/
theorem leave_eq (g : Gateway σ) :
    g.leave =
      { g with
        worker := (g.queue.foldl performLast { g with queue := [] }).worker.release
        answers := (g.queue.foldl performLast { g with queue := [] }).answers
        queue := []
        phase := .finished } := by
  unfold leave
  dsimp only
  rw [foldl_performLast_eq]
  rfl

/-- The commands that are carried out when the engine thread leaves: those to terminate. -/
def lastExecutions (w : Worker σ) : List (Ticket × Command) → List (Execution σ)
  | [] => []
  | (ticket, .terminate) :: rest =>
    ⟨ticket, .terminate, w⟩ :: lastExecutions (Worker.terminate.run w).2 rest
  | _ :: rest => lastExecutions w rest

/-- At the end, a command that does not terminate the debuggee is not executed. -/
theorem lastExecutions_of_ne {c : Command} (hc : c ≠ .terminate) (ticket : Ticket) (w : Worker σ)
    (rest : List (Ticket × Command)) :
    lastExecutions w ((ticket, c) :: rest) = lastExecutions w rest := by
  cases c <;> first | exact absurd rfl hc | rfl

/-- The oldest command of a queue, carried out by a worker. -/
def firstExecution (w : Worker σ) : List (Ticket × Command) → List (Execution σ)
  | (ticket, c) :: _ => [⟨ticket, c, w⟩]
  | [] => []

/-- The commands that the next step of the engine thread carries out. -/
def executions (g : Gateway σ) : List (Execution σ) :=
  match g.phase with
  | .ready => firstExecution (g.work Worker.wantsWait).2.worker g.queue
  | .draining => if g.worker.cancelled then [] else firstExecution g.worker g.queue
  | .leaving => lastExecutions g.worker g.queue
  | _ => []

/-- A step of the engine thread, with the commands it carries out. -/
inductive Advance (g : Gateway σ) : List (Execution σ) → Gateway σ → Prop
  /-- The engine was made, and its breakpoints are removed. -/
  | begin (phase : g.phase = .starting) :
      Advance g [] ({ g with
        worker := ((Worker.ask Engine.clearBreakpoints).run g.worker).2 }.goto .looping)
  /-- Nothing is taken from the queue and nobody gets an answer. -/
  | work {w : Worker σ} {phase : Phase} (quiet : g.worker.Quiet w)
      (idle : g.phase.starting? = none ∧ phase.starting? = none)
      (off : g.phase ≠ .leaving ∧ g.phase ≠ .finished) (on : phase ≠ .leaving ∧ phase ≠ .finished) :
      Advance g [] ({ g with worker := w }.goto phase)
  /-- A native wait is asked for its answer. -/
  | wait {purpose : WaitPurpose}
      (phase : g.phase = .entering purpose ∨ g.phase = .waiting purpose) :
      Advance g [] ({ g with worker := g.worker.awaited }.goto
        (.afterWait purpose (Engine.waitForEvent.run g.engine).1))
  /-- The start of a debuggee gets its answer. -/
  | finishStart {ticket : Ticket} {d : NewDebuggee}
      {answer : Except EngineError (List NativeEvent)}
      (phase : g.phase = .woken (.start ticket d) answer) :
      Advance g [] (({ g with worker := ((Worker.finishStart d answer).run g.worker).2 }.reply ticket
        (.launched ((Worker.finishStart d answer).run g.worker).1)).goto .draining)
  /-- A command is carried out. -/
  | answered {w : Worker σ} {ticket : Ticket} {c : Command} {rest : List (Ticket × Command)}
      {r : Reply} (quiet : g.worker.Quiet w) (phase : g.phase = .ready ∨ g.phase = .draining)
      (queue : g.queue = (ticket, c) :: rest)
      (outcome : ((Worker.execute c).run w).1 = .answered r) :
      Advance g [⟨ticket, c, w⟩] (({ g with
        queue := rest, worker := ((Worker.execute c).run w).2 }.reply ticket r).goto .draining)
  /-- A debuggee is started, and its first stop has to be awaited. -/
  | started {w : Worker σ} {ticket : Ticket} {c : Command} {rest : List (Ticket × Command)}
      {d : NewDebuggee} (quiet : g.worker.Quiet w)
      (phase : g.phase = .ready ∨ g.phase = .draining)
      (queue : g.queue = (ticket, c) :: rest)
      (outcome : ((Worker.execute c).run w).1 = .started d) :
      Advance g [⟨ticket, c, w⟩] ({ g with
        queue := rest, worker := ((Worker.execute c).run w).2 }.goto (.entering (.start ticket d)))
  /-- Nothing is queued, and nothing will be. -/
  | giveUp {w : Worker σ} (quiet : g.worker.Quiet w)
      (phase : g.phase = .ready ∨ g.phase = .draining) (queue : g.queue = [])
      (closed : g.accepting = false) :
      Advance g [] ({ g with worker := { w with cancelled := true } }.goto .looping)
  | decide (phase : g.phase = .looping) (cancelled : g.worker.cancelled = true) :
      Advance g [] (g.goto .leaving)
  | leave (phase : g.phase = .leaving) : Advance g (lastExecutions g.worker g.queue) g.leave
  | stay (phase : g.phase = .finished) : Advance g [] g

/-- Taking a command, or giving up. -/
private theorem advance_takeCommand {g : Gateway σ} {w : Worker σ} (quiet : g.worker.Quiet w)
    (phase : g.phase = .ready ∨ g.phase = .draining) :
    Advance g (firstExecution w g.queue) ({ g with worker := w }.takeCommand) := by
  have starting : g.phase.starting? = none := by
    rcases phase with h | h <;> rw [h] <;> rfl
  have off : g.phase ≠ .leaving ∧ g.phase ≠ .finished := by
    rcases phase with h | h <;> rw [h] <;> exact ⟨nofun, nofun⟩
  obtain ⟨worker, current, queue, accepting, issued, answers, disposed, silenced⟩ := g
  -- an empty queue starts a turn anew, or ends the work if it is closed
  cases queue with
  | nil =>
    cases accepting with
    | true => exact .work quiet ⟨starting, rfl⟩ off ⟨nofun, nofun⟩
    | false => exact .giveUp quiet phase rfl rfl
  | cons head rest =>
    obtain ⟨ticket, c⟩ := head
    -- a command is answered at once, or it starts a debuggee and is answered after the first wait
    cases he : (Worker.execute c).run w with
    | mk outcome w' =>
      cases outcome with
      | answered r =>
        have step := Advance.answered (r := r) quiet phase rfl (by rw [he])
        simp only [takeCommand, perform, work, he] at step ⊢
        exact step
      | started d =>
        have step := Advance.started (d := d) quiet phase rfl (by rw [he])
        simp only [takeCommand, perform, work, he] at step ⊢
        exact step

/-- A native wait is asked for its answer, and has none or has returned. -/
theorem poll_eq {g : Gateway σ} {answer : Option (Except EngineError (List NativeEvent))}
    {engine : σ} (asked : (Engine.waitForEvent : StateM σ _).run g.engine = (answer, engine))
    (purpose : WaitPurpose) :
    g.poll purpose = (g.setEngine engine).goto (.afterWait purpose answer) := by
  unfold poll
  rw [asked]
  cases answer <;> rfl

/-- Asking the native wait for its answer. -/
private theorem advance_poll {g : Gateway σ} {purpose : WaitPurpose}
    (phase : g.phase = .entering purpose ∨ g.phase = .waiting purpose) :
    Advance g [] (g.poll purpose) := by
  have step := Advance.wait phase
  rw [poll_eq (g := g) rfl]
  exact step

/-- Going on after a native wait. -/
private theorem advance_wake {g : Gateway σ} {purpose : WaitPurpose}
    {answer : Except EngineError (List NativeEvent)} (phase : g.phase = .woken purpose answer) :
    Advance g [] (g.wake purpose answer) := by
  have off : g.phase ≠ .leaving ∧ g.phase ≠ .finished := by
    rw [phase]
    exact ⟨nofun, nofun⟩
  unfold wake
  cases purpose with
  | start ticket d => exact .finishStart phase
  | stop =>
    have idle : g.phase.starting? = none ∧ Phase.starting? .ready = none := ⟨by rw [phase]; rfl, rfl⟩
    -- a wait that has failed, one that was cancelled, and one whose events are reported
    cases answer with
    | error e => exact .work (fun I F h => F.stalled _ true h) idle off ⟨nofun, nofun⟩
    | ok events =>
      dsimp only
      split
      · exact .work (.refl _) idle off ⟨nofun, nofun⟩
      · exact .work (fun I F h => F.report events _ h) idle off ⟨nofun, nofun⟩

/-- A step of the engine thread is one of those listed. -/
theorem advance_spec (g : Gateway σ) : Advance g g.executions g.advance := by
  unfold advance executions
  -- by phase, as the engine thread itself goes on
  cases hp : g.phase with
  | starting => exact .begin hp
  | looping =>
    dsimp only
    by_cases hc : g.worker.cancelled = true
    · rw [if_pos hc]
      exact .decide hp hc
    · rw [if_neg hc]
      have off : g.phase ≠ .leaving ∧ g.phase ≠ .finished := by rw [hp]; exact ⟨nofun, nofun⟩
      -- to look whether to wait is quiet work
      have quiet : g.worker.Quiet (g.work Worker.wantsWait).2.worker := fun I F h => F.wantsWait _ h
      by_cases hw : (g.work Worker.wantsWait).1 = true
      · simp only [hw, if_true]
        exact .work quiet ⟨by rw [hp]; rfl, rfl⟩ off ⟨nofun, nofun⟩
      · simp only [hw]
        exact .work quiet ⟨by rw [hp]; rfl, rfl⟩ off ⟨nofun, nofun⟩
  | entering purpose => exact advance_poll (.inl hp)
  | waiting purpose => exact advance_poll (.inr hp)
  | woken purpose answer => exact advance_wake hp
  | ready => exact advance_takeCommand (fun I F h => F.wantsWait _ h) (.inl hp)
  -- a cancelled thread takes no further command
  | draining =>
    dsimp only
    by_cases hc : g.worker.cancelled = true
    · rw [if_pos hc, if_pos hc]
      exact .work (.refl _) ⟨by rw [hp]; rfl, rfl⟩ (by rw [hp]; exact ⟨nofun, nofun⟩) ⟨nofun, nofun⟩
    · rw [if_neg hc, if_neg hc]
      exact advance_takeCommand (.refl _) (.inr hp)
  | leaving => exact .leave hp
  | finished => exact .stay hp

/-! ## The phases of the engine thread -/

/-- To which phase the engine thread goes in a step. -/
inductive Moves (g : Gateway σ) : Phase → Prop
  | begin (phase : g.phase = .starting) : Moves g .looping
  | enter (phase : g.phase = .looping) (on : g.worker.cancelled ≠ true) : Moves g (.entering .stop)
  | attend (phase : g.phase = .looping) (on : g.worker.cancelled ≠ true) : Moves g .ready
  | decide (phase : g.phase = .looping) (cancelled : g.worker.cancelled = true) : Moves g .leaving
  | wait {purpose : WaitPurpose} (phase : g.phase = .entering purpose ∨ g.phase = .waiting purpose)
      (unanswered : (Engine.waitForEvent.run g.engine).1 = none)
      (engine : g.advance.engine = (Engine.waitForEvent.run g.engine).2) : Moves g (.waiting purpose)
  | wake {purpose : WaitPurpose} {answer : Except EngineError (List NativeEvent)}
      (phase : g.phase = .entering purpose ∨ g.phase = .waiting purpose)
      (answered : (Engine.waitForEvent.run g.engine).1 = some answer) : Moves g (.woken purpose answer)
  | reported {answer : Except EngineError (List NativeEvent)}
      (phase : g.phase = .woken .stop answer) : Moves g .ready
  | started {ticket : Ticket} {d : NewDebuggee} {answer : Except EngineError (List NativeEvent)}
      (phase : g.phase = .woken (.start ticket d) answer) : Moves g .draining
  | performed (phase : g.phase = .ready ∨ g.phase = .draining) : Moves g .draining
  | start (phase : g.phase = .ready ∨ g.phase = .draining) (ticket : Ticket) (d : NewDebuggee) :
      Moves g (.entering (.start ticket d))
  | turn (phase : g.phase = .ready ∨ g.phase = .draining)
      (goal : g.accepting = true ∨ g.advance.worker.cancelled = true) : Moves g .looping
  | finish (phase : g.phase = .leaving ∨ g.phase = .finished) : Moves g .finished

/-- Whether the queue is empty or not, the engine thread does not go to a wait for a stop from it. -/
private theorem takeCommand_phase (g : Gateway σ) :
    g.takeCommand.phase = .draining ∨ (∃ ticket d, g.takeCommand.phase = .entering (.start ticket d)) ∨
    (g.takeCommand.phase = .looping ∧
      (g.accepting = true ∨ g.takeCommand.worker.cancelled = true)) := by
  -- by the head of the queue, and by what executing it leads to
  unfold takeCommand
  cases g.queue with
  | nil =>
    refine .inr (.inr ⟨rfl, ?_⟩)
    cases hacc : g.accepting with
    | true => exact .inl rfl
    | false => exact .inr rfl
  | cons head rest =>
    obtain ⟨ticket, c⟩ := head
    dsimp only [perform]
    generalize work (Worker.execute c) { g with queue := rest } = result
    obtain ⟨outcome, g'⟩ := result
    cases outcome with
    | answered r => exact .inl rfl
    | started d => exact .inr (.inl ⟨ticket, d, rfl⟩)

/-- The engine thread goes from phase to phase as listed. -/
theorem moves_advance (g : Gateway σ) : g.Moves g.advance.phase := by
  -- from either phase in which a command is taken the engine thread goes on in the same ways
  have taken : ∀ g' : Gateway σ, g'.accepting = g.accepting → g.advance = g'.takeCommand →
      g.phase = .ready ∨ g.phase = .draining → g.Moves g.advance.phase := by
    intro g' same step phase
    rcases takeCommand_phase g' with e | ⟨ticket, d, e⟩ | ⟨e, goal⟩ <;> rw [step, e]
    · exact .performed phase
    · exact .start phase ticket d
    · exact .turn phase (by rwa [same, ← step] at goal)
  -- and so it does from either phase of a native wait
  have polled : ∀ purpose, g.advance = g.poll purpose →
      g.phase = .entering purpose ∨ g.phase = .waiting purpose → g.Moves g.advance.phase := by
    intro purpose step phase
    rcases asked : (Engine.waitForEvent : StateM σ _).run g.engine with ⟨answer, engine⟩
    rw [poll_eq asked] at step
    cases answer with
    | none =>
      have waits := Moves.wait phase (congrArg Prod.fst asked) (by rw [step, asked]; rfl)
      rwa [step]
    | some answer =>
      have wakes := Moves.wake phase (congrArg Prod.fst asked)
      rwa [step]
  cases hp : g.phase with
  | starting =>
    simp only [advance, hp]
    exact .begin hp
  -- cancelled, the thread decides; else it waits or attends to the queue
  | looping =>
    by_cases hc : g.worker.cancelled = true
    · simp only [advance, hp, if_pos hc]
      exact .decide hp hc
    · simp only [advance, hp, if_neg hc]
      split
      · exact .enter hp hc
      · exact .attend hp hc
  | entering purpose => exact polled purpose (by simp only [advance, hp]) (.inl hp)
  | waiting purpose => exact polled purpose (by simp only [advance, hp]) (.inr hp)
  | woken purpose answer =>
    -- the end of a start and the report of a stop lead to different phases
    simp only [advance, hp, wake]
    cases purpose with
    | start ticket d => exact .started hp
    | stop =>
      cases answer with
      | error e => exact .reported hp
      | ok events =>
        dsimp only
        split <;> exact .reported hp
  | ready => exact taken (g.work Worker.wantsWait).2 rfl (by simp only [advance, hp]) (.inl hp)
  | draining =>
    by_cases hc : g.worker.cancelled = true
    · have step : g.advance = g.goto .looping := by simp only [advance, hp, if_pos hc]
      rw [step]
      exact .turn (.inr hp) (.inr (by rw [step]; exact hc))
    · exact taken g rfl (by simp only [advance, hp, if_neg hc]) (.inr hp)
  | leaving =>
    simp only [advance, hp]
    exact .finish (.inl hp)
  | finished =>
    simp only [advance, hp]
    exact .finish (.inr hp)

end Gateway

end DebugAdapter
