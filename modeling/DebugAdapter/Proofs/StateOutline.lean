import DebugAdapter.Proofs.DebuggeeStart
import DebugAdapter.Proofs.ExecutionStatus

/-!
# Where a session state and an engine stand

What the session state is compared with is an outline of the whole: whether the debuggee runs, whether a
wait for a stop has returned that is not reported yet, and whether a stop was published that the forwarder
has not shown in the session state yet (`Outline`). The forwarder and the engine thread change it in three
ways only, and what these keep of an outline (`Outline.Lasting`) they keep of the whole.

What is known is known as long as it was not published that the debuggee has exited, since the session
ends then.

## Key results

- `System.stable_minds`: what lasts of an outline is kept by the forwarder and the engine thread
- `System.Minds.perform`, `System.Minds.updateState`: what the actions of a request do to an outline
- `System.Minds.submit`, `System.Minds.await`: a command is queued, and its answer tells what it has done
-/

namespace DebugAdapter

/-! ## Outlines -/

/-- What is compared with a session state. -/
structure Outline where
  /-- The debuggee runs. -/
  runs : Bool
  /-- A stop was published, and is not shown in the session state yet. -/
  due : Bool
  /-- A wait for a stop has returned, and is not reported yet. -/
  returned : Bool
  state : SessionState

namespace Outline

/-- The session state says whether the debuggee runs, or will say so when all was reported and shown. -/
def Agrees (o : Outline) : Prop :=
  if o.runs then o.state = .running ∧ o.due = false
  else o.due = true ∨ o.returned = true ∨ o.state = .stopped

/-- The debuggee is stopped, nothing is left to be reported or shown, and the session state is in `Q`. -/
def Held (Q : SessionState → Prop) (o : Outline) : Prop :=
  o.runs = false ∧ o.due = false ∧ o.returned = false ∧ Q o.state

/-- What holds of an outline holds whatever the forwarder and the engine thread do. -/
structure Lasting (R : Outline → Prop) : Prop where
  /-- A wait returns, in which the debuggee may have stopped. -/
  returns : ∀ o, R o → o.runs = true → o.returned = false → ∀ runs, R { o with runs, returned := true }
  /-- A wait that has returned is reported: as a stop, if the debuggee does not run. -/
  reports : ∀ o, R o → o.returned = true → R { o with due := o.due || !o.runs, returned := false }
  /-- A stop is shown, and another one may be due. -/
  shows : ∀ o, R o → o.due = true → ∀ due, R { o with due, state := .stopped }

/-- That the state agrees with the debuggee lasts. -/
theorem lasting_agrees : Lasting Agrees where
  returns := by
    rintro ⟨runs, due, returned, state⟩ h rfl rfl runs'
    simp only [Agrees, if_true] at h
    -- a debuggee that has stopped in the wait is a stop that is still to be reported
    cases runs' with
    | true => exact h
    | false => exact .inr (.inl rfl)
  reports := by
    rintro ⟨runs, due, returned, state⟩ h rfl
    cases runs with
    | true =>
      simp only [Agrees, if_true, Bool.not_true, Bool.or_false] at h ⊢
      exact h
    | false => exact .inl (Bool.or_true due)
  shows := by
    rintro ⟨runs, due, returned, state⟩ h rfl due'
    cases runs with
    | true => exact nomatch h.2
    | false => exact .inr (.inr rfl)

/-- That the debuggee stands still lasts, as nothing resumes it. -/
theorem lasting_held (Q : SessionState → Prop) : Lasting (Held Q) where
  returns := fun _ h runs => nomatch h.1.symm.trans runs
  reports := fun _ h returned => nomatch h.2.2.1.symm.trans returned
  shows := fun _ h due => nomatch h.2.1.symm.trans due

/-- A debuggee that stands still agrees with a session that says so. -/
theorem Held.agrees {o : Outline} (h : o.Held (· = .stopped)) : o.Agrees := by
  obtain ⟨runs, -, -, state⟩ := h
  rw [Agrees, runs]
  exact .inr (.inr state)

/-- What is known of the state can be weakened. -/
theorem Held.mono {Q Q' : SessionState → Prop} {o : Outline} (h : o.Held Q)
    (imp : ∀ state, Q state → Q' state) : o.Held Q' :=
  ⟨h.1, h.2.1, h.2.2.1, imp _ h.2.2.2⟩

end Outline

/-- The command starts a debuggee, or resumes one that the session counts as running. -/
def Command.Moves (c : Command) (Q : SessionState → Prop) : Prop :=
  c.starts = true ∨ c.resumes = true ∧ ∀ state, Q state → state = .running

/-! ## What is left to the forwarder -/

/-- The action writes a message. -/
def Action.Writes : Action → Prop
  | send _ => True
  | _ => False

namespace Program

/-- The forwarder is to show a stop in the session state next. -/
def showsStop : Program Unit → Bool
  | .act (.updateState _) _ => true
  | _ => false

/-- A stop is shown at most once, and that first. Besides, messages are written. -/
def Mirrors : Program Unit → Prop
  | .act (.updateState f) next => f = SessionState.advanceTo .stopped ∧
      ∀ st, (next st).All Action.Writes fun _ => True
  | p => p.All Action.Writes fun _ => True

/-- A program that only writes shows no stop. -/
theorem mirrors_of_writes {p : Program Unit} (h : p.All Action.Writes fun _ => True) :
    p.Mirrors ∧ p.showsStop = false := by
  cases p with
  | done u => exact ⟨h, rfl⟩
  | act a next =>
    cases a with
    | updateState f => exact h.1.elim
    | _ => exact ⟨h, rfl⟩

end Program

/-- As long as the debuggee lives, forwarding an event shows a stop if it is one. -/
theorem Session.mirrors_forward {e : GatewayEvent} (alive : ∀ code, e ≠ .processExited code)
    (unended : e ≠ .terminated) : (forward e).Mirrors ∧ (forward e).showsStop = e.isStop := by
  have stop : ∀ reason thread text, (forwardStop reason thread text).Mirrors := by
    intro reason thread text
    refine ⟨rfl, fun st => ?_⟩
    cases st <;> first | trivial | exact ⟨trivial, fun _ => trivial⟩
  cases e with
  | processExited code => exact absurd rfl (alive code)
  | terminated => exact absurd rfl unended
  | breakpointHit | exceptionHit | breakHit | stepCompleted => exact ⟨stop _ _ _, rfl⟩
  | threadStarted | threadExited | output => exact ⟨⟨trivial, fun _ => trivial⟩, rfl⟩

variable {σ : Type} [Engine σ] {V : StatusView σ}

/-! ## What may be known of a gateway and a session state -/

namespace Gateway

/-- Nothing is asked of the engine thread by which the status would change. -/
structure Unasked (g : Gateway σ) : Prop where
  queue : ∀ p ∈ g.queue, p.2.inspects = true
  starting : g.phase.starting? = none

/-- What is compared with the session state. -/
def outline (V : StatusView σ) (due : Bool) (state : SessionState) (g : Gateway σ) : Outline :=
  ⟨V.runs g.engine, due, g.phase.hasReturned, state⟩

/-- Nothing is asked of the engine thread, and `R` holds. -/
def Minding (V : StatusView σ) (R : Outline → Prop) (g : Gateway σ) (due : Bool) (state : SessionState) :
    Prop :=
  g.Unasked ∧ R (g.outline V due state)

/-- No answer has a ticket. -/
def Unanswered (ticket : Ticket) (g : Gateway σ) : Prop :=
  ∀ p ∈ g.answers, p.1 ≠ ticket

/-- What an answer to a command to start or to resume the debuggee tells. -/
def Told (c : Command) (Q : SessionState → Prop) : Reply → Outline → Prop
  | .executed (.ok _) => Outline.Agrees
  | .executed (.error _) => Outline.Held Q
  | _ => Outline.Held fun state => c.starts = true ∧ Q state

/-- A command to start or to resume a debuggee that is held is queued, or is being carried out, or was
answered. -/
inductive Awaiting (V : StatusView σ) (c : Command) (Q : SessionState → Prop) (ticket : Ticket)
    (g : Gateway σ) (due : Bool) (state : SessionState) : Prop
  | queued {before : List (Ticket × Command)} (queue : g.queue = before ++ [(ticket, c)])
      (others : ∀ p ∈ before, p.2.inspects = true ∧ p.1 ≠ ticket)
      (unanswered : g.Unanswered ticket) (idle : g.phase.starting? = none)
      (held : (g.outline V due state).Held Q)
  | starting {d : NewDebuggee} (start : g.phase.starting? = some (ticket, d))
      (queue : ∀ p ∈ g.queue, p.2.inspects = true) (unanswered : g.Unanswered ticket)
      (held : (g.outline V due state).Held fun state => c.starts = true ∧ Q state)
  | answered {r : Reply} (answer : g.answer? ticket = some r)
      (told : g.Minding V (Told c Q r) due state)

/-- What is known of a gateway, and of the stops and the session state beside it, is kept by the engine
thread and when a stop is shown. -/
structure Mode (V : StatusView σ) (P : Gateway σ → Bool → SessionState → Prop) : Prop where
  admits : ∀ {g due state}, P g due state → g.Admits V
  turn : ∀ {g g' due told state}, P g due state → Turn V g told g' → P g' (due || told) state
  shows : ∀ {g state}, P g true state → ∀ due, P g due .stopped

omit [Engine σ] in
/-- A command does one thing only. -/
private theorem not_starts_of_inspects {c : Command} (h : c.inspects = true) :
    c.starts = false ∧ c.resumes = false := by
  cases c <;> first | exact ⟨rfl, rfl⟩ | cases h

omit [Engine σ] in
/-- A command that starts a debuggee does not resume one. -/
private theorem not_resumes_of_starts {c : Command} (h : c.starts = true) : c.resumes = false := by
  cases c <;> first | rfl | cases h

omit [Engine σ] in
/-- A command that inspects leaves the debuggee as it is. -/
private theorem runs_eq_of_inspects {c : Command} (h : c.inspects = true) {r : Reply} {before after : Bool}
    (effect : c.resumes = true ∧ (∃ result, r = .executed result ∧ after = result.isOk) ∨
      c.inspects = true ∧ after = before ∨
      c.starts = true ∧ (∃ e, r = .launched (.error e)) ∧ after = false) : after = before := by
  obtain ⟨starts, resumes⟩ := not_starts_of_inspects h
  rcases effect with ⟨on, -⟩ | ⟨-, same⟩ | ⟨on, -⟩
  · cases resumes.symm.trans on
  · exact same
  · cases starts.symm.trans on

omit [Engine σ] in
/-- With commands in the queue that only inspect, the engine may take any turn. -/
theorem Unasked.admits {g : Gateway σ} (h : ∀ p ∈ g.queue, p.2.inspects = true) : g.Admits V :=
  fun queue => .inl (h _ (queue ▸ List.mem_cons_self))

omit [Engine σ] in
/-- Without a command to move the debuggee, what lasts is kept by every turn. -/
theorem mode_minding {R : Outline → Prop} (lasting : Outline.Lasting R) : Mode V (Minding V R) where
  admits := fun h => Unasked.admits h.1.queue
  turn := by
    rintro g g' due told state ⟨⟨queue, idle⟩, holds⟩ turn
    -- as long as the debuggee does what it did, so does the outline
    have same : ∀ {g' : Gateway σ}, V.runs g'.engine = V.runs g.engine →
        g.phase.hasReturned = false ∧ g'.phase.hasReturned = false →
        R (g'.outline V (due || false) state) := by
      intro g' runs returned
      rw [outline, runs, returned.2, Bool.or_false]
      rwa [outline, returned.1] at holds
    -- one case for each kind of turn
    cases turn with
    | work idles runs returned starting =>
      exact ⟨⟨idles.queue_eq ▸ queue, starting.trans idle⟩, same runs returned⟩
    | returns idles ran returned starting =>
      refine ⟨⟨idles.queue_eq ▸ queue, starting.2⟩, ?_⟩
      have returns := lasting.returns _ holds ran returned.1 (V.runs g'.engine)
      rwa [outline, returned.2, Bool.or_false]
    | reports idles runs returned starting =>
      refine ⟨⟨idles.queue_eq ▸ queue, starting.2⟩, ?_⟩
      have reports := lasting.reports _ holds returned.1
      rwa [outline, runs, returned.2]
    | started queue answers runs returned starting => cases idle.symm.trans starting.1
    | @carries _ ticket c rest r taken answers effect returned starting =>
      have inspects : c.inspects = true := queue _ (taken.1 ▸ List.mem_cons_self)
      refine ⟨⟨fun p mem => queue p ?_, starting.2⟩, same (runs_eq_of_inspects inspects effect) returned⟩
      rw [taken.1]
      exact List.mem_cons_of_mem _ (taken.2 ▸ mem)
    | @begins _ ticket c rest d taken answers starts =>
      have inspects : c.inspects = true := queue _ (taken.1 ▸ List.mem_cons_self)
      cases (not_starts_of_inspects inspects).1.symm.trans starts
  shows := fun h due => ⟨h.1, lasting.shows _ h.2 rfl due⟩

/-- What a reply tells of the debuggee lasts. -/
theorem lasting_told (c : Command) (Q : SessionState → Prop) (r : Reply) :
    Outline.Lasting (Told c Q r) := by
  cases r with
  | executed result =>
    cases result with
    | ok u => exact Outline.lasting_agrees
    | error e => exact Outline.lasting_held Q
  | _ => exact Outline.lasting_held fun state => c.starts = true ∧ Q state

omit [Engine σ] in
/-- An answer stays. -/
theorem answer?_append {g g' : Gateway σ} {ticket : Ticket} {r : Reply}
    (answer : g.answer? ticket = some r) {more : List (Ticket × Reply)}
    (answers : g'.answers = g.answers ++ more) : g'.answer? ticket = some r := by
  rw [answer?, Option.map_eq_some_iff] at answer ⊢
  obtain ⟨p, found, rfl⟩ := answer
  exact ⟨p, by rw [answers, List.find?_append, found]; rfl, rfl⟩

omit [Engine σ] in
/-- A command stays unanswered while no answers are given. -/
theorem Unanswered.congr {g g' : Gateway σ} {ticket : Ticket} (h : g.Unanswered ticket)
    (answers : g'.answers = g.answers) : g'.Unanswered ticket := by
  rwa [Unanswered, answers]

omit [Engine σ] in
/-- The first answer that has a ticket is the answer. -/
theorem Unanswered.answer? {g g' : Gateway σ} {ticket : Ticket} (h : g.Unanswered ticket) {r : Reply}
    (answers : g'.answers = g.answers ++ [(ticket, r)]) : g'.answer? ticket = some r := by
  have none : g.answers.find? (·.1 == ticket) = none :=
    List.find?_eq_none.2 fun p mem => by simpa using h p mem
  rw [Gateway.answer?, answers, List.find?_append, none]
  simp

omit [Engine σ] in
/-- What an answer tells of the command that was carried out. -/
private theorem told_of_effect {Q : SessionState → Prop} {o : Outline} (held : o.Held Q) {c : Command}
    (moves : c.Moves Q) {r : Reply} {runs : Bool}
    (effect : c.resumes = true ∧ (∃ result, r = .executed result ∧ runs = result.isOk) ∨
      c.inspects = true ∧ runs = o.runs ∨
      c.starts = true ∧ (∃ e, r = .launched (.error e)) ∧ runs = false) :
    Told c Q r { o with runs } := by
  -- a command resumes, inspects, or fails to start
  rcases effect with ⟨resumes, result, rfl, ran⟩ | ⟨inspects, -⟩ | ⟨starts, ⟨e, rfl⟩, stopped⟩
  · rcases moves with starts | ⟨-, marked⟩
    · cases (not_resumes_of_starts starts).symm.trans resumes
    · cases result with
      | error e => exact ⟨ran, held.2⟩
      | ok u =>
        have ran : runs = true := ran
        rw [Told, Outline.Agrees, ran]
        exact ⟨marked _ held.2.2.2, held.2.1⟩
  · obtain ⟨starts, resumes⟩ := not_starts_of_inspects inspects
    simp only [Command.Moves, starts, resumes, Bool.false_eq_true, false_and, or_false] at moves
  · exact ⟨stopped, held.2.1, held.2.2.1, starts, held.2.2.2⟩

omit [Engine σ] in
/-- The oldest command in the queue is the one that is awaited, if that is the only one, or one of those
before it. -/
private theorem oldest_of_queue {g : Gateway σ} {ticket first : Ticket} {c c' : Command}
    {before rest : List (Ticket × Command)} (queue : g.queue = before ++ [(ticket, c)])
    (taken : g.queue = (first, c') :: rest) :
    (first = ticket ∧ c' = c) ∧ rest = [] ∨
      (first, c') ∈ before ∧ ∃ before', (∀ p ∈ before', p ∈ before) ∧ rest = before' ++ [(ticket, c)] := by
  have same := taken.symm.trans queue
  cases before with
  | nil => exact .inl (by simpa using same)
  | cons head before =>
    obtain ⟨rfl, rest_eq⟩ : (first, c') = head ∧ rest = before ++ [(ticket, c)] := by simpa using same
    exact .inr ⟨List.mem_cons_self, before, fun p mem => List.mem_cons_of_mem _ mem, rest_eq⟩

omit [Engine σ] in
/-- A command is awaited that is the last one in the queue. -/
private theorem Awaiting.turn_queued {ticket : Ticket} {c : Command} {Q : SessionState → Prop}
    (moves : c.Moves Q) {g g' : Gateway σ} {due told : Bool} {state : SessionState}
    {before : List (Ticket × Command)} (queue : g.queue = before ++ [(ticket, c)])
    (others : ∀ p ∈ before, p.2.inspects = true ∧ p.1 ≠ ticket)
    (unanswered : g.Unanswered ticket) (idle : g.phase.starting? = none)
    (held : (g.outline V due state).Held Q) (turn : Turn V g told g') :
    Awaiting V c Q ticket g' (due || told) state := by
  obtain ⟨stopped, nothing, reported, noted⟩ := held
  -- as the debuggee stands still, only the first command of the queue changes anything
  cases turn with
  | work idles runs returned starting =>
    refine .queued (idles.queue_eq.trans queue) others (unanswered.congr idles.answers_eq)
      (starting.trans idle) ⟨runs.trans stopped, ?_, returned.2, noted⟩
    exact (Bool.or_false due).trans nothing
  | returns idles ran => cases stopped.symm.trans ran
  | reports idles runs returned => cases reported.symm.trans returned.1
  | started taken answers runs returned starting => cases idle.symm.trans starting.1
  | @carries _ first c' rest r taken answers effect returned starting =>
    have nothing : (due || false) = false := (Bool.or_false due).trans nothing
    rcases oldest_of_queue queue taken.1 with ⟨⟨rfl, rfl⟩, rfl⟩ | ⟨mem, before', old, rest_eq⟩
    · -- it is the turn of the command that is awaited
      have told := told_of_effect (o := ⟨false, due || false, g'.phase.hasReturned, state⟩)
        ⟨rfl, nothing, returned.2, noted⟩ moves
        (effect.imp_right (.imp_left fun h => ⟨h.1, h.2.trans stopped⟩))
      refine .answered (unanswered.answer? answers) ⟨⟨?_, starting.2⟩, told⟩
      rw [taken.2]
      exact fun p mem => absurd mem List.not_mem_nil
    · -- one of the commands before it only inspects
      obtain ⟨inspects, other⟩ := others _ mem
      have runs : V.runs g'.engine = V.runs g.engine := runs_eq_of_inspects inspects effect
      refine .queued (taken.2.trans rest_eq) (fun p mem => others p (old p mem)) ?_ starting.2
        ⟨runs.trans stopped, nothing, returned.2, noted⟩
      intro p mem
      rw [answers] at mem
      rcases List.mem_append.1 mem with mem | mem
      · exact unanswered p mem
      · rw [List.mem_singleton.1 mem]
        exact other
  | @begins _ first c' rest d taken answers starts runs returned starting =>
    have nothing : (due || false) = false := (Bool.or_false due).trans nothing
    rcases oldest_of_queue queue taken.1 with ⟨⟨rfl, rfl⟩, rfl⟩ | ⟨mem, -⟩
    · refine .starting starting.2 ?_ (unanswered.congr answers)
        ⟨runs, nothing, returned.2, starts, noted⟩
      rw [taken.2]
      exact fun p mem => absurd mem List.not_mem_nil
    · -- the others start nothing
      cases (not_starts_of_inspects (others _ mem).1).1.symm.trans starts

omit [Engine σ] in
/-- A debuggee is being started, and its first stop is awaited. -/
private theorem Awaiting.turn_starting {ticket : Ticket} {c : Command} {Q : SessionState → Prop}
    {g g' : Gateway σ} {due told : Bool} {state : SessionState} {d : NewDebuggee}
    (start : g.phase.starting? = some (ticket, d)) (queue : ∀ p ∈ g.queue, p.2.inspects = true)
    (unanswered : g.Unanswered ticket)
    (held : (g.outline V due state).Held fun state => c.starts = true ∧ Q state)
    (turn : Turn V g told g') : Awaiting V c Q ticket g' (due || told) state := by
  obtain ⟨stopped, nothing, reported, noted⟩ := held
  have nothing : (due || false) = false := (Bool.or_false due).trans nothing
  -- as the start is not answered, only the first stop changes anything
  cases turn with
  | work idles runs returned starting =>
    exact .starting (starting.trans start) (idles.queue_eq ▸ queue) (unanswered.congr idles.answers_eq)
      ⟨runs.trans stopped, nothing, returned.2, noted⟩
  | returns idles ran => cases stopped.symm.trans ran
  | reports idles runs returned => cases reported.symm.trans returned.1
  | started taken answers runs returned starting =>
    obtain ⟨rfl, rfl⟩ := Prod.mk.inj (Option.some.inj (starting.1.symm.trans start))
    exact .answered (unanswered.answer? answers)
      ⟨⟨taken ▸ queue, starting.2⟩, runs.trans stopped, nothing, returned.2, noted⟩
  | carries taken answers effect returned starting => cases starting.1.symm.trans start
  | begins taken answers starts runs returned starting => cases starting.1.symm.trans start

omit [Engine σ] in
/-- While a command is awaited, it is in the queue, or starting, or answered. -/
theorem mode_awaiting {c : Command} {Q : SessionState → Prop} (moves : c.Moves Q) (ticket : Ticket) :
    Mode V (Awaiting V c Q ticket) where
  admits := by
    intro g due state h
    cases h with
    -- a command that is queued comes behind some that inspect
    | @queued before queue others unanswered idle held =>
      intro first c' rest taken
      rcases oldest_of_queue queue taken with ⟨⟨-, rfl⟩, -⟩ | ⟨mem, -⟩
      · exact .inr ⟨moves.imp_right And.left, held.1⟩
      · exact .inl (others _ mem).1
    | starting start queue => exact Unasked.admits queue
    | answered answer told => exact Unasked.admits told.1.queue
  turn := by
    intro g g' due told state h turn
    cases h with
    | queued queue others unanswered idle held =>
      exact Awaiting.turn_queued moves queue others unanswered idle held turn
    | starting start queue unanswered held =>
      exact Awaiting.turn_starting start queue unanswered held turn
    | @answered r answer told' =>
      have kept := (mode_minding (lasting_told c Q r)).turn told' turn
      -- an answer that was given stays the answer
      cases turn with
      | work idles | returns idles | reports idles =>
        exact .answered (answer?_append answer (idles.answers_eq.trans (List.append_nil _).symm)) kept
      | started taken answers => exact .answered (answer?_append answer answers) kept
      | carries taken answers => exact .answered (answer?_append answer answers) kept
      | begins taken answers =>
        exact .answered (answer?_append answer (answers.trans (List.append_nil _).symm)) kept
  shows := by
    intro g state h due
    cases h with
    | queued queue others unanswered idle held => cases held.2.1
    | starting start queue unanswered held => cases held.2.1
    | @answered r answer told => exact .answered answer ((mode_minding (lasting_told c Q r)).shows told due)

end Gateway

/-! ## A session beside its gateway -/

namespace System

/-- A stop was published that the session state does not show yet. -/
def due (g : Gateway σ) (s : System σ) : Bool :=
  s.forwarder.showsStop || (g.worker.published.drop s.forwarded).any GatewayEvent.isStop

/-- The gateway is at work, the forwarder mirrors its events, and `P` holds. -/
structure Led (V : StatusView σ) (P : Gateway σ → Bool → SessionState → Prop) (s : System σ)
    (g : Gateway σ) : Prop where
  underway : g.Underway V
  numbered : g.Numbered
  forwarder : s.forwarder.Mirrors
  forwarded_le : s.forwarded ≤ g.worker.published.length
  goesOn : s.state ≠ .terminated
  mode : P g (s.due g) s.state

/-- There is a gateway, and `P` holds of it as long as the debuggee lives. -/
def Minds (V : StatusView σ) (P : Gateway σ → Bool → SessionState → Prop) (s : System σ) : Prop :=
  s.Tame ∧ ∃ g, s.gateway = some g ∧ (g.Lives → s.Led V P g)

omit [Engine σ] in
/-- A debuggee that lives later lives now. -/
theorem lives_of_later {g g' : Gateway σ} (later : g.Later g') (lives : g'.Lives) : g.Lives :=
  fun code mem => lives code (later.published.subset mem)

variable {P : Gateway σ → Bool → SessionState → Prop} {s s' : System σ} {g : Gateway σ}

omit [Engine σ] in
/-- What is minded can be weakened. -/
theorem Minds.mono {P' : Gateway σ → Bool → SessionState → Prop} (h : s.Minds V P)
    (imp : ∀ g due state, P g due state → P' g due state) : s.Minds V P' := by
  obtain ⟨tame, g, gateway, led⟩ := h
  exact ⟨tame, g, gateway, fun lives => { led lives with mode := imp _ _ _ (led lives).mode }⟩

/-! ### The other threads -/

/-- A turn of the engine keeps the session led. -/
private theorem Led.stepEngine (L : V.Lawful) (mode : Gateway.Mode V P) (h : s.Led V P g)
    (lives : g.advance.Lives) : s.stepEngine.Led V P g.advance := by
  obtain ⟨underway, es, published, turn⟩ := h.underway.advance L (mode.admits h.mode) lives
  -- a stop is due if it was before, or is told in this turn
  have due : s.stepEngine.due g.advance = (s.due g || es.any GatewayEvent.isStop) := by
    rw [System.due, System.due, published, Bool.or_assoc]
    have rest : (g.worker.published ++ es).drop s.forwarded = g.worker.published.drop s.forwarded ++ es :=
      List.drop_append_of_le_length h.forwarded_le
    change (_ || (List.drop s.forwarded _).any _) = _
    rw [rest, List.any_append]
    rfl
  exact
  { underway
    numbered := h.numbered.turn turn g.issued_advance
    forwarder := h.forwarder
    forwarded_le := by
      rw [published, List.length_append]
      exact Nat.le_add_right_of_le h.forwarded_le
    goesOn := h.goesOn
    mode := by
      rw [due]
      exact mode.turn h.mode turn }

omit [Engine σ] in
/-- An event is taken. -/
private theorem Led.take (h : s.Led V P g) (gateway : s.gateway = some g) (lives : g.Lives)
    (done : s.forwarder = .done ()) {e : GatewayEvent} (next : s.nextEvent? = some e) :
    { s with forwarded := s.forwarded + 1, forwarder := Session.forward e }.Led V P g := by
  -- the event is one of those that the worker has published
  have at? : g.worker.published[s.forwarded]? = some e := by
    simpa [nextEvent?, gateway] using next
  have mem : e ∈ g.worker.published := List.mem_of_getElem? at?
  obtain ⟨mirrors, shows⟩ := Session.mirrors_forward (e := e) (fun code he => lives code (he ▸ mem))
    fun he => h.underway.unended (he ▸ mem)
  have bound : s.forwarded < g.worker.published.length := (List.getElem?_eq_some_iff.1 at?).1
  -- the event that is taken is the first of those left
  have due : System.due g { s with forwarded := s.forwarded + 1, forwarder := Session.forward e } =
      s.due g := by
    have rest : g.worker.published.drop s.forwarded = e :: g.worker.published.drop (s.forwarded + 1) := by
      rw [List.drop_eq_getElem_cons bound]
      congr 1
      exact Option.some.inj ((List.getElem?_eq_getElem bound).symm.trans at?)
    rw [System.due, System.due, done, rest, List.any_cons, ← shows]
    rfl
  exact
  { underway := h.underway
    numbered := h.numbered
    forwarder := mirrors
    forwarded_le := bound
    goesOn := h.goesOn
    mode := by
      rw [due]
      exact h.mode }

/-- An action of the forwarder. -/
private theorem Led.performed (mode : Gateway.Mode V P) (h : s.Led V P g) {a : Action}
    {next : a.Result → Program Unit} (hf : s.forwarder = .act a next) {r : a.Result}
    (gateway : s.gateway = some g) (e : s.perform a = some (r, s')) :
    s'.gateway = some g ∧ { s' with forwarder := next r }.Led V P g := by
  have mirrors := h.forwarder
  have modal := h.mode
  rw [hf] at mirrors
  -- the forwarder shows the stop in the state, or writes
  cases a with
  | updateState f =>
    obtain ⟨rfl, writes⟩ := mirrors
    cases e
    obtain ⟨mirrors, shown⟩ := Program.mirrors_of_writes (writes s.state)
    -- the stop that is due is shown in the state, which is not over
    have stopped : SessionState.advanceTo .stopped s.state = .stopped := if_neg h.goesOn
    have due : s.due g = true := by
      rw [System.due, hf]
      rfl
    rw [due] at modal
    refine ⟨gateway, ⟨h.underway, h.numbered, mirrors, h.forwarded_le, ?_, ?_⟩⟩
    · dsimp only
      rw [stopped]
      exact nofun
    · dsimp only
      rw [stopped]
      exact mode.shows modal _
  -- a message leaves the state, and what is due
  | send m =>
    cases e
    obtain ⟨mirrors, shown⟩ := Program.mirrors_of_writes (mirrors.2 ())
    have due : System.due g { s.send m with forwarder := next () } = s.due g := by
      rw [System.due, System.due, hf, shown]
      rfl
    refine ⟨gateway, ⟨h.underway, h.numbered, mirrors, h.forwarded_le, h.goesOn, ?_⟩⟩
    rw [due]
    exact modal
  | _ => exact mirrors.1.elim

/-- The other threads keep what is minded. -/
theorem stable_minds (L : V.Lawful) (mode : Gateway.Mode V P) : Stable (Minds V P) where
  forwarder := by
    rintro s ⟨tame, g, gateway, led⟩
    refine ⟨stable_tame.forwarder tame, ?_⟩
    rcases s.stepForwarder_cases with ⟨a, next, r, s', hf, e, step⟩ | ⟨event, hf, e, step⟩ | step
    · have still := tame
      rw [Tame, hf] at still
      have after := (perform_frame e still.1.not_opens).1
      rw [gateway] at after
      rw [step]
      refine ⟨_, after, fun lives => ?_⟩
      -- as long as the debuggee lives, the forwarder does nothing at the gateway
      obtain ⟨same, led⟩ := (led (lives_of_later (g.later_run _) lives)).performed mode hf gateway e
      have same : g.run a.atGateway = g := Option.some.inj (after.symm.trans same)
      change Led V P _ (g.run a.atGateway)
      rwa [same]
    · -- or it takes the next event
      rw [step]
      exact ⟨g, gateway, fun lives => (led lives).take gateway lives hf e⟩
    · rw [step]
      exact ⟨g, gateway, led⟩
  engine := by
    rintro s ⟨tame, g, gateway, led⟩
    refine ⟨tame, g.advance, ?_, fun lives => ?_⟩
    · rw [System.stepEngine, onGateway, gateway]
      rfl
    · -- a debuggee that lives later was alive before
      exact (led (lives_of_later g.later_advance lives)).stepEngine L mode lives

/-! ### Requests -/

omit [Engine σ] in
/-- What the session thread does at the gateway while the debuggee lives, and what it makes of the session
state. -/
private theorem Led.after (h : s.Led V P g) {P' : Gateway σ → Bool → SessionState → Prop} {s' : System σ}
    {g' : Gateway σ} (underway : g'.Underway V) (numbered : g'.Numbered)
    (published : g'.worker.published = g.worker.published) (forwarder : s'.forwarder = s.forwarder)
    (forwarded : s'.forwarded = s.forwarded) (goesOn : s'.state ≠ .terminated)
    (mode : P' g' (s.due g) s'.state) : s'.Led V P' g' where
  underway := underway
  numbered := numbered
  forwarder := forwarder ▸ h.forwarder
  forwarded_le := by
    rw [forwarded, published]
    exact h.forwarded_le
  goesOn := goesOn
  mode := by
    rw [System.due, forwarder, forwarded, published]
    exact mode

end System

/-- The action writes a message, or it is one at the gateway by which the status does not change. -/
def Action.Harmless : Action → Prop
  | note _ | send _ | interrupt | await _ => True
  | submit c => c.inspects = true
  | _ => False

namespace Gateway

variable {g : Gateway σ}

omit [Engine σ] in
/-- A command is put at the end of the queue, under the next ticket. -/
theorem submit_eq (on : g.accepting = true) (c : Command) : g.submit c =
    (some g.issued, { g with
      queue := g.queue ++ [(g.issued, c)], issued := g.issued + 1, accepting := c ≠ .terminate }) := by
  rw [submit, if_pos on]

omit [Engine σ] in
/-- A command that is submitted gets the next ticket. -/
theorem Numbered.submit (h : g.Numbered) (on : g.accepting = true) (c : Command) :
    (g.submit c).2.Numbered := by
  rw [submit_eq on]
  refine ⟨fun p mem => ?_, fun p mem => Nat.lt_succ_of_lt (h.answers p mem), fun start =>
    Nat.lt_succ_of_lt (h.starting start)⟩
  rcases List.mem_append.1 mem with mem | mem
  · exact Nat.lt_succ_of_lt (h.queue p mem)
  · rw [List.mem_singleton.1 mem]
    exact Nat.lt_succ_self _

/-- An interrupt gives no tickets. -/
theorem Numbered.interrupt (h : g.Numbered) : g.interrupt.Numbered := by
  rw [Gateway.interrupt]
  split
  · exact ⟨h.queue, h.answers, h.starting⟩
  · exact h

end Gateway

namespace System

variable {P : Gateway σ → Bool → SessionState → Prop} {R : Outline → Prop} {s s' : System σ}

/-- Whatever becomes of a debuggee that has exited, there is a gateway. -/
private theorem Minds.of_perform (h : s.Minds V P) {a : Action} {r : a.Result} (on : ¬a.Opens)
    (e : s.perform a = some (r, s')) {P' : Gateway σ → Bool → SessionState → Prop}
    (led : ∀ g, s.gateway = some g → g.Lives → s.Led V P g → s'.Led V P' (g.run a.atGateway)) :
    s'.Minds V P' := by
  obtain ⟨tame, g, gateway, known⟩ := h
  have after := (perform_frame e on).1
  rw [gateway] at after
  refine ⟨tame.perform e, _, after, fun lives => ?_⟩
  have lived := lives_of_later (g.later_run _) lives
  exact led g gateway lived (known lived)

/-- Harmless actions leave everything as it is. -/
theorem Minds.perform (L : V.Lawful) (h : s.Minds V (Gateway.Minding V R)) {a : Action}
    (harmless : a.Harmless) {r : a.Result} (e : s.perform a = some (r, s')) :
    s'.Minds V (Gateway.Minding V R) := by
  have on : ¬a.Opens := by
    -- the actions that reach the gateway, and those that do not
    cases a with
    | openGateway => exact harmless.elim
    | _ => exact id
  refine h.of_perform on e fun g gateway lives led => ?_
  obtain ⟨-, forwarder, forwarded⟩ := perform_frame e on
  have state : s'.state = s.state := by
    rw [(perform_shown e).1]
    cases a with
    | updateState f => exact harmless.elim
    | _ => rfl
  -- a harmless action leaves the session state, so only the gateway may have changed
  have goesOn : s'.state ≠ .terminated := state ▸ led.goesOn
  have modal := led.mode
  rw [← state] at modal
  cases a with
  | submit c =>
    have on : c ≠ .terminate := by
      rintro rfl
      cases harmless
    have accepting := led.underway.accepting
    refine led.after (led.underway.submit on) (led.numbered.submit accepting c) ?_ forwarder forwarded
      goesOn ?_
    · exact (g.act_kept (a := .submit c) (by intro same; cases same)).2
    · change Gateway.Minding V R (g.submit c).2 _ _
      rw [Gateway.submit_eq accepting]
      refine ⟨⟨fun p mem => ?_, modal.1.starting⟩, modal.2⟩
      rcases List.mem_append.1 mem with mem | mem
      · exact modal.1.queue p mem
      · rw [List.mem_singleton.1 mem]
        exact harmless
  -- an interrupt may end a wait, and leaves the queue
  | interrupt =>
    obtain ⟨underway, runs⟩ := led.underway.interrupt L
    have kept := g.act_kept (a := .interrupt) nofun
    have queue : g.interrupt.queue = g.queue := by
      rw [Gateway.interrupt]
      split <;> rfl
    refine led.after underway led.numbered.interrupt kept.2 forwarder forwarded goesOn ?_
    refine ⟨⟨fun p mem => modal.1.queue p (queue ▸ mem), ?_⟩, ?_⟩
    · exact (congrArg Phase.starting? kept.1).trans modal.1.starting
    · have same : g.interrupt.phase = g.phase := kept.1
      change R (g.interrupt.outline V _ _)
      rw [Gateway.outline, runs, same]
      exact modal.2
  | note r | send m | await ticket =>
    exact led.after led.underway led.numbered rfl forwarder forwarded goesOn modal
  | _ => exact harmless.elim

/-- The session state is advanced. -/
theorem Minds.updateState (h : s.Minds V (Gateway.Minding V R)) {target : SessionState}
    {R' : Outline → Prop} (becomes : ∀ o, R o → target ≠ .terminated ∧ R' { o with state := target })
    {r : SessionState} (e : s.perform (.updateState target.advanceTo) = some (r, s')) :
    s'.Minds V (Gateway.Minding V R') := by
  refine h.of_perform id e fun g gateway lives led => ?_
  obtain ⟨goesOn, holds⟩ := becomes _ led.mode.2
  obtain ⟨-, forwarder, forwarded⟩ := perform_frame e id
  have state : s'.state = target := by
    rw [(perform_shown e).1]
    exact if_neg led.goesOn
  refine led.after led.underway led.numbered rfl forwarder forwarded (state ▸ goesOn) ?_
  rw [state]
  exact ⟨led.mode.1, holds⟩

/-- The session state is looked at. -/
theorem Minds.read {Q : SessionState → Prop} (h : s.Minds V (Gateway.Minding V (Outline.Held Q)))
    {r : SessionState} (e : s.perform (.updateState id) = some (r, s')) :
    s'.Minds V (Gateway.Minding V (Outline.Held fun state => Q state ∧ r = state)) := by
  cases e
  obtain ⟨tame, g, gateway, known⟩ := h
  refine ⟨tame, g, gateway, fun lives => ?_⟩
  have led := known lives
  obtain ⟨unasked, runs, due, returned, state⟩ := led.mode
  exact led.after led.underway led.numbered rfl rfl rfl led.goesOn
    ⟨unasked, runs, due, returned, state, rfl⟩

/-- What is known if the debuggee does not live. -/
def Unknown (_ : Gateway σ) (_ : Bool) (_ : SessionState) : Prop :=
  False

/-- A command to start or to resume a debuggee that is held is queued. -/
theorem Minds.submit {Q : SessionState → Prop} (h : s.Minds V (Gateway.Minding V (Outline.Held Q)))
    {c : Command} (moves : c.Moves Q) {ticket : Option Ticket}
    (e : s.perform (.submit c) = some (ticket, s')) :
    s'.Minds V (ticket.elim Unknown (Gateway.Awaiting V c Q)) := by
  have on : c ≠ .terminate := by
    rintro rfl
    rcases moves with h | ⟨h, -⟩ <;> cases h
  refine h.of_perform id e fun g gateway lives led => ?_
  obtain ⟨-, forwarder, forwarded⟩ := perform_frame e id
  have state : s'.state = s.state := (perform_shown e).1
  have accepting := led.underway.accepting
  -- the queue is open, so the command has its ticket
  have given : ticket = some g.issued := by
    simp only [System.perform, System.submit, gateway, Gateway.submit_eq accepting, Option.some.injEq,
      Prod.mk.injEq] at e
    exact e.1.symm
  have modal := led.mode
  rw [← state] at modal
  refine led.after (led.underway.submit on) (led.numbered.submit accepting c) ?_ forwarder forwarded
    (state ▸ led.goesOn) ?_
  · exact (g.act_kept (a := .submit c) (by intro same; cases same)).2
  · -- all other commands have lower tickets
    change ticket.elim Unknown (Gateway.Awaiting V c Q) (g.submit c).2 _ _
    rw [given, Gateway.submit_eq accepting]
    refine .queued rfl (fun p mem => ⟨modal.1.queue p mem, ?_⟩) ?_ modal.1.starting modal.2
    · exact Nat.ne_of_lt (led.numbered.queue p mem)
    · exact fun p mem => Nat.ne_of_lt (led.numbered.answers p mem)

/-- Nobody waits in vain as long as the engine thread is at work. -/
private theorem finished_of_await_none {ticket : Ticket} {g : Gateway σ} (gateway : s.gateway = some g)
    (e : s.perform (.await ticket) = some (none, s')) : g.phase = .finished := by
  simp only [System.perform, gateway] at e
  split at e
  · cases e
  · split at e
    · next finished =>
      cases hp : g.phase <;> simp [hp, Phase.isFinished] at finished
      rfl
    · cases e

/-- The answer to the command tells what it has done. -/
theorem Minds.await {ticket : Ticket} {c : Command} {Q : SessionState → Prop}
    (h : s.Minds V (Gateway.Awaiting V c Q ticket)) {r : Option Reply}
    (e : s.perform (.await ticket) = some (r, s')) :
    s'.Minds V (r.elim Unknown fun r => Gateway.Minding V (Gateway.Told c Q r)) := by
  obtain ⟨rfl, given⟩ := perform_await e
  obtain ⟨tame, g, gateway, known⟩ := h
  refine ⟨tame, g, gateway, fun lives => ?_⟩
  have led := known lives
  -- without an answer the engine thread has finished, which a debuggee that lives excludes
  cases r with
  | none =>
    have phase := led.underway.phase
    rw [finished_of_await_none gateway e] at phase
    exact phase.elim
  -- the answer is that of the command
  | some r =>
    obtain ⟨g', same, answer⟩ := given rfl
    obtain rfl := Option.some.inj (gateway.symm.trans same)
    refine { led with mode := ?_ }
    -- the command has its answer, so it is neither in the queue nor kept until the first stop
    have unanswered : g.Unanswered ticket → False := by
      intro unanswered
      rw [Gateway.answer?, Option.map_eq_some_iff] at answer
      obtain ⟨p, found, -⟩ := answer
      exact unanswered p (List.mem_of_find?_eq_some found) (by simpa using List.find?_some found)
    cases led.mode with
    | queued queue others unasked => exact (unanswered unasked).elim
    | starting start queue unasked => exact (unanswered unasked).elim
    | answered answer' told =>
      obtain rfl := Option.some.inj (answer.symm.trans answer')
      exact told

end System

end DebugAdapter
