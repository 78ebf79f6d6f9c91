import DebugAdapter.Proofs.GatewayOrder

/-!
# Commands in the order of acceptance

What is observed of a gateway: the commands that were accepted, and those that were carried out. A
command to terminate is the last one that is accepted. The commands that are carried out are the
accepted ones in their order; of those left when the engine thread leaves, one to terminate is carried
out, and the others are dropped.

An answer is given to a command that was carried out, and it is what its handler gave. A debuggee's
start is answered when its first stop was awaited, which is before any further command.

## Key results

- `Gateway.Trace.act`: every action keeps the observed commands in this order
-/

namespace DebugAdapter

variable {σ : Type} [Engine σ]

/-- What comes of a worker in a native wait: the wait is asked for its answer, and callers wake the
engine thread or have it end. -/
inductive Worker.Waits (w₀ : Worker σ) : Worker σ → Prop
  | entered : Waits w₀ w₀
  | asked {w : Worker σ} (h : Waits w₀ w) : Waits w₀ w.awaited
  | interrupted {w : Worker σ} (h : Waits w₀ w) : Waits w₀ (w.onEngine Engine.interrupt)
  | cancelled {w : Worker σ} (h : Waits w₀ w) : Waits w₀ { w with cancelled := true }

/-- The native wait that `w₀` entered has returned with an answer. -/
def Worker.Awaited (w₀ : Worker σ) (answer : Except EngineError (List NativeEvent))
    (w : Worker σ) : Prop :=
  ∃ w', w₀.Waits w' ∧ (Engine.waitForEvent.run w'.engine).1 = some answer ∧
    w = { w'.awaited with cancelled := w.cancelled }

/-- How far the native wait is that `w₀` entered. -/
def Phase.WaitOf (w₀ w : Worker σ) : Phase → Prop
  | .woken _ answer => w₀.Awaited answer w
  | _ => w₀.Waits w

namespace Execution

/-- What comes of carrying out a command. -/
def outcome (e : Execution σ) : Worker.Outcome :=
  ((Worker.execute e.command).run e.worker).1

/-- The worker that has carried out a command. -/
def after (e : Execution σ) : Worker σ :=
  ((Worker.execute e.command).run e.worker).2

/-- An answer is what comes of carrying out the command: at once, or when the first stop of a debuggee
was awaited. -/
def Gives (e : Execution σ) (r : Reply) : Prop :=
  e.outcome = .answered r ∨
  ∃ d answer w, e.outcome = .started d ∧ e.after.Awaited answer w ∧
    r = .launched ((Worker.finishStart d answer).run w).1

end Execution

namespace Gateway

/-- The commands accepted by an action. -/
def acceptedBy (g : Gateway σ) : GatewayAction → List (Ticket × Command)
  | .submit c => (g.submit c).1.toList.map (·, c)
  | .closeQueue => (g.submit .terminate).1.toList.map (·, .terminate)
  | _ => []

/-- The commands carried out by an action. -/
def executedBy (g : Gateway σ) : GatewayAction → List (Execution σ)
  | .advance => g.executions
  | _ => []

/-- The commands accepted and those carried out since a gateway was made. -/
structure Trace (g : Gateway σ) (accepted : List (Ticket × Command))
    (executed : List (Execution σ)) : Prop where
  tickets : accepted.map (·.1) = List.range g.issued
  none_of_accepting : g.accepting = true → ∀ p ∈ accepted, p.2 ≠ .terminate
  last_of_closed : g.accepting = false → ∃ before ticket, accepted = before ++ [(ticket, .terminate)] ∧
    ∀ p ∈ before, p.2 ≠ .terminate
  /-- What was accepted and not carried out is in the queue. -/
  executed_append_queue : g.phase ≠ .finished → executed.map (·.entry) ++ g.queue = accepted
  executed_of_finished : g.phase = .finished → ∃ before rest, accepted = before ++ rest ∧
    executed.map (·.entry) = before ++ rest.filter (·.2 = .terminate)
  answered : ∀ p ∈ g.answers, ∃ e ∈ executed, e.ticket = p.1 ∧ e.Gives p.2
  started : ∀ {ticket d}, g.phase.starting? = some (ticket, d) → ∃ e ∈ executed, e.ticket = ticket ∧
    e.outcome = .started d ∧ g.phase.WaitOf e.after g.worker
  /-- Answers are in the order of the commands, and one that is awaited comes after them. -/
  answers_sublist : (g.answers.map (·.1) ++ (g.phase.starting?.map (·.1)).toList).Sublist
    (executed.map (·.ticket))

/-- A new gateway has accepted and executed nothing. -/
theorem trace_new (engine : σ) (options : GatewayOptions) : (new engine options).Trace [] [] where
  tickets := rfl
  none_of_accepting := nofun
  last_of_closed := nofun
  executed_append_queue := fun _ => rfl
  executed_of_finished := nofun
  answered := nofun
  started := nofun
  answers_sublist := .refl _

namespace Trace

variable {g : Gateway σ} {accepted : List (Ticket × Command)} {executed : List (Execution σ)}

/-- Submitting a command records it as accepted, or leaves the trace as it is where it is refused. -/
theorem submit (h : g.Trace accepted executed) (orderly : g.Orderly) (c : Command) :
    (g.submit c).2.Trace (accepted ++ (g.submit c).1.toList.map (·, c)) executed := by
  unfold Gateway.submit
  by_cases hacc : g.accepting = true
  · -- commands are not accepted any more when the engine thread ends
    have on : g.phase ≠ .finished := by
      intro hp
      rw [orderly.closed_of_leaving (.inr hp)] at hacc
      exact nomatch hacc
    simp only [hacc, if_true, Option.toList_some, List.map_cons, List.map_nil]
    exact
    { h with
      tickets := by
        rw [List.map_append, h.tickets, List.range_succ]
        rfl
      none_of_accepting := by
        intro hc p hp
        rcases List.mem_append.1 hp with hp | hp
        · exact h.none_of_accepting hacc p hp
        · rw [List.mem_singleton.1 hp]
          exact of_decide_eq_true hc
      -- only a command to terminate closes the queue, and it is the last one
      last_of_closed := by
        intro hc
        have hc : c = .terminate := by simpa using hc
        exact ⟨accepted, g.issued, by rw [hc], h.none_of_accepting hacc⟩
      executed_append_queue := by
        intro _
        rw [← List.append_assoc, h.executed_append_queue on]
      executed_of_finished := fun hp => absurd hp on }
  · simp only [if_neg hacc, Option.toList_none, List.map_nil, List.append_nil]
    exact h

/-- What was carried out was accepted, in the same order. -/
theorem entries_sublist (h : g.Trace accepted executed) :
    (executed.map (·.entry)).Sublist accepted := by
  -- before the end what is missing is in the queue; at the end it was dropped
  by_cases hp : g.phase = .finished
  · obtain ⟨before, rest, hacc, hexe⟩ := h.executed_of_finished hp
    rw [hacc, hexe]
    exact (List.Sublist.refl before).append List.filter_sublist
  · rw [← h.executed_append_queue hp]
    exact List.sublist_append_left _ _

/-- The tickets of the commands carried out are in increasing order. -/
theorem pairwise_tickets (h : g.Trace accepted executed) :
    (executed.map (·.ticket)).Pairwise (· < ·) := by
  have tickets : executed.map (·.ticket) = (executed.map (·.entry)).map (·.1) := by
    rw [List.map_map]
    rfl
  rw [tickets]
  -- tickets count up in the order of acceptance
  refine List.Pairwise.sublist (h.entries_sublist.map _) ?_
  rw [h.tickets]
  exact List.pairwise_lt_range

/-! ## Steps of the engine thread -/

omit [Engine σ] in
/-- Where commands are taken, nothing is being started. -/
private theorem starting?_of_idle {phase : Phase} (h : phase = .ready ∨ phase = .draining) :
    phase.starting? = none ∧ phase ≠ .finished := by
  rcases h with rfl | rfl <;> exact ⟨rfl, nofun⟩

/-- A command is carried out; what is answered, or awaited, is that command. -/
private theorem of_execute (h : g.Trace accepted executed) {w : Worker σ} {ticket : Ticket}
    {c : Command} {rest : List (Ticket × Command)} (phase : g.phase = .ready ∨ g.phase = .draining)
    (hq : g.queue = (ticket, c) :: rest) {g' : Gateway σ} (hissued : g'.issued = g.issued)
    (hacc : g'.accepting = g.accepting) (hq' : g'.queue = rest) (on : g'.phase ≠ .finished)
    (answered : ∀ p ∈ g'.answers, p ∈ g.answers ∨
      p.1 = ticket ∧ (⟨ticket, c, w⟩ : Execution σ).Gives p.2)
    (started : ∀ {ticket' d}, g'.phase.starting? = some (ticket', d) → ticket' = ticket ∧
      (⟨ticket, c, w⟩ : Execution σ).outcome = .started d ∧
      g'.phase.WaitOf (⟨ticket, c, w⟩ : Execution σ).after g'.worker)
    (tickets : g'.answers.map (·.1) ++ (g'.phase.starting?.map (·.1)).toList =
      g.answers.map (·.1) ++ [ticket]) :
    g'.Trace accepted (executed ++ [⟨ticket, c, w⟩]) := by
  obtain ⟨idle, off⟩ := starting?_of_idle phase
  exact
  { tickets := hissued ▸ h.tickets
    none_of_accepting := hacc ▸ h.none_of_accepting
    last_of_closed := hacc ▸ h.last_of_closed
    -- the head of the queue has moved to what was executed
    executed_append_queue := by
      intro _
      rw [hq', ← h.executed_append_queue off, hq, List.map_append, List.append_assoc]
      rfl
    executed_of_finished := fun hp => absurd hp on
    answered := by
      intro p hp
      -- an answer was there before, or is what executing this command gives
      rcases answered p hp with hp | ⟨hp, gives⟩
      · obtain ⟨e, he, same⟩ := h.answered p hp
        exact ⟨e, List.mem_append_left _ he, same⟩
      · exact ⟨_, List.mem_append_right _ (List.mem_singleton_self _), hp.symm, gives⟩
    started := by
      intro ticket' d hs
      obtain ⟨rfl, started⟩ := started hs
      exact ⟨_, List.mem_append_right _ (List.mem_singleton_self _), rfl, started⟩
    answers_sublist := by
      have before := h.answers_sublist
      rw [idle, Option.map_none, Option.toList_none, List.append_nil] at before
      rw [tickets, List.map_append]
      exact before.append (.refl _) }

/-- When the engine thread leaves, those of the commands left are carried out that are to terminate. -/
theorem entries_lastExecutions (l : List (Ticket × Command)) (w : Worker σ) :
    (lastExecutions w l).map (·.entry) = l.filter (·.2 = .terminate) := by
  induction l generalizing w with
  | nil => rfl
  | cons head rest ih =>
    obtain ⟨ticket, c⟩ := head
    by_cases hc : c = .terminate
    · subst hc
      rw [List.filter_cons_of_pos (by simp)]
      exact congrArg _ (ih _)
    · rw [List.filter_cons_of_neg (by simpa using hc), lastExecutions_of_ne hc]
      exact ih w

/-- Each of the last commands that is carried out is answered with what its handler gives. -/
theorem answers_foldl_performLast (l : List (Ticket × Command)) (g : Gateway σ) :
    (∀ p ∈ (l.foldl performLast g).answers, p ∈ g.answers ∨
      ∃ e ∈ lastExecutions g.worker l, e.ticket = p.1 ∧ e.Gives p.2) ∧
    (l.foldl performLast g).answers.map (·.1) =
      g.answers.map (·.1) ++ (lastExecutions g.worker l).map (·.ticket) := by
  -- on the commands that are left, from the gateway that has answered those before
  induction l generalizing g with
  | nil => exact ⟨fun p hp => .inl hp, (List.append_nil _).symm⟩
  | cons head rest ih =>
    obtain ⟨ticket, c⟩ := head
    by_cases hc : c = .terminate
    · subst hc
      let done := g.performLast (ticket, .terminate)
      let r := Reply.executed (Worker.terminate.run g.worker).1
      have answers : done.answers = g.answers ++ [(ticket, r)] := rfl
      -- the hypothesis is used for the gateway that has answered the first one
      obtain ⟨given, tickets⟩ := ih done
      refine ⟨fun p hp => ?_, ?_⟩
      · rcases given p hp with hp | ⟨e, he, same⟩
        · rw [answers] at hp
          rcases List.mem_append.1 hp with hp | hp
          · exact .inl hp
          · refine .inr ⟨⟨ticket, .terminate, g.worker⟩, List.mem_cons_self, ?_⟩
            rw [List.mem_singleton.1 hp]
            exact ⟨rfl, .inl rfl⟩
        · exact .inr ⟨e, List.mem_cons_of_mem _ he, same⟩
      · rw [List.foldl_cons, tickets, answers, List.map_append, List.append_assoc]
        rfl
    · -- any other command is dropped unanswered
      rw [List.foldl_cons, performLast_of_ne hc, lastExecutions_of_ne hc]
      exact ih g

/-- Work by which nothing is taken from the queue and nobody gets an answer. -/
private theorem of_work (h : g.Trace accepted executed) {g' : Gateway σ}
    (hissued : g'.issued = g.issued) (hacc : g'.accepting = g.accepting) (hq : g'.queue = g.queue)
    (hanswers : g'.answers = g.answers) (off : g.phase ≠ .finished) (on : g'.phase ≠ .finished)
    (stays : g'.phase.starting? = g.phase.starting?)
    (started : ∀ {w₀ ticket d}, g.phase.starting? = some (ticket, d) → g.phase.WaitOf w₀ g.worker →
      g'.phase.WaitOf w₀ g'.worker) : g'.Trace accepted executed where
  tickets := hissued ▸ h.tickets
  none_of_accepting := hacc ▸ h.none_of_accepting
  last_of_closed := hacc ▸ h.last_of_closed
  executed_append_queue := fun _ => hq ▸ h.executed_append_queue off
  executed_of_finished := fun hp => absurd hp on
  answered := hanswers ▸ h.answered
  started := by
    -- what is being started stays, and its wait goes on
    intro ticket d hs
    rw [stays] at hs
    obtain ⟨e, he, same, outcome, wait⟩ := h.started hs
    exact ⟨e, he, same, outcome, started hs wait⟩
  answers_sublist := by
    rw [stays, hanswers]
    exact h.answers_sublist

/-- Work while no start is awaited. -/
private theorem of_idle_work (h : g.Trace accepted executed) {g' : Gateway σ}
    (hissued : g'.issued = g.issued) (hacc : g'.accepting = g.accepting) (hq : g'.queue = g.queue)
    (hanswers : g'.answers = g.answers) (off : g.phase ≠ .finished) (on : g'.phase ≠ .finished)
    (idle : g.phase.starting? = none) (idle' : g'.phase.starting? = none) :
    g'.Trace accepted executed := by
  refine h.of_work hissued hacc hq hanswers off on (idle'.trans idle.symm) ?_
  intro w₀ ticket d hs
  rw [idle] at hs
  cases hs

/-- A start is answered once its first stop has been awaited, and the wait was that of the start. -/
private theorem finishStart (h : g.Trace accepted executed) {ticket : Ticket} {d : NewDebuggee}
    {answer : Except EngineError (List NativeEvent)}
    (phase : g.phase = .woken (.start ticket d) answer) :
    (({ g with worker := ((Worker.finishStart d answer).run g.worker).2 }.reply ticket
      (.launched ((Worker.finishStart d answer).run g.worker).1)).goto .draining).Trace
        accepted executed := by
  have starting : g.phase.starting? = some (ticket, d) := by rw [phase]; rfl
  have off : g.phase ≠ .finished := by rw [phase]; nofun
  exact
  { h with
    executed_append_queue := fun _ => h.executed_append_queue off
    executed_of_finished := nofun
    answered := by
      intro p hp
      rcases List.mem_append.1 hp with hp | hp
      · exact h.answered p hp
      · -- the new answer belongs to the command whose wait this was
        obtain ⟨e, he, same, outcome, wait⟩ := h.started starting
        rw [phase] at wait
        rw [List.mem_singleton.1 hp]
        exact ⟨e, he, same, .inr ⟨d, answer, g.worker, outcome, wait, rfl⟩⟩
    started := nofun
    -- the ticket of the start was counted among the answers already
    answers_sublist := by
      have before := h.answers_sublist
      rw [starting] at before
      refine (List.append_nil _).symm ▸ ?_
      rw [goto, reply, List.map_append]
      exact before }

/-- The engine thread leaves: what is in the queue is carried out or dropped. -/
private theorem leave (h : g.Trace accepted executed) (off : g.phase ≠ .finished)
    (idle : g.phase.starting? = none) :
    g.leave.Trace accepted (executed ++ lastExecutions g.worker g.queue) := by
  obtain ⟨given, tickets⟩ := answers_foldl_performLast g.queue { g with queue := [] }
  rw [leave_eq]
  exact
  { tickets := h.tickets
    none_of_accepting := h.none_of_accepting
    last_of_closed := h.last_of_closed
    executed_append_queue := fun on => absurd rfl on
    -- what is left in the queue is either carried out or dropped
    executed_of_finished := by
      intro _
      refine ⟨executed.map (·.entry), g.queue, (h.executed_append_queue off).symm, ?_⟩
      rw [List.map_append, entries_lastExecutions]
    answered := by
      intro p hp
      -- an answer was there before, or is given to one of the last commands now
      rcases given p hp with hp | ⟨e, he, same⟩
      · obtain ⟨e, he, same⟩ := h.answered p hp
        exact ⟨e, List.mem_append_left _ he, same⟩
      · exact ⟨e, List.mem_append_right _ he, same⟩
    started := nofun
    answers_sublist := by
      have before := h.answers_sublist
      simp only [idle, Option.map_none, Option.toList_none, List.append_nil] at before
      simp only [Phase.starting?, Option.map_none, Option.toList_none, List.append_nil]
      rw [tickets, List.map_append]
      exact before.append (.refl _) }

/-- A step of the engine thread: most of them carry out nothing (`of_idle_work`, `of_work`,
`finishStart`), two carry out the oldest command (`of_execute`), and the last one the rest. -/
theorem advance (h : g.Trace accepted executed) :
    g.advance.Trace accepted (executed ++ g.executions) := by
  have step := advance_spec g
  generalize g.executions = executions, g.advance = g' at step ⊢
  cases step with
  | begin phase =>
    -- a step that executes nothing leaves the list of executions as it is
    rw [List.append_nil]
    exact h.of_idle_work rfl rfl rfl rfl (by rw [phase]; nofun) nofun (by rw [phase]; rfl) rfl
  | work quiet idle off on =>
    rw [List.append_nil]
    exact h.of_idle_work rfl rfl rfl rfl off.2 on.2 idle.1 idle.2
  | @wait purpose phase =>
    rw [List.append_nil]
    have off : g.phase ≠ .finished := by rcases phase with e | e <;> rw [e] <;> nofun
    refine h.of_work rfl rfl rfl rfl off (Phase.afterWait_ne _ _).2
      (Phase.starting?_afterWait phase _) ?_
    intro w₀ ticket d _ wait
    -- a wait for a start goes on with the worker the command has left
    have wait : w₀.Waits g.worker := by rcases phase with e | e <;> rwa [e] at wait
    cases answer : (Engine.waitForEvent.run g.engine).1 with
    | none => exact wait.asked
    | some answer' => exact ⟨g.worker, wait, answer, rfl⟩
  | finishStart phase =>
    rw [List.append_nil]
    exact h.finishStart phase
  -- the command taken is the next of those accepted
  | answered quiet phase queue outcome =>
    refine h.of_execute phase queue rfl rfl rfl nofun ?_ nofun ?_
    · intro p hp
      rcases List.mem_append.1 hp with hp | hp
      · exact .inl hp
      · rw [List.mem_singleton.1 hp]
        exact .inr ⟨rfl, .inl outcome⟩
    · exact (List.append_nil _).trans List.map_append
  | started quiet phase queue outcome =>
    refine h.of_execute phase queue rfl rfl rfl nofun (fun p hp => .inl hp) ?_ rfl
    intro ticket' d hs
    obtain ⟨rfl, rfl⟩ := Prod.mk.inj (Option.some.inj hs)
    exact ⟨rfl, outcome, .entered⟩
  | giveUp quiet phase queue closed =>
    obtain ⟨idle, off⟩ := starting?_of_idle phase
    rw [List.append_nil]
    exact h.of_idle_work rfl rfl rfl rfl off nofun idle rfl
  | decide phase cancelled =>
    rw [List.append_nil]
    exact h.of_idle_work rfl rfl rfl rfl (by rw [phase]; nofun) nofun (by rw [phase]; rfl) rfl
  | leave phase => exact h.leave (by rw [phase]; nofun) (by rw [phase]; rfl)
  | stay phase =>
    rw [List.append_nil]
    exact h

/-! ## All actions -/

/-- Interrupting a wait keeps the trace: the wait it meets goes on as an interrupted one. -/
theorem interrupt (h : g.Trace accepted executed) : g.interrupt.Trace accepted executed := by
  unfold Gateway.interrupt
  split
  · next waiting =>
    exact
    { h with
      started := by
        intro ticket d hs
        obtain ⟨e, he, same, outcome, wait⟩ := h.started hs
        refine ⟨e, he, same, outcome, ?_⟩
        generalize g.phase = phase at waiting wait
        cases phase with
        | waiting purpose => exact Worker.Waits.interrupted wait
        | _ => exact nomatch waiting }
  · exact h

/-- Cancelling keeps the trace: a wait goes on as a cancelled one, and one that has returned keeps its answer. -/
theorem cancel (h : g.Trace accepted executed) : g.cancel.Trace accepted executed :=
  { h with
    started := by
      intro ticket d hs
      obtain ⟨e, he, same, outcome, wait⟩ := h.started hs
      refine ⟨e, he, same, outcome, ?_⟩
      change g.phase.WaitOf e.after { g.worker with cancelled := true }
      cases hp : g.phase with
      -- a wait that has returned is not undone by cancelling
      | woken purpose answer =>
        rw [hp] at wait
        obtain ⟨w', waits, returned, hw⟩ := wait
        refine ⟨w', waits, returned, ?_⟩
        rw [hw]
      | _ =>
        rw [hp] at wait
        exact Worker.Waits.cancelled wait }

/-- An action adds the commands that it accepts and those that it carries out. -/
theorem act (h : g.Trace accepted executed) (orderly : g.Orderly) (a : GatewayAction) :
    (g.act a).Trace (accepted ++ g.acceptedBy a) (executed ++ g.executedBy a) := by
  have same : ∀ {g' : Gateway σ}, g'.Trace accepted executed →
      g'.Trace (accepted ++ []) (executed ++ []) := by
    intro g' h
    rw [List.append_nil, List.append_nil]
    exact h
  -- each action accepts commands or executes some, and never both
  cases a with
  | submit c => exact (List.append_nil executed).symm ▸ h.submit orderly c
  | closeQueue => exact (List.append_nil executed).symm ▸ h.submit orderly .terminate
  | advance => exact (List.append_nil accepted).symm ▸ h.advance
  | interrupt => exact same h.interrupt
  | markDisposed => exact same { h with }
  | cancel => exact same h.cancel
  | silence => exact same { h with }

end Trace

end Gateway

end DebugAdapter
