import DebugAdapter.Proofs.EngineJournal
import DebugAdapter.Proofs.GatewayTrace
import DebugAdapter.Scripted.Engine

/-!
# The life of a gateway

Any number of callers act on a gateway while its engine thread runs. A call is carried out action by
action, and others act between: callers, and the engine thread. So a run is a list of turns, and what
holds of all lists holds however the callers and the engine thread are scheduled.

## Key results

- `Observed.Sound.take`: every turn keeps what is known of commands, answers and the journal
- `Observed.recorded_run`: what goes with what is put down step by step goes with it after all turns
- `Observed.run_lawful`: commands are accepted, carried out and answered in order, and the engine is let
  go once, after all that was taken from it
-/

namespace DebugAdapter

variable {σ : Type}

/-! ## The journal of a gateway -/

namespace Gateway

variable [Engine σ]

/-- The engine of a gateway is accounted for until it is let go, which is the last that is done. -/
structure Settled (g : Gateway (Journaled σ)) : Prop where
  accounted : g.phase ≠ .finished → g.worker.Accounted []
  released : g.phase = .finished → ∃ before, g.engine.journal = before ++ [.released] ∧
    .released ∉ before ∧ before.count .sessionEnded = 1 ∧
    ∀ id, before.count (.groupOpened id) = before.count (.groupReleased id)

/-- Executing any command keeps the groups accounted for. -/
private theorem accounted_executeAny {w : Worker (Journaled σ)} (h : w.Accounted []) (c : Command) :
    ((Worker.execute c).run w).2.Accounted [] := by
  by_cases hc : c = .terminate
  · subst hc
    exact h.terminate
  · exact Worker.accounted_execute hc w h

/-- Carrying out the last commands keeps the groups accounted for. -/
private theorem accounted_foldl_performLast (l : List (Ticket × Command))
    {g : Gateway (Journaled σ)} (h : g.worker.Accounted []) :
    (l.foldl performLast g).worker.Accounted [] := by
  induction l generalizing g with
  | nil => exact h
  | cons head rest ih =>
    obtain ⟨ticket, c⟩ := head
    rw [List.foldl_cons]
    by_cases hc : c = .terminate
    · subst hc
      exact ih h.terminate
    · rw [performLast_of_ne hc]
      exact ih h

namespace Settled

variable {g : Gateway (Journaled σ)}

omit [Engine σ] in
/-- While the engine thread runs, it is enough that the groups are accounted for. -/
private theorem of_accounted {g : Gateway (Journaled σ)} (h : g.worker.Accounted [])
    (on : g.phase ≠ .finished) : g.Settled :=
  ⟨fun _ => h, fun hp => absurd hp on⟩

/-- A step of the engine thread settles what it has opened. -/
theorem advance (h : g.Settled) : g.advance.Settled := by
  -- quiet work opens and releases groups in pairs
  have quiet : ∀ {w : Worker (Journaled σ)}, g.phase ≠ .finished → g.worker.Quiet w →
      w.Accounted [] :=
    fun on q => q _ (Worker.accounted_frame []).toFrame (h.accounted on)
  have on : ∀ {phase}, g.phase = phase → phase ≠ .finished → g.phase ≠ .finished :=
    fun e hp => e ▸ hp
  have idle : g.phase = .ready ∨ g.phase = .draining → g.phase ≠ .finished := by
    rintro (e | e) <;> exact on e nofun
  have step := advance_spec g
  generalize g.executions = executions, g.advance = g' at step ⊢
  -- each step is quiet work, a command, or the end of the thread
  cases step with
  | begin phase =>
    have cleared := Worker.accounted_breakpointFrame.breakpointCall .clearBreakpoints _
      (h.accounted (on phase nofun))
    exact of_accounted cleared nofun
  | work q idle off on' => exact of_accounted (quiet off.2 q) on'.2
  | @wait purpose phase =>
    have off : g.phase ≠ .finished := by rcases phase with e | e <;> exact on e nofun
    exact of_accounted (quiet off (Worker.quiet_awaited _)) (Phase.afterWait_ne _ _).2
  | finishStart phase =>
    exact of_accounted (quiet (on phase nofun) (Worker.quiet_finishStart _ _ _)) nofun
  | answered q phase queue outcome =>
    exact of_accounted (accounted_executeAny (quiet (idle phase) q) _) nofun
  | started q phase queue outcome =>
    exact of_accounted (accounted_executeAny (quiet (idle phase) q) _) nofun
  | giveUp q phase queue closed =>
    exact of_accounted ((quiet (idle phase) q).congr rfl rfl rfl) nofun
  | decide phase cancelled => exact of_accounted (h.accounted (on phase nofun)) nofun
  | leave phase =>
    rw [leave_eq]
    -- the commands that are left may end the session, and then all groups are released
    have last := accounted_foldl_performLast g.queue (g := { g with queue := [] })
      (h.accounted (on phase nofun))
    exact ⟨fun hp => absurd rfl hp, fun _ => Worker.journal_release last⟩
  | stay phase => exact h

/-- Any action keeps a gateway settled. -/
theorem act (h : g.Settled) (a : GatewayAction) : (g.act a).Settled := by
  -- what callers do opens no groups; the step of the engine thread is the lemma before
  cases a with
  | submit c =>
    simp only [Gateway.act, Gateway.submit]
    split
    · exact { h with }
    · exact h
  | closeQueue =>
    simp only [Gateway.act, Gateway.closeQueue, Gateway.submit]
    split
    · exact { h with }
    · exact h
  | interrupt =>
    simp only [Gateway.act, Gateway.interrupt]
    split
    · next hw =>
      -- only a wait is interrupted, and a gateway that has finished waits for nothing
      have on : g.phase ≠ .finished := by
        intro hp
        rw [hp] at hw
        cases hw
      exact of_accounted ((h.accounted on).congr rfl rfl rfl) on
    · exact h
  | cancel => exact ⟨fun on => (h.accounted on).congr rfl rfl rfl, h.released⟩
  | markDisposed => exact { h with }
  | silence => exact { h with }
  | advance => exact h.advance

end Settled

end Gateway

/-! ## Callers -/

/-- What a caller does at a gateway. -/
inductive GatewayCall
  | submit (c : Command)
  | interrupt
  | pause
  | terminate
  | dispose
  deriving DecidableEq, Repr

namespace GatewayCall

/-- The first action of a call. -/
def first : GatewayCall → GatewayAction
  | submit c => .submit c
  | interrupt => .interrupt
  | pause => .submit .pause
  | terminate => .submit .terminate
  | dispose => .markDisposed

/-- What a call goes on with after its first action on `g`. A call whose command is refused ends there,
and so does a disposal if there was one before. -/
def rest (g : Gateway σ) : GatewayCall → List GatewayAction
  | submit _ | interrupt => []
  | pause | terminate => if g.accepting then [.interrupt] else []
  | dispose => if g.disposed then [] else [.closeQueue, .cancel, .interrupt, .silence]

/-- The actions do not have the engine thread end before commands are refused. -/
def Careful (accepting : Bool) : List GatewayAction → Prop
  | [] => True
  | a :: rest => a = .closeQueue ∨ (a = .cancel → accepting = false) ∧ Careful accepting rest

/-- Where no command is accepted, all actions are careful. -/
theorem careful_of_closed (actions : List GatewayAction) : Careful false actions := by
  induction actions with
  | nil => trivial
  | cons a rest ih => exact .inr ⟨fun _ => rfl, ih⟩

/-- What is careful while commands are accepted is careful when they are not. -/
theorem Careful.mono {accepting accepting' : Bool} {actions : List GatewayAction}
    (h : Careful accepting actions) (le : accepting' = true → accepting = true) :
    Careful accepting' actions := by
  cases accepting' with
  | false => exact careful_of_closed actions
  | true => rwa [le rfl] at h

/-- A call is careful in what is left of it. -/
theorem careful_rest (accepting : Bool) (g : Gateway σ) (c : GatewayCall) :
    Careful accepting (c.rest g) := by
  -- only disposal cancels, and it closes the queue before
  cases c with
  | submit c => trivial
  | interrupt => trivial
  | pause | terminate =>
    simp only [rest]
    split
    · exact .inr ⟨nofun, trivial⟩
    · trivial
  | dispose =>
    simp only [rest]
    split
    · trivial
    · exact .inl rfl

/-- The first action of a call is allowed at any time. -/
theorem allowed_first (g : Gateway σ) (c : GatewayCall) : c.first.AllowedIn g := by
  cases c <;> trivial

variable [Engine σ] {g : Gateway σ} {a : GatewayAction} {actions : List GatewayAction}

omit [Engine σ] in
/-- The next action of a careful call is allowed. -/
theorem Careful.allowed (h : Careful g.accepting (a :: actions)) : a.AllowedIn g := by
  rcases h with rfl | ⟨h, -⟩
  · trivial
  · cases a with
    | cancel => exact h rfl
    | _ => trivial

/-- After an action of a careful call, the rest of the call is careful. -/
theorem Careful.act (h : Careful g.accepting (a :: actions)) :
    Careful (g.act a).accepting actions := by
  rcases h with rfl | ⟨-, h⟩
  · rw [Gateway.act, Gateway.closeQueue, Gateway.accepting_submit_terminate]
    exact careful_of_closed actions
  · exact h.mono (Gateway.later_act _ a).accepting

end GatewayCall

/-- Who acts next. -/
inductive Turn
  /-- The engine thread makes a step. -/
  | engine
  /-- A caller begins a call. -/
  | call (c : GatewayCall)
  /-- The call with a number, in the order in which they were begun, goes on. -/
  | proceed (i : Nat)
  deriving DecidableEq, Repr

/-- A gateway with its callers, and what was observed of it. -/
structure Observed (σ : Type) where
  gateway : Gateway σ
  /-- What the calls are still to do. -/
  calls : List (List GatewayAction) := []
  /-- The commands accepted, oldest first. -/
  accepted : List (Ticket × Command) := []
  /-- The commands carried out, oldest first. -/
  executed : List (Execution σ) := []

namespace Observed

variable [Engine σ]

/-- An action at the gateway, with what it accepts and what it carries out. -/
def act (o : Observed σ) (a : GatewayAction) : Observed σ :=
  { o with
    gateway := o.gateway.act a
    accepted := o.accepted ++ o.gateway.acceptedBy a
    executed := o.executed ++ o.gateway.executedBy a }

/-- A new gateway, without callers yet. -/
def new (engine : σ) (options : GatewayOptions) : Observed σ :=
  { gateway := .new engine options }

/-- What happens in a turn. -/
def take (o : Observed σ) : Turn → Observed σ
  | .engine => o.act .advance
  | .call c => { o.act c.first with calls := o.calls ++ [c.rest o.gateway] }
  | .proceed i =>
    match o.calls[i]? with
    | some (a :: rest) => { o.act a with calls := o.calls.set i rest }
    | _ => o

/-- What was observed after turns. -/
def run (o : Observed σ) (turns : List Turn) : Observed σ :=
  turns.foldl take o

/-- What all actions keep, with what they add to the lists, is kept by all turns. -/
theorem run_induction {P : Gateway σ → List (Ticket × Command) → List (Execution σ) → Prop}
    (act : ∀ {g accepted executed}, P g accepted executed → ∀ a,
      P (g.act a) (accepted ++ g.acceptedBy a) (executed ++ g.executedBy a))
    {o : Observed σ} (h : P o.gateway o.accepted o.executed) (turns : List Turn) :
    P (o.run turns).gateway (o.run turns).accepted (o.run turns).executed := by
  induction turns generalizing o with
  | nil => exact h
  | cons t turns ih =>
    refine ih ?_
    -- each turn is one action, of the engine thread or of a caller
    cases t with
    | engine => exact act h .advance
    | call c => exact act h c.first
    | proceed i =>
      simp only [take]
      split
      · exact act h _
      · exact h

/-- What was accepted stays accepted. -/
theorem accepted_run (o : Observed σ) (turns : List Turn) :
    ∃ later, (o.run turns).accepted = o.accepted ++ later := by
  refine run_induction (P := fun _ accepted _ => ∃ later, accepted = o.accepted ++ later) ?_
    ⟨[], (List.append_nil _).symm⟩ turns
  rintro g _ executed ⟨later, rfl⟩ a
  exact ⟨later ++ g.acceptedBy a, List.append_assoc ..⟩

/-- Turns that are taken one after the other can be split anywhere. -/
theorem run_append (o : Observed σ) (turns later : List Turn) :
    o.run (turns ++ later) = (o.run turns).run later :=
  List.foldl_append

/-! ## The invariant of all turns -/

/-- What is known of a gateway and its callers at any time. -/
structure Sound (o : Observed σ) : Prop where
  orderly : o.gateway.Orderly
  trace : o.gateway.Trace o.accepted o.executed
  careful : ∀ actions ∈ o.calls, GatewayCall.Careful o.gateway.accepting actions

/-- A new gateway is soundly observed. -/
theorem sound_new (engine : σ) (options : GatewayOptions) : (new engine options).Sound where
  orderly := Gateway.orderly_new _ _
  trace := Gateway.trace_new _ _
  careful := nofun

namespace Sound

variable {o : Observed σ}

/-- An allowed action, after which the calls are as they are given. -/
private theorem act (h : o.Sound) {a : GatewayAction} (allowed : a.AllowedIn o.gateway)
    {calls : List (List GatewayAction)} (careful : ∀ actions ∈ calls, actions ∈ o.calls ∨
      GatewayCall.Careful (o.gateway.act a).accepting actions) :
    Sound { o.act a with calls } where
  orderly := h.orderly.act allowed
  trace := h.trace.act h.orderly a
  careful := by
    intro actions hmem
    rcases careful actions hmem with known | careful
    · exact (h.careful actions known).mono (Gateway.later_act _ a).accepting
    · exact careful

/-- Taking a turn keeps what is observed sound. -/
theorem take (h : o.Sound) (t : Turn) : (o.take t).Sound := by
  -- a turn of the engine thread, a new call, or an action of a call that was begun
  cases t with
  | engine => exact h.act (a := .advance) trivial fun actions hmem => .inl hmem
  | call c =>
    refine h.act (GatewayCall.allowed_first _ c) fun actions hmem => ?_
    rcases List.mem_append.1 hmem with hmem | hmem
    · exact .inl hmem
    · rw [List.mem_singleton.1 hmem]
      exact .inr (GatewayCall.careful_rest _ _ _)
  | proceed i =>
    simp only [Observed.take]
    split
    · next a rest hi =>
      have careful := h.careful (a :: rest) (List.mem_of_getElem? hi)
      refine h.act careful.allowed fun actions hmem => ?_
      rcases List.mem_or_eq_of_mem_set hmem with hmem | rfl
      · exact .inl hmem
      · exact .inr careful.act
    · exact h

/-- A run keeps what is observed sound. -/
theorem run (h : o.Sound) (turns : List Turn) : (o.run turns).Sound := by
  induction turns generalizing o with
  | nil => exact h
  | cons t turns ih => exact ih (h.take t)

/-! ## What follows from it -/

/-- A command to terminate is the last one that is accepted, and there are no two. -/
theorem eq_nil_of_accepted (h : o.Sound) {before after : List (Ticket × Command)} {ticket : Ticket}
    (eq : o.accepted = before ++ (ticket, .terminate) :: after) : after = [] := by
  cases hacc : o.gateway.accepting with
  | true =>
    refine absurd rfl (h.trace.none_of_accepting hacc (ticket, .terminate) ?_)
    rw [eq]
    exact List.mem_append_right _ List.mem_cons_self
  | false =>
    obtain ⟨others, last, heq, hothers⟩ := h.trace.last_of_closed hacc
    rcases List.eq_nil_or_concat after with rfl | ⟨init, p, rfl⟩
    · rfl
    · -- one that is not the last is among the others
      have inits : others = before ++ (ticket, .terminate) :: init := by
        have both := heq.symm.trans eq
        rw [List.concat_eq_append, ← List.cons_append, ← List.append_assoc] at both
        exact List.append_inj_left' both rfl
      refine absurd rfl (hothers (ticket, .terminate) ?_)
      rw [inits]
      exact List.mem_append_right _ List.mem_cons_self

/-- With a command to terminate accepted, commands are refused. -/
theorem closed_of_accepted (h : o.Sound) {ticket : Ticket} (mem : (ticket, .terminate) ∈ o.accepted) :
    o.gateway.accepting = false := by
  cases hacc : o.gateway.accepting with
  | false => rfl
  | true => exact absurd rfl (h.trace.none_of_accepting hacc _ mem)

/-- What is carried out are the oldest of the accepted commands, and then at most the one to
terminate. -/
theorem executed_eq (h : o.Sound) : ∃ before rest, o.accepted = before ++ rest ∧
    (o.executed.map (·.entry) = before ∨ ∃ ticket skipped, rest = skipped ++ [(ticket, .terminate)] ∧
      o.executed.map (·.entry) = before ++ [(ticket, .terminate)]) := by
  -- a thread that has ended has skipped what stood before the command to terminate, one that runs has it
  -- queued
  by_cases hp : o.gateway.phase = .finished
  · obtain ⟨before, rest, hacc, hexe⟩ := h.trace.executed_of_finished hp
    refine ⟨before, rest, hacc, ?_⟩
    obtain ⟨others, ticket, heq, hothers⟩ := h.trace.last_of_closed (h.orderly.closed_of_leaving (.inr hp))
    rcases List.eq_nil_or_concat rest with rfl | ⟨skipped, p, rfl⟩
    · exact .inl (by rw [hexe, List.filter_nil, List.append_nil])
    · rw [List.concat_eq_append] at hacc hexe ⊢
      have both := heq.symm.trans hacc
      rw [← List.append_assoc] at both
      obtain ⟨hinit, hlast⟩ := List.append_inj' both rfl
      obtain rfl : p = (ticket, .terminate) := (List.cons.inj hlast).1.symm
      -- none of those that are skipped is to terminate
      have none : skipped.filter (·.2 = .terminate) = [] := by
        rw [List.filter_eq_nil_iff]
        intro q hq
        have := hothers q (hinit ▸ List.mem_append_right _ hq)
        simpa using this
      refine .inr ⟨ticket, skipped, rfl, ?_⟩
      rw [hexe, List.filter_append, none, List.nil_append]
      rfl
  · exact ⟨o.executed.map (·.entry), o.gateway.queue, (h.trace.executed_append_queue hp).symm, .inl rfl⟩

/-- No command is answered twice. -/
theorem nodup_answers (h : o.Sound) : (o.gateway.answers.map (·.1)).Nodup :=
  ((List.sublist_append_left _ _).trans h.trace.answers_sublist).nodup
    (h.trace.pairwise_tickets.imp Nat.ne_of_lt)

end Sound

/-- How commands are accepted, carried out and answered. -/
structure Lawful (o : Observed σ) : Prop where
  /-- A ticket is the place of a command among those accepted. -/
  tickets : o.accepted.map (·.1) = List.range o.accepted.length
  /-- A command to terminate is the last one accepted. -/
  eq_nil_of_accepted : ∀ {before after ticket},
    o.accepted = before ++ (ticket, .terminate) :: after → after = []
  /-- After it, commands are refused forever. -/
  refused : ∀ {ticket}, (ticket, .terminate) ∈ o.accepted → ∀ turns c,
    ((o.run turns).gateway.submit c).1 = none ∧ (o.run turns).accepted = o.accepted
  /-- The oldest of the accepted commands are carried out, and then at most the one to terminate. -/
  executed_eq : ∃ before rest, o.accepted = before ++ rest ∧
    (o.executed.map (·.entry) = before ∨ ∃ ticket skipped, rest = skipped ++ [(ticket, .terminate)] ∧
      o.executed.map (·.entry) = before ++ [(ticket, .terminate)])
  nodup_answers : (o.gateway.answers.map (·.1)).Nodup
  /-- An answer is what the handler of its command gave. -/
  answered : ∀ p ∈ o.gateway.answers, ∃ e ∈ o.executed, e.ticket = p.1 ∧ e.Gives p.2
  /-- An engine thread that has ended has carried out a command to terminate, and published once that
  the session is over. -/
  terminated : o.gateway.phase = .finished → (∃ ticket, (ticket, .terminate) ∈ o.accepted) ∧
    o.gateway.worker.published.count .terminated = 1

/-- What is soundly observed obeys the rules of execution. -/
theorem Sound.lawful {o : Observed σ} (h : o.Sound) : o.Lawful where
  tickets := by
    have issued : o.accepted.length = o.gateway.issued := by
      rw [← List.length_map (·.1), h.trace.tickets, List.length_range]
    rw [issued, h.trace.tickets]
  eq_nil_of_accepted := h.eq_nil_of_accepted
  refused := by
    intro ticket mem turns c
    -- whatever happens afterwards, the command to terminate stays the last one that was accepted
    have h' := h.run turns
    obtain ⟨later, hlater⟩ := o.accepted_run turns
    have mem' : (ticket, .terminate) ∈ (o.run turns).accepted := by
      rw [hlater]
      exact List.mem_append_left _ mem
    refine ⟨?_, ?_⟩
    · rw [Gateway.submit, h'.closed_of_accepted mem']
      rfl
    · -- what came later would come after the command to terminate
      obtain ⟨before, after, heq⟩ := List.append_of_mem mem
      rw [heq, List.append_assoc] at hlater
      obtain ⟨-, hnil⟩ := List.append_eq_nil_iff.1 (h'.eq_nil_of_accepted hlater)
      rw [hlater, hnil, List.append_nil, heq]
  executed_eq := h.executed_eq
  nodup_answers := h.nodup_answers
  answered := h.trace.answered
  terminated := by
    intro finished
    -- a gateway that has finished was closed by a command to terminate
    obtain ⟨before, ticket, heq, -⟩ :=
      h.trace.last_of_closed (h.orderly.closed_of_leaving (.inr finished))
    refine ⟨⟨ticket, ?_⟩, h.orderly.count_terminated finished⟩
    rw [heq]
    exact List.mem_append_right _ (List.mem_singleton_self _)

/-- However callers and the engine thread take turns at a new gateway, commands are accepted, carried
out and answered in order. When the engine thread has ended, the native session was ended once and all
symbol groups were released, and the engine was let go last. -/
theorem run_lawful (engine : σ) (options : GatewayOptions) (turns : List Turn) :
    ((new engine options).run turns).Lawful ∧
    (((new (⟨engine, []⟩ : Journaled σ) options).run turns).gateway.phase = .finished → ∃ before,
      ((new (⟨engine, []⟩ : Journaled σ) options).run turns).gateway.engine.journal =
        before ++ [.released] ∧
      .released ∉ before ∧ before.count .sessionEnded = 1 ∧
      ∀ id, before.count (.groupOpened id) = before.count (.groupReleased id)) := by
  refine ⟨((sound_new engine options).run turns).lawful, ?_⟩
  have settled : (new (⟨engine, []⟩ : Journaled σ) options).gateway.Settled :=
    ⟨fun _ => Worker.accounted_new engine options, nofun⟩
  exact (run_induction (P := fun g _ _ => g.Settled) (fun h a => h.act a) settled turns).released

/-- A debuggee with a frame that has a variable. -/
def oneVariable : Scripted.World where
  callStacks := [(1, [⟨0x1000, 0⟩])]
  symbols := [("Locals", [some ⟨"x", "u64", "7", 0, 0x100, 1, none, 0⟩])]

/-- The variable is shown, and then the gateway is disposed of while a command is queued. -/
def disposedEarly : List Turn :=
  ([.launch ⟨"app", "app", [], []⟩, .stackTrace 1, .scopes ⟨2⟩, .variables ⟨3⟩] : List Command).map
      (fun c => Turn.call (.submit c)) ++ List.replicate 8 .engine ++
    [.call (.submit .threads), .call .dispose, .proceed 5, .proceed 5, .engine, .engine, .engine]

/-- A run to its end: four commands are carried out and answered, one that is still queued when the gateway is
disposed of is not, and the command to terminate is. The group that was handed out for the variables is
released before the engine. -/
theorem run_lawful_disposedEarly :
    let o := (new (⟨oneVariable, []⟩ : Journaled Scripted.World) {}).run disposedEarly
    o.gateway.phase = .finished ∧
      o.accepted.map (·.2.name) = ["launch", "stackTrace", "scopes", "variables", "threads", "terminate"] ∧
      o.executed.map (·.command.name) = ["launch", "stackTrace", "scopes", "variables", "terminate"] ∧
      o.gateway.answers.map (·.1) = [0, 1, 2, 3, 5] ∧
      o.gateway.engine.journal =
        [.groupOpened ⟨0⟩, .sessionEnded, .groupReleased ⟨0⟩, .released] ∧
      o.Lawful ∧
      ∃ before, o.gateway.engine.journal = before ++ [.released] ∧
        .released ∉ before ∧ before.count .sessionEnded = 1 ∧
        ∀ id, before.count (.groupOpened id) = before.count (.groupReleased id) := by
  intro o
  have ended : o.gateway.phase.isFinished = true := by decide +kernel
  -- the phase has no decidable equality, for it may hold events
  have finished : o.gateway.phase = .finished := by
    cases phase : o.gateway.phase <;> rw [phase] at ended <;> first | rfl | cases ended
  refine ⟨finished, by decide +kernel, by decide +kernel, by decide +kernel, by decide +kernel, ?_, ?_⟩
  · exact (run_lawful (⟨oneVariable, []⟩ : Journaled Scripted.World) {} disposedEarly).1
  · exact (run_lawful oneVariable {} disposedEarly).2 finished

end Observed

/-! ## What is put down of a run -/

/-- Only the engine thread makes its steps. -/
theorem GatewayCall.advance_notMem_rest (g : Gateway σ) (c : GatewayCall) : .advance ∉ c.rest g := by
  cases c with
  | submit c | interrupt => exact List.not_mem_nil
  | pause | terminate | dispose =>
    simp only [rest]
    split <;> simp

namespace Observed

variable [Engine σ] {R : Type}

/-- What is put down of turns, where `f` adds what there is to say of a step of the engine thread. -/
def recorded (f : Gateway σ → R → R) (o : Observed σ) (r : R) : List Turn → R
  | [] => r
  | .engine :: turns => (o.take .engine).recorded f (f o.gateway r) turns
  | t :: turns => (o.take t).recorded f r turns

/-- What goes with what was put down, goes with it after all turns. -/
theorem recorded_run {f : Gateway σ → R → R} {P : R → Gateway σ → Prop}
    (advance : ∀ {g r}, P r g → P (f g r) g.advance)
    (act : ∀ {g r}, P r g → ∀ {a : GatewayAction}, a ≠ .advance → P r (g.act a))
    {o : Observed σ} {r : R} (h : P r o.gateway) (callers : ∀ actions ∈ o.calls, .advance ∉ actions)
    (turns : List Turn) : P (o.recorded f r turns) (o.run turns).gateway := by
  -- on the turns, with the record so far and the calls that are still open
  induction turns generalizing o r with
  | nil => exact h
  | cons t turns ih =>
    cases t with
    | engine => exact ih (o := o.take .engine) (advance h) callers
    -- the first action of a call is made at once, and the rest of the call is left open
    | call c =>
      refine ih (o := o.take (.call c)) (act h (by cases c <;> nofun)) ?_
      intro actions mem
      rcases List.mem_append.1 mem with mem | mem
      · exact callers actions mem
      · rw [List.mem_singleton.1 mem]
        exact GatewayCall.advance_notMem_rest o.gateway c
    | proceed i =>
      -- a call that goes on makes one action of those that are left to it, which is no step of the engine
      have step : P r (o.take (.proceed i)).gateway ∧
          ∀ actions ∈ (o.take (.proceed i)).calls, .advance ∉ actions := by
        simp only [take]
        split
        · next a rest hi =>
          have own := callers (a :: rest) (List.mem_of_getElem? hi)
          refine ⟨act h fun e => own (e ▸ List.mem_cons_self), fun actions mem => ?_⟩
          rcases List.mem_or_eq_of_mem_set mem with mem | rfl
          · exact callers actions mem
          · exact fun mem => own (List.mem_cons_of_mem _ mem)
        · exact ⟨h, callers⟩
      exact ih (o := o.take (.proceed i)) step.1 step.2

end Observed

end DebugAdapter
