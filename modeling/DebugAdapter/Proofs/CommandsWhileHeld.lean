import DebugAdapter.Proofs.SessionEnd
import DebugAdapter.Proofs.StateAgreement

/-!
# Commands while the debuggee is held

As long as a debuggee is held, the engine thread does nothing but look for a command, and the forwarder
tells of output only (`System.Poised`). So when the session hands over a command and waits for the answer,
the command is carried out by a worker that is as it was left by the last one, however the threads are
scheduled. Once the debuggee was let run, anything may be told of it, and nothing is done to it but to end
it (`System.LetRun`).

## Key results

- `System.stable_poised`, `System.stable_letRun`: what the other threads keep
- `Session.gives_command?_poised`: a command that is carried out while the debuggee is held
-/

namespace DebugAdapter

variable {σ : Type} [Engine σ]

/-! ## The engine thread between commands -/

/-- Of the debuggee, only output was published. -/
def Worker.OnlyOutput (w : Worker σ) : Prop :=
  ∀ e ∈ w.published, ∃ text, e = .output text

/-- As long as a worker is as `P` says, the engine thread has nothing to do by itself: there is no wait to
enter, and it is not to end. -/
structure Worker.Idles (P : Worker σ → Prop) : Prop where
  wantsWait : Ensures P (wantsWait (σ := σ)) fun wants w => P w ∧ wants = false
  cancelled : ∀ w, P w → w.cancelled = false

/-- As long as a worker is as `P` says, the engine thread has nothing to do by itself, and of the debuggee
only output was published. -/
structure Worker.Rests (P : Worker σ → Prop) : Prop extends Worker.Idles P where
  onlyOutput : ∀ w, P w → w.OnlyOutput

/-- What comes of a command: an answer as `Q` says, or a debuggee as `S` says. -/
def Worker.Comes (S : NewDebuggee → Worker σ → Prop) (Q : Reply → Worker σ → Prop) :
    Worker.Outcome → Worker σ → Prop
  | .answered r, w => Q r w
  | .started d, w => S d w

/-- What carrying out a command comes to, if the worker is as `P` says: an answer as `Q` says. If a debuggee
is started by it, the worker is as `S` says until the first stop. -/
structure Worker.CarriesOut (P : Worker σ → Prop) (S : NewDebuggee → Worker σ → Prop)
    (Q : Reply → Worker σ → Prop) (c : Command) : Prop where
  comes : Ensures P (Worker.execute c) (Worker.Comes S Q)
  onlyOutput : ∀ d w, S d w → w.OnlyOutput
  waits : ∀ d w, S d w → (Engine.waitForEvent.run w.session.engine).1 = none → S d w.awaited
  returns : ∀ d w answer, S d w → (Engine.waitForEvent.run w.session.engine).1 = some answer →
    Q (.launched ((Worker.finishStart d answer).run w.awaited).1)
      ((Worker.finishStart d answer).run w.awaited).2

/-- A command that starts no debuggee. -/
theorem Worker.CarriesOut.of_answered {P : Worker σ → Prop} {Q : Reply → Worker σ → Prop} {c : Command}
    (h : Ensures P (Worker.execute c) fun outcome w => ∃ r, outcome = .answered r ∧ Q r w) :
    Worker.CarriesOut P (fun _ _ => False) Q c where
  comes := by
    intro w hw
    obtain ⟨r, answered, after⟩ := h w hw
    rw [answered]
    exact after
  onlyOutput := fun _ _ none => none.elim
  waits := fun _ _ none => none.elim
  returns := fun _ _ _ none => none.elim

namespace Gateway

variable {P : Worker σ → Prop} {S : NewDebuggee → Worker σ → Prop} {Q : Reply → Worker σ → Prop}
  {ticket : Ticket} {c : Command} {g : Gateway σ}

/-- The engine thread is between two commands, or is to begin, by which `P` is kept. -/
def Between (P : Worker σ → Prop) : Phase → Prop
  | .starting => Keeps P (Worker.ask Engine.clearBreakpoints)
  | .looping | .ready | .draining => True
  | _ => False

/-- How many steps the engine thread makes at most before it looks for a command. -/
def stepsAhead : Phase → Nat
  | .starting => 2
  | .looping => 1
  | _ => 0

/-- These commands are in the queue, more are accepted, and the answers given have tickets below `bound`. -/
structure Queues (queue : List (Ticket × Command)) (bound : Ticket) (g : Gateway σ) : Prop where
  queue_eq : g.queue = queue
  accepting : g.accepting = true
  answers : ∀ p ∈ g.answers, p.1 < bound
  issued : bound ≤ g.issued

/-- Nothing is asked of the engine thread, and the worker is as `P` says. -/
structure Resting (P : Worker σ → Prop) (g : Gateway σ) : Prop where
  worker : P g.worker
  between : Between P g.phase
  queues : g.Queues [] g.issued

/-- Nothing is asked of the engine thread any more, and the worker is as `P` says. -/
structure Replied (P : Worker σ → Prop) (g : Gateway σ) : Prop extends Resting P g where
  begun : g.phase ≠ .starting

/-- The command with a ticket is all that is asked of the engine thread, which has not answered yet. -/
inductive Asked (P : Worker σ → Prop) (S : NewDebuggee → Worker σ → Prop) (Q : Reply → Worker σ → Prop)
    (c : Command) (ticket : Ticket) (g : Gateway σ) : Prop
  | queued (worker : P g.worker) (between : Between P g.phase) (queues : g.Queues [(ticket, c)] ticket)
      (issued : ticket < g.issued)
  | waiting {d : NewDebuggee} (worker : S d g.worker)
      (phase : g.phase = .entering (.start ticket d) ∨ g.phase = .waiting (.start ticket d))
      (queues : g.Queues [] ticket) (issued : ticket < g.issued)
  | woken {d : NewDebuggee} {answer : Except EngineError (List NativeEvent)}
      (phase : g.phase = .woken (.start ticket d) answer) (onlyOutput : g.worker.OnlyOutput)
      (answers : Q (.launched ((Worker.finishStart d answer).run g.worker).1)
        ((Worker.finishStart d answer).run g.worker).2)
      (queues : g.Queues [] ticket) (issued : ticket < g.issued)

omit [Engine σ] in
/-- What is known of the queue depends on the queue and the tickets alone. -/
theorem Queues.congr {g' : Gateway σ} {queue : List (Ticket × Command)} {bound : Ticket}
    (h : g.Queues queue bound) (queues : g'.queue = g.queue) (accepting : g'.accepting = g.accepting)
    (answers : g'.answers = g.answers) (issued : g'.issued = g.issued) : g'.Queues queue bound where
  queue_eq := queues.trans h.queue_eq
  accepting := accepting.trans h.accepting
  answers := answers ▸ h.answers
  issued := issued ▸ h.issued

omit [Engine σ] in
/-- A ticket above those of the answers has none. -/
theorem Queues.answer? {queue : List (Ticket × Command)} (h : g.Queues queue ticket) :
    g.answer? ticket = none := by
  have none : g.answers.find? (·.1 == ticket) = none := by
    rw [List.find?_eq_none]
    intro p mem same
    exact Nat.lt_irrefl _ (beq_iff_eq.1 same ▸ h.answers p mem)
  rw [Gateway.answer?, none]
  rfl

/-- Between two commands, the engine thread comes closer to the next one, or takes it. -/
private theorem advance_between (idles : Worker.Idles P) (worker : P g.worker)
    (between : Between P g.phase) :
    (∃ w phase, P w ∧ Between P phase ∧ stepsAhead phase < stepsAhead g.phase ∧
        g.advance = { g with worker := w, phase }) ∨
      ∃ w, P w ∧ g.advance = ({ g with worker := w } : Gateway σ).takeCommand := by
  obtain ⟨w, phase, queue, accepting, issued, answers, disposed, silenced⟩ := g
  -- a held debuggee gives nothing to wait for
  obtain ⟨waits, none⟩ := idles.wantsWait w worker
  have on := idles.cancelled w worker
  -- one turn leads one phase further, or takes a command
  cases phase with
  | starting => exact .inl ⟨_, .looping, between w worker, trivial, Nat.lt_add_one 1, rfl⟩
  | looping =>
    refine .inl ⟨_, .ready, waits, trivial, Nat.zero_lt_one, ?_⟩
    have looked : ∀ g : Gateway σ, g.worker = w → (g.work Worker.wantsWait).1 = false := by
      rintro g rfl
      exact none
    simp only [Gateway.advance, on, Bool.false_eq_true, if_false, looked]
    rfl
  | ready => exact .inr ⟨_, waits, rfl⟩
  | draining =>
    refine .inr ⟨w, worker, ?_⟩
    simp only [Gateway.advance, on, Bool.false_eq_true, if_false]
  | _ => exact between.elim

namespace Resting

/-- A gateway at rest stays at rest when the engine thread takes a turn. -/
theorem advance (idles : Worker.Idles P) (h : g.Resting P) : g.advance.Resting P := by
  rcases advance_between idles h.worker h.between with
    ⟨w, phase, worker, between, -, step⟩ | ⟨w, worker, step⟩
  · rw [step]
    exact ⟨worker, between, h.queues.congr rfl rfl rfl rfl⟩
  · rw [step, takeCommand]
    simp only [h.queues.queue_eq, h.queues.accepting, if_true]
    exact ⟨worker, trivial, h.queues.congr h.queues.queue_eq.symm h.queues.accepting.symm rfl rfl⟩

end Resting

/-- What is known after a reply can be weakened. -/
theorem Replied.mono {P' : Worker σ → Prop} (h : g.Replied P) (imp : ∀ w, P w → P' w) :
    g.Replied P' where
  worker := imp _ h.worker
  between := by
    have between := h.between
    have begun := h.begun
    cases phase : g.phase with
    | starting => exact absurd phase begun
    | _ =>
      rw [phase] at between
      exact between
  queues := h.queues
  begun := h.begun

/-- A command was answered, as the worker is then. -/
theorem replied_reply {w : Worker σ} {r : Reply} (worker : Q r w) (queues : g.Queues [] ticket)
    (issued : ticket < g.issued) :
    let g' := ({ g with worker := w }.reply ticket r).goto .draining
    g'.answer? ticket = some r ∧ g'.Replied (Q r) := by
  refine ⟨?_, ⟨worker, trivial, queues.queue_eq, queues.accepting, fun p mem => ?_, Nat.le_refl _⟩, nofun⟩
  · -- the ticket had no answer before, so the new one is the first under it
    have none : g.answers.find? (·.1 == ticket) = none := by
      have unanswered := queues.answer?
      rwa [Gateway.answer?, Option.map_eq_none_iff] at unanswered
    change ((g.answers ++ [(ticket, r)]).find? (·.1 == ticket)).map (·.2) = some r
    rw [List.find?_append, none]
    simp
  · rcases List.mem_append.1 mem with mem | mem
    · exact Nat.lt_trans (queues.answers p mem) issued
    · rw [List.mem_singleton.1 mem]
      exact issued

namespace Asked

/-- As long as the command was not answered, what was published is what may be published before it is
carried out, or only output. -/
theorem published {E : Worker σ → Prop} (published : ∀ w, P w → E w) (output : ∀ w, w.OnlyOutput → E w)
    (call : Worker.CarriesOut P S Q c) (h : g.Asked P S Q c ticket) : E g.worker := by
  cases h with
  | queued worker => exact published _ worker
  | waiting worker => exact output _ (call.onlyOutput _ _ worker)
  | woken phase onlyOutput => exact output _ onlyOutput

/-- The command is still to be answered, and comes closer to that unless a debuggee is awaited, or it was
answered. -/
theorem advance (idles : Worker.Idles P) (call : Worker.CarriesOut P S Q c)
    (h : g.Asked P S Q c ticket) :
    (g.advance.Asked P S Q c ticket ∧
        (stepsAhead g.advance.phase < stepsAhead g.phase ∨ ∃ d w, S d w)) ∨
      ∃ r, g.advance.answer? ticket = some r ∧ g.advance.Replied (Q r) := by
  -- the command is in the queue, or a debuggee was started and is waited for, or the wait has returned
  cases h with
  | queued worker between queues issued =>
    rcases advance_between idles worker between with
      ⟨w, phase, worker, between, closer, step⟩ | ⟨w, worker, step⟩
    · rw [step]
      exact .inl ⟨.queued worker between
        ⟨queues.queue_eq, queues.accepting, queues.answers, queues.issued⟩ issued, .inl closer⟩
    · rw [step, takeCommand]
      simp only [queues.queue_eq]
      -- the command is taken: it is answered at once, or has started a debuggee
      have taken : ({ g with worker := w, queue := [] } : Gateway σ).Queues [] ticket :=
        ⟨rfl, queues.accepting, queues.answers, queues.issued⟩
      have executed := call.comes w worker
      rw [perform, work]
      cases run : (Worker.execute c).run w with
      | mk outcome w' =>
        rw [run] at executed
        cases outcome with
        | answered r => exact .inr ⟨r, replied_reply executed taken issued⟩
        | started d =>
          exact .inl ⟨.waiting executed (.inl rfl)
            ⟨rfl, queues.accepting, queues.answers, queues.issued⟩ issued, .inr ⟨d, _, executed⟩⟩
  | @waiting d worker phase queues issued =>
    -- the first stop of the debuggee is awaited
    have polled : g.advance = ({ g with worker := g.worker.awaited } : Gateway σ).goto
        (.afterWait (.start ticket d) (Engine.waitForEvent.run g.engine).1) := by
      rcases phase with phase | phase <;> rw [Gateway.advance, phase] <;> exact poll_eq rfl _
    rw [polled]
    refine .inl ⟨?_, .inr ⟨d, _, worker⟩⟩
    -- as long as nothing happens the wait goes on
    cases answer : (Engine.waitForEvent.run g.engine).1 with
    | none =>
      have waits := call.waits d g.worker worker answer
      exact .waiting waits (.inr rfl) (queues.congr rfl rfl rfl rfl) issued
    | some answer' =>
      have returned := call.returns d g.worker answer' worker answer
      exact .woken rfl (call.onlyOutput d g.worker worker) returned (queues.congr rfl rfl rfl rfl) issued
  | @woken d answer phase onlyOutput answers queues issued =>
    have woke : g.advance = (({ g with worker := ((Worker.finishStart d answer).run g.worker).2 } :
        Gateway σ).reply ticket (.launched ((Worker.finishStart d answer).run g.worker).1)).goto .draining := by
      rw [Gateway.advance, phase]
      rfl
    rw [woke]
    exact .inr ⟨_, replied_reply answers queues issued⟩

/-- The engine thread does not end before it has answered. -/
theorem not_finished (h : g.Asked P S Q c ticket) : g.phase.isFinished = false := by
  cases h with
  | queued worker between =>
    -- `Between` excludes an engine thread that has ended
    cases phase : g.phase with
    | finished =>
      rw [phase] at between
      exact between.elim
    | _ => rfl
  | waiting worker phase => rcases phase with phase | phase <;> rw [phase] <;> rfl
  | woken phase => rw [phase]; rfl

/-- A command that is still asked has no answer. -/
theorem answer? (h : g.Asked P S Q c ticket) : g.answer? ticket = none := by
  cases h with
  | queued _ _ queues => exact queues.answer?
  | waiting _ _ queues => exact queues.answer?
  | woken _ _ _ queues => exact queues.answer?

end Asked

end Gateway

/-! ## The engine thread after the last command -/

/-- What holds of a worker is kept, as long as no command is carried out but one to terminate. -/
structure Worker.EndFrame (I : Worker σ → Prop) : Prop extends Worker.Frame I where
  cancelled : ∀ w, I w → I { w with cancelled := true }
  terminate : Keeps I (Worker.terminate (σ := σ))
  release : ∀ w, I w → I w.release

namespace Gateway

variable {I : Worker σ → Prop} {g : Gateway σ}

/-- The worker is as `I` says, and no command is queued but to terminate. -/
structure LeftAlone (I : Worker σ → Prop) (g : Gateway σ) : Prop where
  worker : I g.worker
  begun : g.phase ≠ .starting
  queue : ∀ p ∈ g.queue, p.2 = .terminate

namespace LeftAlone

/-- Leaving, the engine thread terminates and releases the engine. -/
private theorem leave (F : Worker.EndFrame I) (h : g.LeftAlone I) : I g.leave.worker := by
  -- of what is left in the queue, only commands to terminate are carried out
  have last : ∀ (l : List (Ticket × Command)) (g : Gateway σ), I g.worker →
      I (l.foldl performLast g).worker := by
    intro l
    -- induction on the queue that is worked off
    induction l with
    | nil => exact fun g h => h
    | cons p l ih =>
      intro g h
      refine ih _ ?_
      obtain ⟨ticket, c⟩ := p
      by_cases ends : c = .terminate
      · subst ends
        exact F.terminate _ h
      · rwa [performLast_of_ne ends]
  rw [leave_eq]
  exact F.release _ (last g.queue { g with queue := [] } h.worker)

/-- A gateway that is left alone stays so when the engine thread takes a turn. -/
theorem advance (F : Worker.EndFrame I) (h : g.LeftAlone I) : g.advance.LeftAlone I := by
  -- no turn leads back to the start
  have begun : g.advance.phase ≠ .starting := by
    have moves := moves_advance g
    intro start
    rw [start] at moves
    cases moves
  have step := advance_spec g
  generalize g.executions = executions, g.advance = g' at step begun ⊢
  -- one case for each kind of turn
  cases step with
  | begin phase => exact absurd phase h.begun
  | work quiet => exact ⟨quiet I F.toFrame h.worker, begun, h.queue⟩
  | wait => exact ⟨F.wait _ h.worker, begun, h.queue⟩
  | finishStart => exact ⟨F.toFrame.finishStart _ _ _ h.worker, begun, h.queue⟩
  | @answered w ticket c rest r quiet phase queue outcome =>
    -- a command that is carried out was in the queue, and so it is to terminate
    have ends := queue ▸ h.queue
    obtain rfl := ends (ticket, c) List.mem_cons_self
    have kept := F.terminate w (quiet I F.toFrame h.worker)
    exact ⟨kept, begun, fun p mem => ends p (List.mem_cons_of_mem _ mem)⟩
  | @started w ticket c rest d quiet phase queue outcome =>
    have ends := queue ▸ h.queue
    obtain rfl := ends (ticket, c) List.mem_cons_self
    cases outcome
  | giveUp quiet => exact ⟨F.cancelled _ (quiet I F.toFrame h.worker), begun, h.queue⟩
  | decide => exact ⟨h.worker, begun, h.queue⟩
  | leave =>
    refine ⟨leave F h, begun, ?_⟩
    rw [leave_eq]
    exact nofun
  | stay => exact h

/-- A gateway that is left alone stays so unless a command is submitted. -/
theorem act (F : Worker.EndFrame I) (h : g.LeftAlone I) (a : GatewayAction) (plain : ∀ c, a ≠ .submit c) :
    (g.act a).LeftAlone I := by
  -- closing the queue puts the command to terminate into it
  cases a with
  | submit c => exact absurd rfl (plain c)
  | advance => exact h.advance F
  | cancel => exact ⟨F.cancelled _ h.worker, h.begun, h.queue⟩
  | markDisposed | silence => exact ⟨h.worker, h.begun, h.queue⟩
  | interrupt =>
    change g.interrupt.LeftAlone I
    rw [Gateway.interrupt]
    split
    · exact ⟨F.interrupt _ h.worker, h.begun, h.queue⟩
    · exact h
  | closeQueue =>
    change (g.submit .terminate).2.LeftAlone I
    rw [Gateway.submit]
    split
    · refine ⟨h.worker, h.begun, fun p mem => ?_⟩
      rcases List.mem_append.1 mem with mem | mem
      · exact h.queue p mem
      · rw [List.mem_singleton.1 mem]
    · exact h

end LeftAlone

end Gateway

/-! ## What is told meanwhile -/

/-- The events of a name that were written, oldest first. -/
def Outbox.events (name : String) (o : Outbox) : List Message :=
  o.messages.filter (·.tells name)

namespace Action

/-- The action touches neither the gateway nor the session state, and tells of no resumed debuggee. -/
structure Aside (a : Action) : Prop where
  not_opens : ¬a.Opens
  atGateway : a.atGateway = []
  stateAfter : ∀ state, a.stateAfter state = state
  quiet : a.tells "continued" = false

/-- An action as the forwarder makes: no command is queued, and no resumed debuggee is told of. -/
structure Forwards (a : Action) : Prop where
  not_opens : ¬a.Opens
  not_submits : ∀ c, .submit c ∉ a.atGateway
  quiet : a.tells "continued" = false

/-- A record in the log is done aside. -/
theorem aside_note (r : LogRecord) : (note r).Aside :=
  ⟨id, rfl, fun _ => rfl, rfl⟩

/-- A response is sent aside. -/
theorem aside_respond (r : Response) : (send (.response r)).Aside :=
  ⟨id, rfl, fun _ => rfl, rfl⟩

/-- What tells of output is an event, and so it tells of nothing else. -/
theorem eq_send_of_tells {a : Action} {name : String} (tells : a.tells name = true) :
    ∃ m, a = .send m ∧ ∀ other, other ≠ name → m.tells other = false := by
  cases a with
  | send m =>
    refine ⟨m, rfl, fun other ne => ?_⟩
    cases m with
    | response r => rfl
    | event e => exact beq_eq_false_iff_ne.2 fun same => ne (same.symm.trans (beq_iff_eq.1 tells))
  | _ => cases tells

/-- Telling of output is forwarding. -/
theorem Forwards.of_tells {a : Action} (output : a.tells "output" = true) : a.Forwards := by
  obtain ⟨m, rfl, other⟩ := eq_send_of_tells output
  exact ⟨id, fun _ => List.not_mem_nil, other "continued" (by decide)⟩

end Action

/-- Whatever event is forwarded, it neither opens a gateway nor submits a command. -/
theorem Session.forwards_forward (e : GatewayEvent) : (forward e).All Action.Forwards fun _ => True := by
  have told : ∀ name ∈ ["stopped", "terminated", "thread", "output", "exited"], ∀ body,
      Action.Forwards (.send (.event (.ofJson name body))) := by
    refine fun name mem body => ⟨id, fun _ => List.not_mem_nil, ?_⟩
    have other : ∀ name ∈ ["stopped", "terminated", "thread", "output", "exited"],
        (name == "continued") = false := by decide
    exact other name mem
  have set : ∀ f, Action.Forwards (.updateState f) := fun _ => ⟨id, fun _ => List.not_mem_nil, rfl⟩
  refine all_forward (set _) (set _) told (fun a disposes => ?_) e
  cases a <;> first | exact disposes.elim | exact ⟨id, by simp [Action.atGateway], rfl⟩

namespace System

variable {s s' : System σ} {told : List Message} {state : SessionState}

/-- An action that does not tell of an event leaves what was told of it. -/
theorem perform_events {a : Action} {r : a.Result} (e : s.perform a = some (r, s')) {name : String}
    (other : name ≠ "output") (quiet : a.tells name = false) :
    s'.outbox.events name = s.outbox.events name := by
  -- log records are told as output, and nothing else is written but the action itself
  have silent : (a.writes s.console).filter (·.tells name) = [] := by
    refine List.filter_eq_nil_iff.2 fun m mem => ?_
    rw [Action.tells_of_writes mem other, quiet]
    exact Bool.false_ne_true
  rw [Outbox.events, perform_messages e, List.filter_append, silent, List.append_nil]
  rfl

/-- An action aside leaves the gateway what it is. -/
theorem perform_aside {a : Action} {r : a.Result} (aside : a.Aside) (e : s.perform a = some (r, s')) :
    s'.gateway = s.gateway ∧ s'.forwarder = s.forwarder ∧ s'.state = s.state ∧
      s'.outbox.events "continued" = s.outbox.events "continued" := by
  obtain ⟨gateway, forwarder, -⟩ := perform_frame e aside.not_opens
  refine ⟨?_, forwarder, ?_, perform_events e (by decide) aside.quiet⟩
  · rw [gateway, aside.atGateway]
    cases s.gateway <;> rfl
  · rw [(perform_shown e).1, aside.stateAfter]

/-! ### A gateway among the rest -/

/-- What is said of a system besides its gateway. The steps of the forwarder keep it and leave the gateway,
as long as the worker is as `E` says. -/
structure Surrounds (E : Worker σ → Prop) (B : System σ → Prop) : Prop where
  tame : ∀ {s}, B s → s.Tame
  gateway : ∀ {s}, B s → ∀ g, B { s with gateway := some g }
  forwarder : ∀ {s g}, B s → s.gateway = some g → E g.worker →
    B s.stepForwarder ∧ s.stepForwarder.gateway = some g

/-- The gateway is as `A` says, and the rest of the system is as `B` says. -/
structure Amid (A : Gateway σ → Prop) (B : System σ → Prop) (s : System σ) : Prop where
  gateway : ∃ g, s.gateway = some g ∧ A g
  rest : B s

variable {E : Worker σ → Prop} {A A' : Gateway σ → Prop} {B : System σ → Prop}

/-- A step of the engine thread is one of the gateway. -/
theorem stepEngine_of_gateway {g : Gateway σ} (gateway : s.gateway = some g) :
    s.stepEngine = { s with gateway := some g.advance } := by
  rw [System.stepEngine, onGateway, gateway]
  rfl

namespace Amid

omit [Engine σ] in
/-- What is known of the gateway can be weakened. -/
theorem mono (h : s.Amid A B) (imp : ∀ g, A g → A' g) : s.Amid A' B := by
  obtain ⟨g, gateway, known⟩ := h.gateway
  exact { h with gateway := ⟨g, gateway, imp g known⟩ }

/-- A turn of the forwarder leaves the gateway as it is. -/
theorem stepForwarder (around : Surrounds E B) (published : ∀ g, A g → E g.worker) (h : s.Amid A B) :
    s.stepForwarder.Amid A B := by
  obtain ⟨g, gateway, known⟩ := h.gateway
  obtain ⟨rest, same⟩ := around.forwarder h.rest gateway (published g known)
  exact ⟨⟨g, same, known⟩, rest⟩

/-- A turn of the engine is taken at the gateway. -/
theorem stepEngine (around : Surrounds E B) (h : s.Amid A B) (advance : ∀ g, A g → A' g.advance) :
    s.stepEngine.Amid A' B := by
  obtain ⟨g, gateway, known⟩ := h.gateway
  rw [stepEngine_of_gateway gateway]
  exact ⟨⟨g.advance, rfl, advance g known⟩, around.gateway h.rest g.advance⟩

end Amid

/-- What every turn of the engine keeps stays while the other threads go on. -/
theorem stable_amid (around : Surrounds E B) (published : ∀ g, A g → E g.worker)
    (advance : ∀ g, A g → A g.advance) : Stable (Amid A B) where
  forwarder := fun h => h.stepForwarder around published
  engine := fun h => h.stepEngine around advance

/-! ### Answers -/

/-- The answer to the command with a ticket was given. -/
def Answered (ticket : Ticket) (r : Reply) (s : System σ) : Prop :=
  s.gateway ≠ none ∧ s.Holds fun g => g.answer? ticket = some r

/-- An answer that was given stays given. -/
theorem stable_answered (ticket : Ticket) (r : Reply) : Stable (Answered (σ := σ) ticket r) :=
  stable_gateway_ne_none.and <| stable_holds fun {g} h a => by
    obtain ⟨more, answers⟩ := (Gateway.later_act g a).answers
    exact Gateway.answer?_append h answers.symm

/-- When the answer was given, the wait for it is over. -/
theorem Answered.perform {ticket : Ticket} {r : Reply} (h : s.Answered ticket r) :
    s.perform (.await ticket) = some (some r, s) := by
  obtain ⟨g, gateway⟩ := Option.ne_none_iff_exists'.1 h.1
  simp only [System.perform, gateway, h.2.gateway g gateway]

variable {P : Worker σ → Prop} {S : NewDebuggee → Worker σ → Prop} {Q : Reply → Worker σ → Prop}
  {R : Reply → System σ → Prop} {c : Command} {ticket : Ticket}

/-- The command with a ticket is all that is asked of the engine thread, or its answer was given, and the
system is as `R` says. -/
def Awaits (P : Worker σ → Prop) (S : NewDebuggee → Worker σ → Prop) (Q : Reply → Worker σ → Prop)
    (c : Command) (ticket : Ticket) (B : System σ → Prop) (R : Reply → System σ → Prop) (s : System σ) :
    Prop :=
  s.Amid (Gateway.Asked P S Q c ticket) B ∨ ∃ r, s.Answered ticket r ∧ R r s

/-- A step of the engine thread answers the command, or comes closer to that unless a debuggee is awaited. -/
theorem Amid.asked_stepEngine (around : Surrounds E B) (idles : Worker.Idles P)
    (call : Worker.CarriesOut P S Q c) {g : Gateway σ} (gateway : s.gateway = some g)
    (asked : g.Asked P S Q c ticket) (rest : B s) :
    (s.stepEngine.Amid (fun g' => g'.Asked P S Q c ticket ∧
        (Gateway.stepsAhead g'.phase < Gateway.stepsAhead g.phase ∨ ∃ d w, S d w)) B) ∨
      ∃ r, s.stepEngine.Answered ticket r ∧ s.stepEngine.Amid (Gateway.Replied (Q r)) B := by
  -- what surrounds the gateway does not depend on the gateway
  have kept : B s.stepEngine := by
    rw [stepEngine_of_gateway gateway]
    exact around.gateway rest _
  have after : s.stepEngine.gateway = some g.advance := by rw [stepEngine_of_gateway gateway]
  rcases asked.advance idles call with asks | ⟨r, answer, replied⟩
  · exact .inl ⟨⟨_, after, asks⟩, kept⟩
  · have holds : s.stepEngine.Holds fun g => g.answer? ticket = some r := by
      refine ⟨around.tame kept, fun g' gateway' => ?_⟩
      obtain rfl := Option.some.inj (after.symm.trans gateway')
      exact answer
    have there : s.stepEngine.gateway ≠ none := after ▸ Option.some_ne_none _
    exact .inr ⟨r, ⟨there, holds⟩, ⟨_, after, replied⟩, kept⟩

/-- While a command is awaited, it is asked or answered. -/
theorem stable_awaits (around : Surrounds E B) (idles : Worker.Idles P) (published : ∀ w, P w → E w)
    (output : ∀ w, w.OnlyOutput → E w) (call : Worker.CarriesOut P S Q c) (stable : ∀ r, Stable (R r))
    (answered : ∀ r s, s.Amid (Gateway.Replied (Q r)) B → R r s) :
    Stable (Awaits P S Q c ticket B R) where
  -- once the answer was given, it stays given, and what was known with it
  forwarder := by
    rintro s (asked | ⟨r, answer, known⟩)
    · exact .inl (asked.stepForwarder around fun _ h => h.published published output call)
    · exact .inr ⟨r, (stable_answered ticket r).forwarder answer, (stable r).forwarder known⟩
  engine := by
    rintro s (asked | ⟨r, answer, known⟩)
    · obtain ⟨g, gateway, asks⟩ := asked.gateway
      rcases Amid.asked_stepEngine around idles call gateway asks asked.rest with asks | ⟨r, answer, rest⟩
      · exact .inl (asks.mono fun _ h => h.1)
      · exact .inr ⟨r, answer, answered r _ rest⟩
    · exact .inr ⟨r, (stable_answered ticket r).engine answer, (stable r).engine known⟩

/-- When a command is queued, it is all that is asked of the engine thread. -/
theorem Amid.submit (around : Surrounds E B) (h : s.Amid (Gateway.Resting P) B) (plain : c ≠ .terminate)
    {r : Option Ticket} (e : s.perform (.submit c) = some (r, s')) : ∃ ticket, r = some ticket ∧
      s'.Amid (Gateway.Asked P S Q c ticket) B := by
  obtain ⟨g, gateway, rest⟩ := h.gateway
  simp only [System.perform, System.submit, gateway, Gateway.submit_eq rest.queues.accepting] at e
  cases e
  refine ⟨g.issued, rfl, ⟨_, rfl, .queued rest.worker rest.between ⟨?_, ?_, rest.queues.answers, ?_⟩ ?_⟩,
    around.gateway h.rest _⟩
  · rw [rest.queues.queue_eq]
    rfl
  · exact decide_eq_true plain
  · exact Nat.le_succ _
  · exact Nat.lt_succ_self _

/-- The wait for an answer is over when it was given. -/
theorem Awaits.await (h : s.Awaits P S Q c ticket B R) {result : Option Reply}
    (e : s.perform (.await ticket) = some (result, s')) : ∃ r, result = some r ∧ R r s' := by
  obtain ⟨rfl, -⟩ := perform_await e
  rcases h with asked | ⟨r, answer, known⟩
  · obtain ⟨g, gateway, asks⟩ := asked.gateway
    simp only [System.perform, gateway, asks.answer?, asks.not_finished] at e
    cases e
  · cases answer.perform.symm.trans e
    exact ⟨r, rfl, known⟩

/-! ### While the debuggee is held -/

/-- The gateway is as `A` says, the forwarder tells of output only, and the session state and the
`continued` events are these. -/
structure Poised (A : Gateway σ → Prop) (state : SessionState) (told : List Message) (s : System σ) :
    Prop where
  gateway : ∃ g, s.gateway = some g ∧ A g
  forwarder : s.forwarder.All (·.tells "output" = true) fun _ => True
  state_eq : s.state = state
  told_eq : s.outbox.events "continued" = told

/-- What is said of the rest of a system that is poised. -/
def Unmoved (state : SessionState) (told : List Message) (s : System σ) : Prop :=
  (s.forwarder.All (·.tells "output" = true) fun _ => True) ∧ s.state = state ∧
    s.outbox.events "continued" = told

omit [Engine σ] in
/-- A poised system has its gateway amid what does not move. -/
theorem poised_iff : s.Poised A state told ↔ s.Amid A (Unmoved state told) :=
  ⟨fun h => ⟨h.gateway, h.forwarder, h.state_eq, h.told_eq⟩,
    fun h => ⟨h.gateway, h.rest.1, h.rest.2.1, h.rest.2.2⟩⟩

/-- As long as only output was published, the forwarder tells of output only. -/
theorem surrounds_unmoved :
    Surrounds (fun w : Worker σ => w.OnlyOutput) (Unmoved state told) where
  tame h := h.1.mono fun a output => by
    obtain ⟨m, rfl, -⟩ := Action.eq_send_of_tells output
    exact ⟨id, rfl⟩
  gateway h _ := h
  forwarder := by
    rintro s g ⟨forwarder, state_eq, told_eq⟩ gateway only
    -- the forwarder tells of output, takes an event, or waits
    rcases s.stepForwarder_cases with ⟨a, next, r, s', hf, e, step⟩ | ⟨event, -, taken, step⟩ | step
    · have left := forwarder
      rw [hf] at left
      obtain ⟨m, rfl, other⟩ := Action.eq_send_of_tells left.1
      have aside : (Action.send m).Aside := ⟨id, rfl, fun _ => rfl, other _ (by decide)⟩
      obtain ⟨same, -, state_eq', told_eq'⟩ := perform_aside aside e
      rw [step]
      exact ⟨⟨left.2 r, state_eq'.trans state_eq, told_eq'.trans told_eq⟩, same.trans gateway⟩
    · rw [nextEvent?, gateway] at taken
      -- the event that is taken is output, so forwarding it is one action that tells of output
      obtain ⟨text, rfl⟩ := only event (List.mem_of_getElem? taken)
      rw [step]
      exact ⟨⟨⟨rfl, fun _ => trivial⟩, state_eq, told_eq⟩, gateway⟩
    · rw [step]
      exact ⟨⟨forwarder, state_eq, told_eq⟩, gateway⟩

namespace Poised

omit [Engine σ] in
/-- What is known of the gateway can be weakened. -/
theorem mono (h : s.Poised A state told) (imp : ∀ g, A g → A' g) : s.Poised A' state told :=
  poised_iff.2 ((poised_iff.1 h).mono imp)

/-- What is done aside leaves a system poised. -/
theorem perform (h : s.Poised A state told) {a : Action} {r : a.Result} (aside : a.Aside)
    (e : s.perform a = some (r, s')) : s'.Poised A state told := by
  obtain ⟨gateway, forwarder, state_eq, told_eq⟩ := perform_aside aside e
  exact ⟨gateway ▸ h.gateway, forwarder ▸ h.forwarder, state_eq.trans h.state_eq, told_eq.trans h.told_eq⟩

/-- Reading and changing the state gives the state that is known. -/
theorem updateState (h : s.Poised A state told) {f : SessionState → SessionState} {r : SessionState}
    (e : s.perform (.updateState f) = some (r, s')) : r = state ∧ s'.Poised A (f state) told := by
  cases e
  exact ⟨h.state_eq, h.gateway, h.forwarder, congrArg f h.state_eq, h.told_eq⟩

/-- Sending that the debuggee continues is told of once more. -/
theorem sendContinued (h : s.Poised A state told) {m : Message} (tells : m.tells "continued" = true)
    {r : Unit} (e : s.perform (.send m) = some (r, s')) : s'.Poised A state (told ++ [m]) := by
  cases e
  refine ⟨h.gateway, h.forwarder, h.state_eq, ?_⟩
  have before := h.told_eq
  rw [Outbox.events] at before ⊢
  rw [send, Outbox.messages_send, List.filter_append, before, List.filter_cons_of_pos tells]
  rfl

end Poised

/-- A poised system stays so while the other threads go on. -/
theorem stable_poised (only : ∀ g, A g → g.worker.OnlyOutput) (advance : ∀ g, A g → A g.advance) :
    Stable (Poised A state told) := by
  have same : Poised A state told = Amid A (Unmoved state told) := funext fun _ => propext poised_iff
  rw [same]
  exact stable_amid surrounds_unmoved only advance

/-- A system that is poised with its gateway at rest stays so. -/
theorem stable_resting {P : Worker σ → Prop} (rests : Worker.Rests P) :
    Stable (Poised (Gateway.Resting P) state told) :=
  stable_poised (fun _ h => rests.onlyOutput _ h.worker) fun _ h => h.advance rests.toIdles

/-! ### When it was let run -/

/-- The gateway is as `K` says, and the `continued` events are these. -/
structure LetRun (K : Gateway σ → Prop) (told : List Message) (s : System σ) : Prop where
  gateway : ∃ g, s.gateway = some g ∧ K g
  forwarder : s.forwarder.All Action.Forwards fun _ => True
  told_eq : s.outbox.events "continued" = told

namespace LetRun

variable {K : Gateway σ → Prop} (acts : ∀ g a, K g → (∀ c, a ≠ .submit c) → K (g.act a))
include acts

/-- An action that forwards keeps what is known of a running debuggee. -/
theorem perform (h : s.LetRun K told) {a : Action} {r : a.Result} (forwards : a.Forwards)
    (e : s.perform a = some (r, s')) : s'.LetRun K told := by
  obtain ⟨g, gateway, known⟩ := h.gateway
  obtain ⟨after, forwarder, -⟩ := perform_frame e forwards.not_opens
  have run : ∀ history g, K g → (∀ c, GatewayAction.submit c ∉ history) → K (g.run history) := by
    intro history
    -- induction on what is done at the gateway, none of which submits a command
    induction history with
    | nil => exact fun g known _ => known
    | cons b history ih =>
      intro g known others
      refine ih _ (acts g b known fun c same => others c (same ▸ List.mem_cons_self)) fun c mem => ?_
      exact others c (List.mem_cons_of_mem _ mem)
  refine ⟨⟨g.run a.atGateway, ?_, run _ g known forwards.not_submits⟩, forwarder ▸ h.forwarder,
    (perform_events e (by decide) forwards.quiet).trans h.told_eq⟩
  rw [after, gateway]
  rfl

/-- What is known of a running debuggee stays while the other threads go on. -/
theorem stable (told : List Message) : Stable (LetRun K told) where
  forwarder := by
    intro s h
    -- whatever the forwarder does passes by the gateway
    rcases s.stepForwarder_cases with ⟨a, next, r, s', hf, e, step⟩ | ⟨event, -, -, step⟩ | step
    · have left := h.forwarder
      rw [hf] at left
      have after := h.perform acts left.1 e
      rw [step]
      exact ⟨after.gateway, left.2 r, after.told_eq⟩
    · rw [step]
      exact ⟨h.gateway, Session.forwards_forward event, h.told_eq⟩
    · rwa [step]
  engine := by
    intro s h
    obtain ⟨g, gateway, known⟩ := h.gateway
    refine ⟨⟨g.advance, ?_, acts g .advance known nofun⟩, h.forwarder, h.told_eq⟩
    rw [System.stepEngine, onGateway, gateway]
    rfl

end LetRun

omit [Engine σ] in
/-- From a poised system, the debuggee may be let run. -/
theorem Poised.letRun {A K : Gateway σ → Prop} (h : s.Poised A state told) (imp : ∀ g, A g → K g) :
    s.LetRun K told :=
  ⟨(h.mono imp).gateway, h.forwarder.mono fun _ => .of_tells, h.told_eq⟩

end System

/-! ## Commands of a session -/

namespace Session

variable {E P : Worker σ → Prop} {S : NewDebuggee → Worker σ → Prop} {Q : Reply → Worker σ → Prop}
  {R : Reply → System σ → Prop} {T : Session → Prop} {c : Command} {B : System σ → Prop}
  {state : SessionState} {told : List Message}

section

variable (around : System.Surrounds E B) (idles : Worker.Idles P) (published : ∀ w, P w → E w)
include around idles published

/-- While nothing is asked of the engine thread, a command can be queued. -/
theorem gives_submit_amid (plain : c ≠ .terminate) :
    Gives (fun t s => T t ∧ s.Amid (Gateway.Resting P) B) (Session.perform (.submit c))
      fun result t s => T t ∧ ∃ ticket, result = some ticket ∧ s.Awaits P S Q c ticket B R := by
  have stable : System.Stable (System.Amid (Gateway.Resting P) B) :=
    System.stable_amid around (fun g h => published _ h.worker) fun _ h => h.advance idles
  refine .perform (fun _ => ⟨fun h => ⟨h.1, stable.forwarder h.2⟩, fun h => ⟨h.1, stable.engine h.2⟩⟩)
    fun h e => ?_
  obtain ⟨ticket, rfl, asked⟩ := h.2.submit around plain e
  exact ⟨h.1, ticket, rfl, .inl asked⟩

variable (output : ∀ w, w.OnlyOutput → E w) (call : Worker.CarriesOut P S Q c)
  (stable : ∀ r, System.Stable (R r)) (answered : ∀ r s, s.Amid (Gateway.Replied (Q r)) B → R r s)
include output call stable answered

/-- The answer to the command that was queued is waited for. -/
theorem gives_await_amid (ticket : Ticket) :
    Gives (fun t s => T t ∧ s.Awaits P S Q c ticket B R) (Session.perform (.await ticket))
      fun result t s => T t ∧ ∃ r, result = some r ∧ R r s := by
  have awaits : System.Stable (System.Awaits P S Q c ticket B R) :=
    System.stable_awaits around idles published output call stable answered
  exact .perform (fun _ => ⟨fun h => ⟨h.1, awaits.forwarder h.2⟩, fun h => ⟨h.1, awaits.engine h.2⟩⟩)
    fun h e => ⟨h.1, h.2.await e⟩

/-- A command that is carried out while nothing else is asked of the engine thread gets its answer. -/
theorem gives_command?_amid (plain : c ≠ .pause ∧ c ≠ .terminate) :
    Gives (fun t s => T t ∧ s.Amid (Gateway.Resting P) B) (Session.command? c)
      fun result t s => T t ∧ ∃ r, result = some r ∧ R r s := by
  refine (gives_submit_amid (S := S) (Q := Q) (R := R) around idles published plain.2).bind fun result => ?_
  -- the queue is open, so the command gets a ticket
  cases result with
  | none => exact .pure fun _ _ ⟨_, _, given, _⟩ => nomatch given
  | some ticket =>
    dsimp only
    rw [if_neg (not_or.2 plain)]
    have waited := gives_await_amid (T := T) around idles published output call stable answered ticket
    refine ((waited.mono ?_ fun _ _ _ h => h).bind fun result => .pure ?_)
    · rintro t s ⟨ht, ticket', same, awaits⟩
      exact ⟨ht, Option.some.inj same ▸ awaits⟩
    · rintro t s ⟨ht, r, rfl, known⟩
      exact ⟨ht, r, rfl, known⟩

end

/-- A command that is carried out while the debuggee is held gets its answer. -/
theorem gives_command?_poised (rests : Worker.Rests P) (call : Worker.CarriesOut P S Q c)
    (plain : c ≠ .pause ∧ c ≠ .terminate) (stable : ∀ r, System.Stable (R r))
    (answered : ∀ r s, s.Poised (Gateway.Replied (Q r)) state told → R r s) :
    Gives (fun t s => T t ∧ s.Poised (Gateway.Resting P) state told) (Session.command? c)
      fun result t s => T t ∧ ∃ r, result = some r ∧ R r s :=
  (gives_command?_amid System.surrounds_unmoved rests.toIdles rests.onlyOutput (fun _ h => h) call stable
    (fun r s h => answered r s (System.poised_iff.2 h)) plain).mono
    (fun _ _ h => ⟨h.1, System.poised_iff.1 h.2⟩) fun _ _ _ h => h

end Session

end DebugAdapter
