import DebugAdapter.Proofs.GatewayLifecycle
import DebugAdapter.Proofs.Interleaving

/-!
# How a forwarder tells that the session is over

The forwarder takes one event of the gateway after the other, and is left with a program for the last
one. Three things hold of such programs, whatever their actions give: a client is told that the session
is over when the state says so for the first time (`Program.Tells`), after the event for it the state
comes to say so (`Program.Ends`), and the queue is closed, the engine thread is told to end, and the
subscribers are dropped in order (`Program.Careful`).

So at any time the client was told once if the session is over, and not at all if it is not, up to what
the forwarder is about to say (`System.Forwarding`).

## Key results

- `System.Forwarding.stepForwarder`, `System.Forwarding.stepEngine`, `System.Forwarding.perform`: every
  step of one of the threads keeps this
- `System.Forwarding.of_ended`: when the forwarder has ended, the session is over
-/

namespace DebugAdapter

/-- The action makes no gateway, and does not take back that the session is over. -/
structure Action.Tame (a : Action) : Prop where
  not_opens : ¬a.Opens
  lasts : a.stateAfter .terminated = .terminated

/-! ## What is left of a program -/

namespace Program

variable {α : Type}

/-- The client is told that the session is over when the session state says so for the first time, and
not otherwise. `owes` means that this is to be told now. -/
def Tells (owes : Bool) : Program α → Prop
  | .done _ => owes = false
  | .act (.updateState f) next => owes = false ∧ f .terminated = .terminated ∧
      ∀ st, (next st).Tells (decide (st ≠ .terminated ∧ f st = .terminated))
  | .act (.send m) next => m.tells "terminated" = owes ∧ ∀ r, (next r).Tells false
  | .act _ next => owes = false ∧ ∀ r, (next r).Tells false

/-- The session is over before the program is done. -/
def Ends : Program α → Prop
  | .done _ => False
  | .act (.updateState f) _ => ∀ st, f st = .terminated
  | .act _ next => ∀ r, (next r).Ends

/-- The queue is closed when the session is over, the engine thread is told to end when the queue is
closed, and the subscribers are dropped when the engine thread has ended. No commands are queued, and no
gateways are made. -/
def Careful (isOver closed ended : Prop) : Program α → Prop
  | .done _ => True
  | .act (.updateState f) next => ∀ st, (next st).Careful (f st = .terminated) closed ended
  | .act .closeQueue next => isOver ∧ ∀ r, (next r).Careful isOver True ended
  | .act .cancel next => closed ∧ ∀ r, (next r).Careful isOver closed ended
  | .act .awaitEnd next => ∀ r, (next r).Careful isOver closed True
  | .act .silence next => ended ∧ ∀ r, (next r).Careful isOver closed ended
  | .act (.submit _) _ | .act (.openGateway _ _) _ => False
  | .act _ next => ∀ r, (next r).Careful isOver closed ended

/-- Care under fewer assumptions is care under more. -/
theorem Careful.mono {isOver closed ended isOver' closed' ended' : Prop} {p : Program α}
    (h : p.Careful isOver closed ended) (ho : isOver → isOver') (hc : closed → closed')
    (he : ended → ended') : p.Careful isOver' closed' ended' := by
  -- induction on the program: each action keeps what is assumed, or adds to it
  induction p generalizing isOver closed ended isOver' closed' ended' with
  | done a => trivial
  | act a next ih =>
    cases a with
    | updateState f => exact fun st => ih st (h st) id hc he
    | closeQueue => exact ⟨ho h.1, fun r => ih r (h.2 r) ho id he⟩
    | cancel => exact ⟨hc h.1, fun r => ih r (h.2 r) ho hc he⟩
    | awaitEnd => exact fun r => ih r (h r) ho hc id
    | silence => exact ⟨he h.1, fun r => ih r (h.2 r) ho hc he⟩
    | submit c => exact h
    | openGateway engineOptions options => exact h
    | _ => exact fun r => ih r (h r) ho hc he

/-- A careful program that tells of the end at most once is tame. -/
theorem Careful.tame {isOver closed ended : Prop} {owes : Bool} {p : Program α}
    (careful : p.Careful isOver closed ended) (tells : p.Tells owes) :
    p.All Action.Tame fun _ => True := by
  induction p generalizing isOver closed ended owes with
  | done a => trivial
  | act a next ih =>
    cases a with
    | updateState f => exact ⟨⟨id, tells.2.1⟩, fun r => ih r (careful r) (tells.2.2 r)⟩
    | submit c => exact False.elim careful
    | openGateway engineOptions options => exact False.elim careful
    | closeQueue | cancel | silence =>
      exact ⟨⟨id, rfl⟩, fun r => ih r (careful.2 r) (tells.2 r)⟩
    | _ => exact ⟨⟨id, rfl⟩, fun r => ih r (careful r) (tells.2 r)⟩

end Program

namespace Session

/-- A disposal tells of no end. -/
theorem tells_dispose : dispose.Tells false := by
  refine ⟨rfl, fun before => ?_⟩
  cases before with
  | true => exact rfl
  | false =>
    exact ⟨rfl, fun _ => ⟨rfl, fun _ => ⟨rfl, fun _ => ⟨rfl, fun _ => ⟨rfl, fun _ => rfl⟩⟩⟩⟩⟩

/-- A disposal is careful once the session is over. -/
theorem careful_dispose : dispose.Careful True False False := by
  intro before
  cases before with
  | true => trivial
  | false => exact ⟨trivial, fun _ => ⟨trivial, fun _ _ _ => ⟨trivial, fun _ => trivial⟩⟩⟩

/-- Forwarding a stop tells of no end. -/
theorem tells_forwardStop (reason : String) (thread : UInt32) (text : Option String) :
    (forwardStop reason thread text).Tells false := by
  refine ⟨rfl, rfl, fun st => ?_⟩
  cases st <;> first | exact rfl | exact ⟨rfl, fun _ => rfl⟩

/-- Forwarding a stop needs no care. -/
theorem careful_forwardStop (reason : String) (thread : UInt32) (text : Option String) :
    (forwardStop reason thread text).Careful False False False := by
  intro st
  cases st <;> first | trivial | exact fun _ => trivial

/-- Forwarding an event tells of the end exactly if it ends the session. -/
theorem tells_forward (e : GatewayEvent) : (forward e).Tells false := by
  cases e with
  | processExited code =>
    refine ⟨rfl, fun _ => ⟨rfl, rfl, fun st => ?_⟩⟩
    cases st <;> first | exact tells_dispose | exact ⟨rfl, fun _ => tells_dispose⟩
  | terminated =>
    refine ⟨rfl, rfl, fun st => ?_⟩
    cases st <;> first | exact rfl | exact ⟨rfl, fun _ => rfl⟩
  | breakpointHit | exceptionHit | breakHit | stepCompleted => exact tells_forwardStop _ _ _
  | threadStarted | threadExited | output => exact ⟨rfl, fun _ => rfl⟩

/-- Forwarding an event is careful, whatever is known before. -/
theorem careful_forward (e : GatewayEvent) : (forward e).Careful False False False := by
  have disposed : dispose.Careful (SessionState.terminated = .terminated) False False :=
    careful_dispose.mono (fun _ => rfl) id id
  cases e with
  | processExited code =>
    intro _ st
    cases st <;> first | exact disposed | exact fun _ => disposed
  | terminated =>
    intro st
    cases st <;> first | trivial | exact fun _ => trivial
  | breakpointHit | exceptionHit | breakHit | stepCompleted => exact careful_forwardStop _ _ _
  | threadStarted | threadExited | output => exact fun _ => trivial

end Session

/-! ## The gateway beside a session -/

variable {σ : Type} [Engine σ]

namespace Gateway

/-- What is known of a gateway beside a session: it is orderly, and its subscribers are dropped at the
end. As long as no debuggee was `begun`, at most a command to terminate was accepted, and that after the
session was `isOver`. -/
structure Fit (begun : Bool) (isOver : Prop) (g : Gateway σ) : Prop where
  orderly : g.Orderly
  finished_of_silenced : g.silenced = true → g.phase = .finished
  unbegun : begun = false → ∃ executed,
    g.Trace [] executed ∨ isOver ∧ g.Trace [(0, .terminate)] executed

omit [Engine σ] in
/-- A gateway that was made is a new one. -/
theorem create_ok {provider : EngineProvider σ} {engineOptions : EngineOptions} {options : GatewayOptions}
    {engine native : σ} {g : Gateway σ}
    (created : create provider engineOptions options engine = (.ok g, native)) :
    ∃ engine, g = new engine options := by
  unfold create at created
  split at created
  · cases created
    exact ⟨_, rfl⟩
  · cases created

/-- A new gateway is fit for forwarding. -/
theorem fit_new (engine : σ) (options : GatewayOptions) (isOver : Prop) :
    (new engine options).Fit false isOver where
  orderly := orderly_new engine options
  finished_of_silenced := nofun
  unbegun := fun _ => ⟨[], .inl (trace_new engine options)⟩

end Gateway

/-- When an action of a session at a gateway is in order. -/
def GatewayAction.Fits (begun : Bool) (isOver : Prop) (g : Gateway σ) : GatewayAction → Prop
  | .submit _ => False
  | .closeQueue => begun = true ∨ isOver
  | .cancel => g.accepting = false
  | .silence => g.phase = .finished
  | _ => True

namespace Gateway.Fit

variable {begun : Bool} {isOver isOver' : Prop} {g : Gateway σ}

/-- A gateway stays fit when the session gets over. -/
theorem mono (h : g.Fit begun isOver) (ho : isOver → isOver') : g.Fit begun isOver' where
  orderly := h.orderly
  finished_of_silenced := h.finished_of_silenced
  unbegun := by
    intro hb
    obtain ⟨executed, trace⟩ := h.unbegun hb
    exact ⟨executed, trace.imp_right (And.imp_left ho)⟩

/-- What was accepted after an action that queues no command but the one to terminate. -/
private theorem unbegun_act (h : g.Fit false isOver) {a : GatewayAction}
    (fits : a.Fits false isOver g) :
    ∃ executed,
      (g.act a).Trace [] executed ∨ isOver ∧ (g.act a).Trace [(0, .terminate)] executed := by
  obtain ⟨executed, trace⟩ := h.unbegun rfl
  have others : g.acceptedBy a = [] → ∃ executed,
      (g.act a).Trace [] executed ∨ isOver ∧ (g.act a).Trace [(0, .terminate)] executed := by
    intro none
    refine ⟨executed ++ g.executedBy a, ?_⟩
    rcases trace with trace | ⟨ho, trace⟩
    · have trace := trace.act h.orderly a
      rw [none] at trace
      exact .inl trace
    · have trace := trace.act h.orderly a
      rw [none] at trace
      exact .inr ⟨ho, trace⟩
  -- before the first command only the closing of the queue is accepted
  cases a with
  | submit c => exact absurd fits id
  | closeQueue =>
    -- the queue is closed only when the session is over, by the command to terminate
    have ho : isOver := fits.resolve_left nofun
    rcases trace with trace | ⟨-, trace⟩
    · cases hacc : g.accepting with
      | false => exact others (by simp [acceptedBy, Gateway.submit, hacc])
      | true =>
        have issued : g.issued = 0 := by
          have := congrArg List.length trace.tickets
          simpa using this.symm
        refine ⟨executed ++ g.executedBy .closeQueue, .inr ⟨ho, ?_⟩⟩
        have trace := trace.act h.orderly .closeQueue
        have accepted : g.acceptedBy .closeQueue = [(0, .terminate)] := by
          simp [acceptedBy, Gateway.submit, hacc, issued]
        rwa [accepted] at trace
    · refine others ?_
      -- the queue was closed before, and nothing is accepted again
      have closed : g.accepting = false := by
        cases hacc : g.accepting with
        | false => rfl
        | true => exact absurd rfl (trace.none_of_accepting hacc _ (List.mem_singleton_self _))
      simp [acceptedBy, Gateway.submit, closed]
  | _ => exact others rfl

/-- A gateway stays fit when it does what fits. -/
theorem act (h : g.Fit begun isOver) {a : GatewayAction} (fits : a.Fits begun isOver g) :
    (g.act a).Fit begun isOver where
  orderly := by
    refine h.orderly.act ?_
    cases a with
    | cancel => exact fits
    | _ => trivial
  finished_of_silenced := by
    intro silenced
    refine (g.later_act a).finished ?_
    -- only the last action silences the gateway
    by_cases last : a = .silence
    · subst last
      exact fits
    · exact h.finished_of_silenced (g.silenced_act last ▸ silenced)
  unbegun := by
    rintro rfl
    exact h.unbegun_act fits

/-- A gateway stays fit during an action that fits. -/
theorem run (h : g.Fit begun isOver) {a : Action} (fits : ∀ b ∈ a.atGateway, b.Fits begun isOver g) :
    (g.run a.atGateway).Fit begun isOver := by
  cases a with
  | submit c | interrupt | markDisposed | closeQueue | cancel | silence =>
    exact h.act (fits _ List.mem_cons_self)
  | _ => exact h

end Gateway.Fit

/-! ## Steps of a program -/

namespace Program

variable {a : Action} {next : a.Result → Program Unit} {s s' : System σ} {r : a.Result}

omit [Engine σ] in
/-- A careful program opens no gateway. -/
theorem Careful.not_opens {isOver closed ended : Prop}
    (h : (Program.act a next).Careful isOver closed ended) : ¬a.Opens := by
  cases a with
  | openGateway engineOptions options => exact False.elim h
  | _ => exact id

omit [Engine σ] in
/-- What a careful program does at the gateway fits. -/
theorem Careful.fits {begun : Bool} {isOver : Prop} {g : Gateway σ}
    (h : (Program.act a next).Careful isOver (g.accepting = false) (g.phase = .finished)) :
    ∀ b ∈ a.atGateway, b.Fits begun isOver g := by
  intro b hb
  -- one case for each action that reaches the gateway
  cases a with
  | submit c => exact False.elim h
  | interrupt | markDisposed =>
    obtain rfl := List.mem_singleton.1 hb
    trivial
  | closeQueue =>
    obtain rfl := List.mem_singleton.1 hb
    exact .inr h.1
  | cancel | silence =>
    obtain rfl := List.mem_singleton.1 hb
    exact h.1
  | _ => exact absurd hb List.not_mem_nil

/-- What is left is careful about the gateway as it is then. -/
theorem Careful.after {g : Gateway σ} (gateway : s.gateway = some g)
    (h : (Program.act a next).Careful (s.state = .terminated) (g.accepting = false)
      (g.phase = .finished)) (e : s.perform a = some (r, s')) :
    (next r).Careful (s'.state = .terminated) ((g.run a.atGateway).accepting = false)
      ((g.run a.atGateway).phase = .finished) := by
  have later := g.later_run a.atGateway
  have state := (System.perform_shown e).1
  -- an action that closes, waits or ends adds to what is known of the gateway
  cases a with
  | updateState f =>
    cases e
    exact h s.state
  | submit c => exact False.elim h
  | openGateway engineOptions options => exact False.elim h
  | closeQueue =>
    exact (h.2 r).mono (state.trans ·) (fun _ => g.accepting_submit_terminate) later.finished
  | awaitEnd =>
    have finished := (System.perform_awaitEnd e).2 gateway
    exact (h r).mono (state.trans ·) later.closed fun _ => finished
  | cancel => exact (h.2 r).mono (state.trans ·) later.closed later.finished
  | silence => exact (h.2 r).mono (state.trans ·) later.closed later.finished
  | _ => exact (h r).mono (state.trans ·) later.closed later.finished

omit [Engine σ] in
/-- A program that tells of the end does not take it back. -/
theorem Tells.lasts {owes : Bool} (h : (Program.act a next).Tells owes) :
    a.stateAfter .terminated = .terminated := by
  cases a with
  | updateState f => exact h.2.1
  | _ => rfl

/-- How often the client was told that the session is over, and what is owed, changes when the session
state comes to say so. -/
theorem Tells.after {owes : Bool} (h : (Program.act a next).Tells owes)
    (e : s.perform a = some (r, s')) : ∃ owes', (next r).Tells owes' ∧
      s'.outbox.told "terminated" + owes'.toNat + (if s.state = .terminated then 1 else 0) =
        s.outbox.told "terminated" + owes.toNat + (if s'.state = .terminated then 1 else 0) := by
  obtain ⟨state, told⟩ := System.perform_shown e
  have told : s'.outbox.told "terminated" =
      s.outbox.told "terminated" + (a.tells "terminated").toNat := told (by decide)
  -- the balance changes where the state does and where a message is sent
  cases a with
  | updateState f =>
    cases e
    obtain ⟨rfl, lasts, h⟩ := h
    refine ⟨_, h s.state, ?_⟩
    -- an update owes a message only where it is the one that ends the session
    by_cases isOver : s.state = .terminated
    · simp only [isOver, lasts]
      rfl
    · by_cases ends : f s.state = .terminated
      · rw [decide_eq_true ⟨isOver, ends⟩, if_neg isOver, if_pos ends]
        rfl
      · rw [decide_eq_false fun both => ends both.2, if_neg isOver, if_neg ends]
  | send m =>
    obtain ⟨rfl, h⟩ := h
    refine ⟨false, h r, ?_⟩
    rw [state, told]
    rfl
  | _ =>
    obtain ⟨rfl, h⟩ := h
    refine ⟨false, h r, ?_⟩
    rw [state, told]
    rfl

/-- A program that is to end the session has done so after an action, or is still to do it. -/
theorem Ends.after (h : (Program.act a next).Ends) (e : s.perform a = some (r, s')) :
    s'.state = .terminated ∨ (next r).Ends := by
  cases a with
  | updateState f =>
    cases e
    exact .inl (h s.state)
  | _ => exact .inr (h r)

end Program

/-! ## The forwarder beside a session -/

namespace System

omit [Engine σ] in
/-- A forwarder that has ended has no event left, and no more are published. -/
theorem of_forwarderEnded {s : System σ} (ended : s.forwarderEnded = true) :
    s.forwarder = .done () ∧ s.nextEvent? = none ∧ ∀ {g}, s.gateway = some g → g.silenced = true := by
  simp only [forwarderEnded, Bool.and_eq_true, Option.isNone_iff_eq_none] at ended
  obtain ⟨⟨none, isDone⟩, silenced⟩ := ended
  refine ⟨?_, none, fun {g} hg => by rwa [hg] at silenced⟩
  cases hf : s.forwarder with
  | done u => rfl
  | act a next =>
    rw [hf] at isDone
    exact nomatch isDone

/-- What is known of a system as long as its session is with one gateway `g`. `n` is the number of times
that the client had been told of the end of a session before. -/
structure Forwarding (begun : Bool) (n : Nat) (s : System σ) (g : Gateway σ) : Prop where
  gateway : s.gateway = some g
  fit : g.Fit begun (s.state = .terminated)
  careful : s.forwarder.Careful (s.state = .terminated) (g.accepting = false) (g.phase = .finished)
  told : ∃ owes, s.forwarder.Tells owes ∧
    s.outbox.told "terminated" + owes.toNat = n + if s.state = .terminated then 1 else 0
  forwarded_le : s.forwarded ≤ g.worker.published.length
  ends : .terminated ∈ g.worker.published.take s.forwarded →
    s.state = .terminated ∨ s.forwarder.Ends

namespace Forwarding

variable {begun : Bool} {n : Nat} {s : System σ} {g : Gateway σ}

/-- What was forwarded of the events of a gateway is so later. -/
private theorem take_later (h : s.Forwarding begun n g) {g' : Gateway σ} (later : g.Later g') :
    s.forwarded ≤ g'.worker.published.length ∧
      g'.worker.published.take s.forwarded = g.worker.published.take s.forwarded := by
  obtain ⟨es, he⟩ := later.published
  rw [← he, List.length_append, List.take_append_of_le_length h.forwarded_le]
  exact ⟨Nat.le_add_right_of_le h.forwarded_le, rfl⟩

/-- Whatever happens at the gateway, unless the session is told to be over. -/
private theorem of_later (h : s.Forwarding begun n g) {begun' : Bool} {s' : System σ} {g' : Gateway σ}
    (later : g.Later g') (fit : g'.Fit begun' (s.state = .terminated)) (gateway : s'.gateway = some g')
    (forwarder : s'.forwarder = s.forwarder) (forwarded : s'.forwarded = s.forwarded)
    (state : s'.state = s.state)
    (told : s'.outbox.told "terminated" = s.outbox.told "terminated") :
    s'.Forwarding begun' n g' := by
  obtain ⟨forwarded_le, take⟩ := h.take_later later
  exact
  { gateway
    fit := state ▸ fit
    careful := by
      rw [forwarder, state]
      exact h.careful.mono id later.closed later.finished
    told := by
      rw [forwarder, state, told]
      exact h.told
    forwarded_le := forwarded ▸ forwarded_le
    ends := by
      rw [forwarder, forwarded, state, take]
      exact h.ends }

/-- A turn of the engine goes on beside the forwarder. -/
theorem stepEngine (h : s.Forwarding begun n g) : s.stepEngine.Forwarding begun n g.advance := by
  have gateway : s.stepEngine.gateway = some g.advance := by
    rw [System.stepEngine, System.onGateway, h.gateway]
    rfl
  exact h.of_later g.later_advance (h.fit.act (a := .advance) trivial) gateway rfl rfl rfl rfl

/-- An action of the session thread that does not change the session state. -/
theorem perform (h : s.Forwarding begun n g) {a : Action} {r : a.Result} {s' : System σ}
    (e : s.perform a = some (r, s')) (on : ¬a.Opens) (same : a.stateAfter s.state = s.state)
    (silent : a.tells "terminated" = false)
    (fits : ∀ b ∈ a.atGateway, b.Fits begun (s.state = .terminated) g) :
    s'.Forwarding begun n (g.run a.atGateway) := by
  obtain ⟨state, told⟩ := perform_shown e
  obtain ⟨gateway, forwarder, forwarded⟩ := perform_frame e on
  rw [h.gateway] at gateway
  have told : s'.outbox.told "terminated" =
      s.outbox.told "terminated" + (a.tells "terminated").toNat := told (by decide)
  rw [silent] at told
  exact h.of_later (g.later_run _) (h.fit.run fits) gateway forwarder forwarded (state.trans same) told

/-- A command is queued for the session. -/
theorem submit (h : s.Forwarding begun n g) {c : Command} {ticket : Option Ticket} {s' : System σ}
    (e : s.perform (.submit c) = some (ticket, s')) :
    ticket = (g.submit c).1 ∧ s'.Forwarding true n (g.submit c).2 := by
  have fit : (g.submit c).2.Fit true (s.state = .terminated) :=
    { orderly := h.fit.orderly.submit c
      finished_of_silenced := by
        intro silenced
        refine (g.later_submit c).finished (h.fit.finished_of_silenced ?_)
        unfold Gateway.submit at silenced
        split at silenced <;> exact silenced
      unbegun := nofun }
  simp only [System.perform, System.submit, h.gateway, Option.some.injEq, Prod.mk.injEq] at e
  obtain ⟨rfl, rfl⟩ := e
  exact ⟨rfl, h.of_later (g.later_submit c) fit rfl rfl rfl rfl rfl⟩

/-! ### The forwarder -/

/-- An event is taken. -/
private theorem take (h : s.Forwarding begun n g) (done : s.forwarder = .done ()) {e : GatewayEvent}
    (next : s.nextEvent? = some e) :
    { s with forwarded := s.forwarded + 1, forwarder := Session.forward e }.Forwarding begun n g := by
  have at? : g.worker.published[s.forwarded]? = some e := by
    simpa [nextEvent?, h.gateway] using next
  obtain ⟨owes, tells, told⟩ := h.told
  rw [done] at tells
  exact
  { gateway := h.gateway
    fit := h.fit
    careful := (Session.careful_forward e).mono False.elim False.elim False.elim
    told := ⟨false, Session.tells_forward e, (show owes = false from tells) ▸ told⟩
    forwarded_le := (List.getElem?_eq_some_iff.1 at?).1
    -- if the end is among what was taken, it is taken now or was before
    ends := by
      intro taken
      rw [List.take_add_one, at?] at taken
      rcases List.mem_append.1 taken with taken | taken
      · refine .inl ((h.ends taken).resolve_right ?_)
        rw [done]
        exact id
      · obtain rfl : GatewayEvent.terminated = e := by simpa using taken
        exact .inr fun _ => rfl }

/-- An action of the forwarder. -/
private theorem performed (h : s.Forwarding begun n g) {a : Action}
    {next : a.Result → Program Unit} (hf : s.forwarder = .act a next) {r : a.Result} {s' : System σ}
    (e : s.perform a = some (r, s')) :
    { s' with forwarder := next r }.Forwarding begun n (g.run a.atGateway) := by
  have careful := h.careful
  have ends := h.ends
  obtain ⟨owes, tells, told⟩ := h.told
  rw [hf] at careful ends tells
  obtain ⟨gateway, -, forwarded⟩ := perform_frame e careful.not_opens
  rw [h.gateway] at gateway
  obtain ⟨forwarded_le, take⟩ := h.take_later (g.later_run a.atGateway)
  -- the forwarder ends a session, and takes nothing back
  have isOver : s.state = .terminated → s'.state = .terminated := by
    intro state
    rw [(perform_shown e).1, state]
    exact tells.lasts
  -- what was forwarded before is still forwarded, and its end is told or about to be
  have ends' : .terminated ∈ (g.run a.atGateway).worker.published.take s'.forwarded →
      s'.state = .terminated ∨ (next r).Ends := by
    intro taken
    rw [forwarded, take] at taken
    rcases ends taken with state | ends
    · exact .inl (isOver state)
    · exact ends.after e
  have careful' := careful.after h.gateway e
  obtain ⟨owes', tells', balance⟩ := tells.after e
  exact
  { gateway
    fit := (h.fit.run careful.fits).mono isOver
    careful := careful'
    told := ⟨owes', tells', by dsimp only; omega⟩
    forwarded_le := forwarded ▸ forwarded_le
    ends := ends' }

/-- A turn of the forwarder takes an event or does the next action for the last one. -/
theorem stepForwarder (h : s.Forwarding begun n g) :
    ∃ g', g.Later g' ∧ s.stepForwarder.Forwarding begun n g' := by
  rcases s.stepForwarder_cases with ⟨a, next, r, s', hf, e, step⟩ | ⟨event, hf, e, step⟩ | step
  · rw [step]
    exact ⟨_, g.later_run _, h.performed hf e⟩
  · rw [step]
    exact ⟨g, .refl g, h.take hf e⟩
  · rw [step]
    exact ⟨g, .refl g, h⟩

/-- When the forwarder has ended, the session is over, and the client was told so. -/
theorem of_ended (h : s.Forwarding begun n g) (ended : s.forwarderEnded = true) :
    s.state = .terminated ∧ s.outbox.told "terminated" = n + 1 ∧ s.forwarder = .done () ∧
      s.nextEvent? = none ∧ g.phase = .finished := by
  obtain ⟨done, none, silenced⟩ := of_forwarderEnded ended
  have finished := h.fit.finished_of_silenced (silenced h.gateway)
  -- all events were taken, and among them the one for the end of the session
  have all : g.worker.published.take s.forwarded = g.worker.published := by
    refine List.take_of_length_le ?_
    simpa [nextEvent?, h.gateway] using none
  have published : .terminated ∈ g.worker.published.take s.forwarded := by
    rw [all, ← List.count_pos_iff, h.fit.orderly.count_terminated finished]
    exact Nat.one_pos
  have state : s.state = .terminated := by
    refine (h.ends published).resolve_right ?_
    rw [done]
    exact id
  -- a forwarder that is done owes nothing
  obtain ⟨owes, tells, told⟩ := h.told
  rw [done] at tells
  rw [show owes = false from tells, if_pos state] at told
  exact ⟨state, told, done, none, finished⟩

end Forwarding

/-- The session is with one gateway, of which `P` holds. -/
def Beside (begun : Bool) (n : Nat) (P : Gateway σ → Prop) (s : System σ) : Prop :=
  ∃ g, s.Forwarding begun n g ∧ P g

/-- What holds of a gateway from some time on, holds of it beside the session. -/
theorem stable_beside {P : Gateway σ → Prop} (keeps : ∀ {g g'}, g.Later g' → P g → P g')
    (begun : Bool) (n : Nat) : Stable (Beside begun n P) where
  forwarder := by
    rintro s ⟨g, h, hg⟩
    obtain ⟨g', later, h'⟩ := h.stepForwarder
    exact ⟨g', h', keeps later hg⟩
  engine := fun ⟨g, h, hg⟩ => ⟨_, h.stepEngine, keeps g.later_advance hg⟩

end System

end DebugAdapter
