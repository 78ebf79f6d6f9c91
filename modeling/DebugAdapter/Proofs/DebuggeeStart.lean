import DebugAdapter.Proofs.BareSessions

/-!
# Starting a debuggee

A request to start a debuggee is followed action by action: there is no gateway before (`System.Fresh`),
then there is a new one with its forwarder (`System.Forwarding`), and the answer of the engine thread
decides. If the debuggee was not started, the session disposes of the gateway, and by then it is over
(`System.Over`).

## Key results

- `Session.gives_start`: what the start of a debuggee comes to
-/

namespace DebugAdapter

variable {σ : Type} [Engine σ]

/-! ## Where a start can be -/

/-- The action neither touches a gateway nor changes what is known of the end of the session. -/
structure Action.Plain (a : Action) : Prop where
  not_opens : ¬a.Opens
  atGateway_eq : a.atGateway = []
  stateAfter_eq : ∀ state, a.stateAfter state = state
  silent : a.tells "terminated" = false

/-- What is asked of the host is plain. -/
theorem Action.plain_of_onHost {a : Action} (h : a.OnHost) : a.Plain := by
  cases a <;> first | exact ⟨id, rfl, fun _ => rfl, rfl⟩ | exact False.elim h

/-- A record in the log is plain. -/
theorem Action.plain_note (r : LogRecord) : (note r).Plain :=
  ⟨id, rfl, fun _ => rfl, rfl⟩

/-- A response is plain. -/
theorem Action.plain_respond (r : Response) : (send (.response r)).Plain :=
  ⟨id, rfl, fun _ => rfl, rfl⟩

namespace System

/-- There is no gateway yet, and the session is not over. -/
structure Fresh (n : Nat) (s : System σ) : Prop extends s.NoGateway where
  state : s.state ≠ .terminated
  told : s.outbox.told "terminated" = n

/-- The session is over, and all was said. -/
structure Over (n : Nat) (s : System σ) : Prop where
  gateway : ∃ g, s.gateway = some g ∧ g.phase = .finished
  forwarder : s.forwarder = .done ()
  next : s.nextEvent? = none
  state : s.state = .terminated
  told : s.outbox.told "terminated" = n + 1

variable {n : Nat} {s s' : System σ}

/-- A session without a gateway stays fresh while the other threads go on. -/
theorem Fresh.stable (n : Nat) : Stable (Fresh (σ := σ) n) where
  forwarder := by
    intro s h
    rwa [h.stepForwarder_eq]
  engine := fun h => ⟨stable_noGateway.engine h.toNoGateway, h.state, h.told⟩

/-- A plain action leaves a session fresh. -/
theorem Fresh.perform (h : s.Fresh n) {a : Action} (plain : a.Plain) {r : a.Result}
    (e : s.perform a = some (r, s')) : s'.Fresh n := by
  obtain ⟨state, told⟩ := perform_shown e
  refine ⟨h.toNoGateway.perform e plain.not_opens, ?_, ?_⟩
  · rw [state, plain.stateAfter_eq]
    exact h.state
  · rw [told (by decide), plain.silent]
    exact h.told

omit [Engine σ] in
/-- A session that is over has ended. -/
theorem Over.ended (h : s.Over n) : s.Ended :=
  ⟨by rw [Tame, h.forwarder]; trivial, h.state⟩

/-- A session that is over stays so while the other threads go on. -/
theorem Over.stable (n : Nat) : Stable (Over (σ := σ) n) where
  forwarder := by
    intro s h
    simp only [stepForwarder, h.forwarder, h.next]
    exact h
  engine := by
    intro s h
    obtain ⟨g, gateway, finished⟩ := h.gateway
    have same : s.stepEngine = s := by
      obtain ⟨provider, host, console, state, outbox, native, gateway', forwarded, forwarder⟩ := s
      obtain rfl : gateway' = some g := gateway
      rw [stepEngine, onGateway, Option.map_some, Gateway.advance_of_finished finished]
    rw [same]
    exact h

/-- A plain action leaves a session over. -/
theorem Over.perform (h : s.Over n) {a : Action} (plain : a.Plain) {r : a.Result}
    (e : s.perform a = some (r, s')) : s'.Over n := by
  obtain ⟨state, told⟩ := perform_shown e
  obtain ⟨gateway, forwarder, forwarded⟩ := perform_frame e plain.not_opens
  -- a plain action is not made at the gateway
  have gateway : s'.gateway = s.gateway := by
    rw [gateway, plain.atGateway_eq]
    cases s.gateway <;> rfl
  exact
  { gateway := gateway ▸ h.gateway
    forwarder := forwarder.trans h.forwarder
    next := by
      have next := h.next
      rw [nextEvent?] at next ⊢
      rwa [gateway, forwarded]
    state := by rw [state, plain.stateAfter_eq, h.state]
    told := by
      rw [told (by decide), plain.silent]
      exact h.told }

end System

/-! ## Gateways whose debuggee was not refused -/

/-- No debuggee failed to start: one was started by the first command, or that was to terminate. -/
def Gateway.Unfailed (g : Gateway σ) : Prop :=
  (∃ p, g.answer? 0 = some (.launched (.ok p))) ∨
  g.Orderly ∧ ∃ executed, g.Trace [(0, .terminate)] executed

namespace Gateway.Unfailed

variable {g : Gateway σ}

/-- A start that has not failed at a gateway does not fail later. -/
theorem act (h : g.Unfailed) (a : GatewayAction) : (g.act a).Unfailed := by
  -- an answer stays an answer, and a queue that was closed accepts nothing any more
  rcases h with ⟨p, answer⟩ | ⟨orderly, executed, trace⟩
  · refine .inl ⟨p, ?_⟩
    obtain ⟨later, hl⟩ := (g.later_act a).answers
    rw [answer?, Option.map_eq_some_iff] at answer ⊢
    obtain ⟨found, hf, hp⟩ := answer
    refine ⟨found, ?_, hp⟩
    rw [← hl, List.find?_append, hf]
    rfl
  · have closed : g.accepting = false := by
      cases hacc : g.accepting with
      | false => rfl
      | true => exact absurd rfl (trace.none_of_accepting hacc _ (List.mem_singleton_self _))
    have allowed : a.AllowedIn g := by
      cases a with
      | cancel => exact closed
      | _ => trivial
    -- so the action adds no command to the trace
    have refused : g.acceptedBy a = [] := by
      cases a with
      | submit c => simp [acceptedBy, Gateway.submit, closed]
      | closeQueue => simp [acceptedBy, Gateway.submit, closed]
      | _ => rfl
    have trace := trace.act orderly a
    rw [refused] at trace
    exact .inr ⟨orderly.act allowed, _, trace⟩

/-- The first answer, if there is any, does not tell of a failure. -/
theorem answer?_ne (h : g.Unfailed) (e : LaunchFailure) :
    g.answer? 0 ≠ some (.launched (.error e)) := by
  intro answer
  -- the first command was answered otherwise, or it was not a start
  rcases h with ⟨p, h⟩ | ⟨-, executed, trace⟩
  · rw [h] at answer
    exact nomatch answer
  · rw [answer?, Option.map_eq_some_iff] at answer
    obtain ⟨⟨ticket, r⟩, found, rfl⟩ := answer
    obtain ⟨x, mem, -, gives⟩ := trace.answered _ (List.mem_of_find?_eq_some found)
    -- what was carried out is what was accepted
    have entry : x.entry = (0, .terminate) :=
      List.mem_singleton.1 (trace.entries_sublist.mem (List.mem_map_of_mem mem))
    have outcome : x.outcome = .answered (.executed (Worker.terminate.run x.worker).1) := by
      have hc : x.command = .terminate := (Prod.mk.inj entry).2
      rw [Execution.outcome, hc]
      rfl
    rcases gives with h | ⟨d, _, _, h, -⟩
    · exact nomatch outcome.symm.trans h
    · exact nomatch outcome.symm.trans h

end Gateway.Unfailed

namespace System

/-- No debuggee failed to start, and the forwarder makes no gateway. -/
structure Unfailed (s : System σ) : Prop where
  tame : s.Tame
  gateway : ∀ g, s.gateway = some g → g.Unfailed

variable {s s' : System σ}

/-- That no start has failed is a condition on the gateway. -/
private theorem unfailed_iff : s.Unfailed ↔ s.Holds Gateway.Unfailed :=
  ⟨fun h => ⟨h.tame, h.gateway⟩, fun h => ⟨h.tame, h.gateway⟩⟩

/-- Unless a gateway is opened, no start fails by an action. -/
theorem Unfailed.perform (h : s.Unfailed) {a : Action} {r : a.Result}
    (e : s.perform a = some (r, s')) (on : ¬a.Opens) : s'.Unfailed :=
  unfailed_iff.2 ((unfailed_iff.1 h).perform Gateway.Unfailed.act e on)

/-- While the other threads go on, no start fails that has not. -/
theorem stable_unfailed : Stable (Unfailed (σ := σ)) where
  forwarder := fun h => unfailed_iff.2 ((stable_holds Gateway.Unfailed.act).forwarder (unfailed_iff.1 h))
  engine := fun h => unfailed_iff.2 ((stable_holds Gateway.Unfailed.act).engine (unfailed_iff.1 h))

/-- Without a gateway no start has failed. -/
theorem NoGateway.unfailed (h : s.NoGateway) : s.Unfailed :=
  ⟨h.tame, fun _ hg => nomatch h.gateway.symm.trans hg⟩

end System

/-- The session is as between two requests, and no debuggee failed to start. -/
def Session.Fine (t : Session) (s : System σ) : Prop :=
  t.Bare s ∧ s.Unfailed

/-- Without a gateway, no debuggee has failed to start. -/
theorem System.NoGateway.fine {s : System σ} (h : s.NoGateway) (t : Session) : t.Fine s :=
  ⟨.inl h, h.unfailed⟩

/-- If the first command is refused, the session is over without it. -/
theorem System.Forwarding.fine {n : Nat} {s : System σ} {g : Gateway σ}
    (h : s.Forwarding false n g) (closed : g.accepting = false) (t : Session) : t.Fine s := by
  obtain ⟨owes, tells, -⟩ := h.told
  have tame : s.Tame := h.careful.tame tells
  obtain ⟨executed, trace | ⟨isOver, trace⟩⟩ := h.fit.unbegun rfl
  · obtain ⟨before, ticket, he, -⟩ := trace.last_of_closed closed
    exact absurd he.symm (by simp)
  · refine ⟨.inr (.inl ⟨tame, isOver⟩), tame, fun g' hg => ?_⟩
    obtain rfl := Option.some.inj (h.gateway.symm.trans hg)
    exact .inr ⟨h.fit.orderly, executed, trace⟩

/-- The first command that is accepted has the first ticket. -/
theorem System.Forwarding.issued_eq {n : Nat} {s : System σ} {g : Gateway σ}
    (h : s.Forwarding false n g) (on : g.accepting = true) : g.issued = 0 := by
  obtain ⟨executed, trace | ⟨-, trace⟩⟩ := h.fit.unbegun rfl
  · simpa using (congrArg List.length trace.tickets).symm
  · exact absurd rfl (trace.none_of_accepting on _ (List.mem_singleton_self _))

/-- Making an engine and a gateway on it. -/
theorem System.Fresh.openGateway {n : Nat} {s s' : System σ} (h : s.Fresh n)
    {engineOptions : EngineOptions} {options : GatewayOptions} {r : Except GatewayError Unit}
    (e : s.perform (.openGateway engineOptions options) = some (r, s')) :
    (∃ failure, r = .error failure ∧ s'.NoGateway) ∨
      r = .ok () ∧ s'.Beside false n fun _ => True := by
  simp only [System.perform, System.openGateway, Option.some.injEq] at e
  -- the engine is made, or not
  split at e
  · next failure native _ =>
    cases e
    refine .inl ⟨failure, rfl, ?_, h.forwarder⟩
    simp only [onGateway, h.gateway]
    rfl
  · next g native created =>
    cases e
    -- a new gateway has published nothing, and the forwarder has nothing to forward
    refine .inr ⟨rfl, g, ?_, trivial⟩
    obtain ⟨engine, rfl⟩ := Gateway.create_ok created
    exact
    { gateway := rfl
      fit := Gateway.fit_new _ _ _
      careful := trivial
      told := ⟨false, rfl, by rw [if_neg h.state]; exact h.told⟩
      forwarded_le := Nat.zero_le _
      ends := fun taken => absurd taken List.not_mem_nil }

namespace Session

/-- Requests that make no gateway have no debuggee fail to start. -/
theorem Uses.fine {α : Type} {m : SessionM α}
    (hm : ∀ {S : Session → Prop}, (∀ {t t' : Session}, S t → t'.started = t.started → S t') →
      Uses Action.Tame S m) : Gives (Fine (σ := σ)) m fun _ => Fine :=
  Uses.bare hm System.stable_unfailed fun ha => fun h e => h.perform e ha.not_opens

variable {n : Nat} {t : Session}

/-- The session is as it was, and the system as `B` says. -/
def At (t : Session) (B : System σ → Prop) : Session → System σ → Prop :=
  fun t' s => t' = t ∧ B s

/-- A session that is at one place stays there while the other threads go on. -/
theorem stable_at {B : System σ → Prop} (stable : System.Stable B) (t' : Session) :
    System.Stable (At t B t') :=
  stable.and_const _

/-! ### Before there is a gateway -/

/-- A plain action leaves a fresh session where it is. -/
theorem fresh_perform {a : Action} (plain : a.Plain) :
    Gives (At t (System.Fresh (σ := σ) n)) (Session.perform a) fun _ => At t (System.Fresh n) :=
  .perform (stable_at (System.Fresh.stable n)) fun h e => ⟨h.1, h.2.perform plain e⟩

/-! ### The start -/

/-- After an engine was to be made. -/
def Made (n : Nat) (t : Session) : Except GatewayError Unit → Session → System σ → Prop
  | .ok _ => At t (System.Beside false n fun _ => True)
  | .error _ => Fine

/-- After a gateway was to be made. -/
def Opened (n : Nat) (t : Session) : Except RequestFailure Unit → Session → System σ → Prop
  | .ok _ => At { t with forwarding := true } (System.Beside false n fun _ => True)
  | .error _ => Fine

/-- After a look at the machine, an engine is made, and then there is a forwarder. -/
theorem Gives.openGateway {A : Session → System σ → Prop}
    {Q : Except GatewayError Unit → Session → System σ → Prop}
    {R : Except RequestFailure Unit → Session → System σ → Prop}
    (looks : Gives A (Session.perform .findStdLibrary) fun _ => A)
    (notes : ∀ record, Gives A (Session.perform (.note record)) fun _ => A)
    (makes : ∀ engineOptions options,
      Gives A (Session.perform (.openGateway engineOptions options)) Q)
    (failed : ∀ e failure t s, Q (.error e) t s → R (.error failure) t s)
    (made : ∀ t s, Q (.ok ()) t s → R (.ok ()) { t with forwarding := true } s)
    (r : Request) (code : ErrorCode) : Gives A (Session.openGateway r code).run R := by
  refine Gives.bindLift (.get (Q := fun _ => A) fun _ _ h => h) fun s => ?_
  refine Gives.bindLift looks fun found => ?_
  obtain ⟨stdLibrary, record⟩ := found
  -- whether there is a record to make or not, the gateway is made next
  dsimp only
  split
  case' h_1 => refine Gives.bindLift (notes _) fun _ => ?_
  all_goals
    refine Gives.bindLift (makes _ _) fun result => ?_
    cases result with
    | error e => exact .pure fun t s h => failed e _ t s h
    | ok u => exact Gives.liftM (.modify fun t s h => made t s h)

/-- Opening a gateway gives one beside the session, or fails with none. -/
theorem gives_openGateway (r : Request) (code : ErrorCode) :
    Gives (At t (System.Fresh (σ := σ) n)) (Session.openGateway r code).run (Opened n t) := by
  have made : ∀ engineOptions options, Gives (At t (System.Fresh (σ := σ) n))
      (Session.perform (.openGateway engineOptions options)) (Made n t) := by
    intro engineOptions options
    refine .perform (stable_at (System.Fresh.stable n)) ?_
    intro t' s result s' h e
    rcases h.2.openGateway e with ⟨failure, rfl, none⟩ | ⟨rfl, opened⟩
    · exact none.fine _
    · exact ⟨h.1, opened⟩
  refine .openGateway (fresh_perform (Action.plain_of_onHost (a := .findStdLibrary) trivial))
    (fun _ => fresh_perform (Action.plain_note _)) made (fun _ _ _ _ h => h) ?_ r code
  rintro t' s ⟨rfl, h⟩
  exact ⟨rfl, h⟩

/-- The answer to the command that starts the debuggee, if it was started. -/
def Answers (reply : Reply) (g : Gateway σ) : Prop :=
  ∀ p, reply = .launched (.ok p) → g.answer? 0 = some (.launched (.ok p))

/-- After the command to start a debuggee was to be queued. -/
def Queued (n : Nat) (t : Session) : Option Ticket → Session → System σ → Prop
  | some ticket => At t (System.Beside true n fun _ => ticket = 0)
  | none => Fine

/-- After that command was answered, or was refused. -/
def Answered (n : Nat) (t : Session) : Option Reply → Session → System σ → Prop
  | some reply => At t (System.Beside true n (Answers reply))
  | none => Fine

/-- After a debuggee was to be started. -/
def Asked (n : Nat) (t : Session) : Except RequestFailure Reply → Session → System σ → Prop
  | .ok reply => Answered n t (some reply)
  | .error _ => Fine

/-- A command is the first one of a new gateway, or it is refused, and then the gateway accepts none. -/
private theorem gives_submit (c : Command) :
    Gives (At t (System.Beside (σ := σ) false n fun _ => True)) (Session.perform (.submit c))
      (Queued n t) := by
  refine .perform (stable_at (System.stable_beside (fun _ h => h) _ _)) ?_
  rintro t' s ticket s' ⟨rfl, g, h, -⟩ e
  obtain ⟨rfl, h'⟩ := h.submit e
  -- the queue may be closed already, if the forwarder has disposed the gateway
  cases on : g.accepting with
  | true =>
    have first : (g.submit c).1 = some 0 := by
      rw [Gateway.submit, if_pos on, h.issued_eq on]
    rw [first]
    exact ⟨rfl, _, h', rfl⟩
  | false =>
    have refused : g.submit c = (none, g) := by
      rw [Gateway.submit, if_neg (by simp [on])]
    simp only [System.perform, System.submit, h.gateway, refused, Option.some.injEq, Prod.mk.injEq] at e
    rw [refused]
    obtain ⟨-, rfl⟩ := e
    have same : { s with gateway := some g } = s := by
      rw [← h.gateway]
    rw [same]
    exact h.fine on _

/-- A reply that says that the debuggee was started is that of the engine thread, since the one that stands
in for it does not say so. -/
private theorem gives_await {c : Command} (starts : c.defaultReply = .launched (.error .noAnswer))
    (ticket : Ticket) :
    Gives (Queued (σ := σ) n t (some ticket)) (do
      return (← Session.perform (.await ticket)).getD c.defaultReply)
      fun reply => Answered n t (some reply) := by
  have waited : Gives (Queued (σ := σ) n t (some ticket)) (Session.perform (.await ticket))
      fun reply => Answered n t (some (reply.getD c.defaultReply)) := by
    refine .perform (stable_at (System.stable_beside (fun _ h => h) _ _)) ?_
    rintro t' s reply s' ⟨rfl, g, h, rfl⟩ e
    obtain ⟨rfl, given⟩ := System.perform_await e
    refine ⟨rfl, g, h, fun p hp => ?_⟩
    cases reply with
    -- without an answer the reply is a failure, so there is no process
    | none =>
      rw [Option.getD_none, starts] at hp
      cases hp
    | some reply =>
      obtain ⟨g', hg, answer⟩ := given rfl
      obtain rfl : g = g' := Option.some.inj (h.gateway.symm.trans hg)
      rw [answer, ← hp]
      rfl
  exact waited.bind fun _ => .pure fun _ _ h => h

/-- The command to start is answered by the gateway, or refused. -/
theorem gives_startCommand {c : Command} (starts : c.defaultReply = .launched (.error .noAnswer)) :
    Gives (At t (System.Beside (σ := σ) false n fun _ => True)) (Session.startCommand c).run
      (Asked n t) := by
  have asked : Gives (At t (System.Beside (σ := σ) false n fun _ => True)) (Session.command? c)
      (Answered n t) := by
    refine (gives_submit c).bind fun ticket => ?_
    cases ticket with
    | none => exact .pure fun _ _ h => h
    | some ticket =>
      dsimp only
      -- a start neither pauses the debuggee nor terminates it, and so nothing is interrupted
      split
      · next h => rcases h with rfl | rfl <;> cases starts
      · exact (gives_await starts ticket).bind fun _ => .pure fun _ _ h => h
  refine Gives.bindLift asked fun reply => ?_
  cases reply with
  | none => exact .pure fun _ _ h => h
  | some reply => exact .pure fun _ _ h => h

/-! ### The end of a start that failed -/

/-- An action of the session to dispose of its gateway. -/
private theorem yields_disposing {α : Type} {Q : α → System σ → Prop} {P : Gateway σ → Prop}
    (keeps : ∀ {g g'}, g.Later g' → P g → P g') {a : Action} {next : a.Result → Program α}
    (on : ¬a.Opens) (same : ∀ state, a.stateAfter state = state) (silent : a.tells "terminated" = false)
    (fits : ∀ {g : Gateway σ} {isOver}, P g → ∀ b ∈ a.atGateway, b.Fits true isOver g)
    (hnext : ∀ {s : System σ} {r s' g}, P g → s.gateway = some g → s.perform a = some (r, s') →
      s'.Forwarding true n (g.run a.atGateway) → (next r).Yields Q s') {s : System σ}
    (h : s.Beside true n P) : (Program.act a next).Yields Q s := by
  refine Program.yields_act (System.stable_beside keeps true n) h ?_
  rintro s r s' ⟨g, h, hg⟩ e
  exact hnext hg h.gateway e (h.perform e on (same _) silent (fits hg))

/-- Whoever disposes of the gateway. -/
theorem yields_dispose {s : System σ} (h : s.Beside true n fun _ => True) :
    Session.dispose.Yields (fun _ s => s.Beside true n fun _ => True) s := by
  -- what the next action relies on lasts, whatever the other threads do in between
  have closed : ∀ {g g' : Gateway σ}, g.Later g' → g.accepting = false → g'.accepting = false :=
    fun later => later.closed
  have ended : ∀ {g g' : Gateway σ}, g.Later g' → g.phase = .finished → g'.phase = .finished :=
    fun later => later.finished
  have fits : ∀ {g : Gateway σ} {isOver : Prop} {a : GatewayAction}, a.Fits true isOver g →
      ∀ b ∈ [a], b.Fits true isOver g := by
    intro g isOver a h b hb
    rwa [List.mem_singleton.1 hb]
  refine yields_disposing (a := .markDisposed) (P := fun _ => True) (fun _ h => h) id (fun _ => rfl) rfl
    (fun _ => fits trivial) ?_ h
  rintro s before s' g - - - h
  cases before with
  | true => exact ⟨_, h, trivial⟩
  -- the actions of disposing, one after the other, each with what the next one relies on
  | false =>
    refine yields_disposing (a := .closeQueue) (P := fun _ => True) (fun _ h => h) id (fun _ => rfl) rfl
      (fun _ => fits (.inl rfl)) ?_ ⟨_, h, trivial⟩
    rintro s - s' g - - - h
    refine yields_disposing (a := .cancel) (P := (·.accepting = false)) closed id (fun _ => rfl) rfl
      (fun hg => fits hg) ?_ ⟨_, h, g.accepting_submit_terminate⟩
    rintro s - s' g hg - - h
    refine yields_disposing (a := .interrupt) (P := fun _ => True) (fun _ h => h) id (fun _ => rfl) rfl
      (fun _ => fits trivial) ?_ ⟨_, h, trivial⟩
    rintro s - s' g - - - h
    refine yields_disposing (a := .awaitEnd) (P := fun _ => True) (fun _ h => h) id (fun _ => rfl) rfl
      (fun _ _ hb => absurd hb List.not_mem_nil) ?_ ⟨_, h, trivial⟩
    -- the wait for the end is over only when the engine thread has finished
    rintro s r s' g - hg e h
    have finished := (System.perform_awaitEnd e).2 hg
    refine yields_disposing (a := .silence) (P := (·.phase = .finished)) ended id (fun _ => rfl) rfl
      (fun hg => fits hg) ?_ ⟨_, h, finished⟩
    rintro s - s' g - - - h
    exact ⟨_, h, trivial⟩

/-- The forwarder has ended, so the session is over. -/
theorem gives_joinForwarder (forwarding : t.forwarding = true) :
    Gives (At t (System.Beside (σ := σ) true n fun _ => True)) Session.joinForwarder
      fun _ => At { t with forwarding := false } (System.Over n) := by
  have joined : Gives (At { t with forwarding := false } (System.Beside (σ := σ) true n fun _ => True))
      (Session.perform .joinForwarder) fun _ => At { t with forwarding := false } (System.Over n) := by
    refine .perform (stable_at (System.stable_beside (fun _ h => h) _ _)) ?_
    rintro t' s r s' ⟨rfl, g, h, -⟩ e
    obtain ⟨rfl, ended⟩ := System.perform_joinForwarder e
    obtain ⟨state, told, done, next, finished⟩ := h.of_ended ended
    exact ⟨rfl, ⟨g, h.gateway, finished⟩, done, next, state, told⟩
  refine Gives.bind (Q := fun t' => At t fun s => t' = t ∧ s.Beside true n fun _ => True)
    (.get fun t' s h => ⟨h.1, h.1, h.2⟩) fun t' => ?_
  -- the forwarder was started with the gateway, so there is one to wait for
  split
  · refine Gives.bind (.modify fun t'' s h => ?_) fun _ => joined
    exact ⟨by rw [h.1], h.2.2⟩
  · next off =>
    refine .pure fun t'' s h => absurd ?_ off
    rw [h.2.1]
    exact forwarding

/-! ### The whole request -/

/-- After a request to start a debuggee: unless it failed because the debuggee could not be started,
nothing is known but what is known between any two requests. -/
def Started (n : Nat) (t : Session) :
    Except RequestFailure (Option Json) → Session → System σ → Prop
  | .ok _ => Fine
  | .error _ => fun t' s => t'.Fine s ∨ At { t with forwarding := false } (System.Over n) t' s

/-- A session that is fine after a start may go on. -/
theorem Fine.started {t' : Session} {s : System σ} (h : t'.Fine s)
    (result : Except RequestFailure (Option Json)) : Started n t result t' s := by
  cases result with
  | ok body => exact h
  | error failure => exact .inl h

/-- A start that succeeded leaves the session fine, and one that failed is over. -/
theorem gives_finishStart (forwarding : t.forwarding = true) (r : Request) (code : ErrorCode)
    (reply : Reply) : Gives (At t (System.Beside (σ := σ) true n (Answers reply)))
      (Session.finishStart r code reply).run (Started n t) := by
  unfold Session.finishStart
  split
  · next process =>
    -- the reply was given, so the start has not failed, which is what later requests rely on
    have logged : Gives (At t (System.Beside (σ := σ) true n (Answers (.launched (.ok process)))))
        (Session.log .info ("debuggee started, pid " ++ toString process.pid.toNat))
        fun _ _ s => s.Unfailed := by
      refine Gives.mono (A := fun _ s => s.Unfailed) ?_ ?_ fun _ _ _ h => h
      · exact .perform (fun _ => System.stable_unfailed) fun h e => h.perform e id
      · rintro t' s ⟨-, g, h, answers⟩
        obtain ⟨owes, tells, -⟩ := h.told
        refine ⟨h.careful.tame tells, fun g' hg => ?_⟩
        obtain rfl := Option.some.inj (h.gateway.symm.trans hg)
        exact .inl ⟨process, answers process rfl⟩
    -- from here on the debuggee counts as started
    have noted : Gives (fun _ (s : System σ) => s.Unfailed) (modify fun s : Session =>
        { s with sourceMap := .ofArguments r.arguments, started := true } : SessionM PUnit)
        fun _ => Fine :=
      .modify fun _ s h => ⟨.inr (.inr ⟨h.tame, rfl⟩), h⟩
    have rest := Uses.fine (σ := σ) fun keeps => (ordinaryUse_tame keeps).afterStart
    refine Gives.bindLift logged fun _ => ?_
    refine Gives.bindLift noted fun _ => ?_
    exact rest.mono (fun _ _ h => h) fun result _ _ h => h.started result
  · -- a start that failed disposes the gateway and waits for the forwarder
    have disposed : Gives (At t (System.Beside (σ := σ) true n (Answers reply)))
        (StateT.lift Session.dispose) fun _ => At t (System.Beside true n fun _ => True) := by
      refine .lift fun t' s h => ?_
      obtain ⟨g, hg, -⟩ := h.2
      exact (yields_dispose ⟨g, hg, trivial⟩).mono fun _ _ h' => ⟨h.1, h'⟩
    refine Gives.bindLift disposed fun _ => ?_
    refine Gives.bindLift (gives_joinForwarder forwarding) fun _ => ?_
    exact .pure fun _ _ h => .inr h

/-- As long as there is no gateway, a request may fail. -/
private theorem started_of_fresh (result : Except RequestFailure (Option Json)) (t' : Session)
    (s : System σ) (h : At t (System.Fresh n) t' s) : Started n t result t' s :=
  (h.2.fine t').started result

/-- The gateway is made, the debuggee is started, and the answer decides. -/
private theorem gives_opened (r : Request) (code : ErrorCode) {c : Command}
    (starts : c.defaultReply = .launched (.error .noAnswer)) :
    Gives (At t (System.Fresh (σ := σ) n)) (Session.startBy r code c).run (Started n t) := by
  refine (gives_openGateway r code).bindExcept (fun _ => ?_) fun _ _ _ h => h.started _
  refine (gives_startCommand starts).bindExcept (fun reply => ?_) fun _ _ _ h => h.started _
  refine (gives_finishStart rfl r code reply).mono (fun _ _ h => h) fun result t' s h => ?_
  -- only the forwarder that was to be joined differs
  cases result with
  | ok body => exact h
  | error failure => exact h

/-- What is looked up on the machine makes no gateway. -/
private theorem fresh_looked {α : Type} {m : RequestM α} (looks : Uses Action.Plain (· = t) m.run) :
    Gives (At t (System.Fresh (σ := σ) n)) m.run fun _ => At t (System.Fresh n) :=
  looks.gives (System.Fresh.stable n) fun plain => fun h e => h.perform plain e

/-- A launch starts a debuggee, or the session is fine or over. -/
theorem gives_launch (r : Request) :
    Gives (At t (System.Fresh (σ := σ) n)) (Session.launch r).run (Started n t) := by
  rw [launch_eq]
  have looks := fresh_looked (σ := σ) (n := n) (t := t)
    (.requestedLaunch (fun _ => Action.plain_of_onHost) Action.plain_note r)
  exact looks.bindExcept (fun _ => gives_opened r _ rfl) fun _ => started_of_fresh _

/-- An attachment starts a debuggee, or the session is fine or over. -/
theorem gives_attach (r : Request) :
    Gives (At t (System.Fresh (σ := σ) n)) (Session.attach r).run (Started n t) := by
  rw [attach_eq]
  have looks := fresh_looked (σ := σ) (n := n) (t := t)
    (.requestedAttach (fun _ => Action.plain_of_onHost) Action.plain_note r)
  exact looks.bindExcept (fun _ => gives_opened r _ rfl) fun _ => started_of_fresh _

/-- After a request to start a debuggee was answered. -/
def Tried (n : Nat) (t : Session) : Session → System σ → Prop :=
  fun t' s => t'.Fine s ∨ At { t with forwarding := false, deferred := [] } (System.Over n) t' s

/-- A plain action leaves a session that is over where it is. -/
private theorem over_perform {a : Action} (plain : a.Plain) :
    Gives (At t (System.Over (σ := σ) n)) (Session.perform a) fun _ => At t (System.Over n) :=
  .perform (stable_at (System.Over.stable n)) fun h e => ⟨h.1, h.2.perform plain e⟩

/-- The answer to a request that failed, when the session is over. -/
private theorem over_failed (r : Request) (failure : RequestFailure) :
    Gives (At t (System.Over (σ := σ) n)) (do
      let message ← failureMessage r failure
      modify fun s => { s with deferred := [] }
      Session.log .debug ("error " ++ toString r.seq ++ ": " ++ message.text)
      Session.perform (.send (.response (.error r message))))
      fun _ => At { t with deferred := [] } (System.Over n) := by
  have message : Gives (At t (System.Over (σ := σ) n)) (failureMessage r failure)
      fun _ => At t (System.Over n) := by
    -- a failure without a message of its own is logged first
    cases failure with
    | reported m => exact .pure fun _ _ h => h
    | other text =>
      exact Gives.bind (over_perform (Action.plain_note _)) fun _ => .pure fun _ _ h => h
  have dropped : Gives (At t (System.Over (σ := σ) n))
      (modify fun s => { s with deferred := [] } : SessionM PUnit)
      fun _ => At { t with deferred := [] } (System.Over n) :=
    .modify fun t' s h => ⟨by rw [h.1], h.2⟩
  refine message.bind fun m => dropped.bind fun _ => ?_
  exact Gives.bind (over_perform (Action.plain_note _)) fun _ => over_perform (Action.plain_respond _)

/-- A request to start a debuggee has the session end if the debuggee could not be started, and changes
nothing else of it then. -/
theorem gives_start {r : Request} (start : r.command = "launch" ∨ r.command = "attach") :
    Gives (At t (System.Fresh (σ := σ) n)) (Session.handle r) fun _ => Tried n t := by
  have dispatched : Gives (At t (System.Fresh (σ := σ) n)) (Session.dispatch r).run (Started n t) := by
    rcases start with h | h
    · simpa only [Session.dispatch, h] using gives_launch r
    · simpa only [Session.dispatch, h] using gives_attach r
  refine Gives.bind (fresh_perform (Action.plain_note _)) fun _ => dispatched.bind fun result => ?_
  have answered := Uses.fine (σ := σ) fun keeps => (ordinaryUse_tame keeps).answer r result
  -- what is fine stays so with any answer, and what is over only fails
  cases result with
  | ok body => exact answered.mono (fun _ _ h => h) fun _ _ _ h => .inl h
  | error failure =>
    rintro t' s (fine | isOver)
    · exact (answered t' s fine).mono fun _ _ h => .inl h
    · exact (over_failed r failure t' s isOver).mono fun _ _ h => .inr h

end Session

end DebugAdapter
