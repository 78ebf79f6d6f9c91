import DebugAdapter.Proofs.DebuggeeStart
import DebugAdapter.Scripted.Engine

/-!
# Debuggees that could not be started

A request to start a debuggee may fail because the engine could not start it. Then the session is over
and the client was told so, although the session thread takes further requests, also to start a
debuggee. Whatever these do, the session state stays, and the client is told of no further stop.

## Key results

- `Session.bare_receiveAll`: between two requests, a session without a debuggee has no gateway, unless
  it is over
- `SessionRun.run_failed_start`: what a failed start comes to, and that it lasts
-/

namespace DebugAdapter

variable {σ : Type} [Engine σ]

/-! ## All requests -/

/-- The action does not take back that the session is over, and is no event of these names. -/
structure Action.Lasting (names : List String) (a : Action) : Prop where
  lasts : a.stateAfter .terminated = .terminated
  silent : ∀ name ∈ names, a.tells name = false

namespace Session

/-- No request takes back that the session is over. -/
theorem requestUse_lasting {names : List String} (continued : "continued" ∉ names)
    (initialized : "initialized" ∉ names) :
    RequestUse (Action.Lasting names) (Sendable (Action.Lasting names)) where
  read := ⟨rfl, fun _ _ => rfl⟩
  advance := fun _ => ⟨rfl, fun _ _ => rfl⟩
  continued := fun _ => ⟨rfl, fun name h =>
    beq_eq_false_iff_ne.2 fun e : "continued" = name => continued (e ▸ h)⟩
  note := fun _ => ⟨rfl, fun _ _ => rfl⟩
  -- what is asked of the gateway writes nothing and leaves the state as it is
  calls := by
    intro a h
    cases a <;> first | exact ⟨rfl, fun _ _ => rfl⟩ | exact False.elim h
  keeps := fun h agree e he => h e (agree.deferred ▸ he)
  respond := fun _ => ⟨rfl, fun _ _ => rfl⟩
  sendable := id
  drops := fun _ _ he => absurd he List.not_mem_nil
  supported := ⟨rfl, fun _ _ => rfl⟩
  -- what is kept back to be announced is the event `initialized`
  announces := by
    intro t h e he
    rcases List.mem_append.1 he with he | he
    · exact h e he
    · rw [List.mem_singleton.1 he]
      exact ⟨rfl, fun name h =>
        beq_eq_false_iff_ne.2 fun e : "initialized" = name => initialized (e ▸ h)⟩
  host := by
    intro a h
    cases a <;> first | exact ⟨rfl, fun _ _ => rfl⟩ | exact False.elim h
  opens := by
    intro a h
    cases a <;> first | exact ⟨rfl, fun _ _ => rfl⟩ | exact False.elim h
  disposes := by
    intro a h
    cases a <;> first | exact ⟨rfl, fun _ _ => rfl⟩ | exact False.elim h
  finish := ⟨rfl, fun _ _ => rfl⟩
  starts := fun h same e he => h e (same ▸ he)

/-- A session that is over stays so. -/
theorem Uses.ended {α : Type} {m : SessionM α}
    (hm : Uses (Action.Lasting []) (Sendable (Action.Lasting [])) m) :
    Gives (fun _ (s : System σ) => s.Ended) m fun _ _ s => s.Ended :=
  (hm.gives System.stable_ended fun ha => fun h e => h.perform e ha.lasts).mono
    (fun _ _ h => ⟨fun _ _ => ⟨rfl, nofun⟩, h⟩) fun _ _ _ h => h.2

/-- Requests that neither start a debuggee nor end the session. -/
private theorem bare_of_uses {α : Type} {m : SessionM α}
    (hm : ∀ {S : Session → Prop}, (∀ {t t' : Session}, S t → t'.started = t.started → S t') →
      Uses Action.Tame S m) : Gives (Bare (σ := σ)) m fun _ => Bare :=
  (Uses.bare hm (A := fun _ => True) ⟨id, id⟩ fun _ => fun _ _ => trivial).mono
    (fun _ _ h => ⟨h, trivial⟩) fun _ _ _ h => h.1

/-- When there is a debuggee, no other one is started. -/
private theorem uses_start_of_started {S : Session → Prop} (started : ∀ {t}, S t → t.started = true)
    {r : Request} (start : r.command = "launch" ∨ r.command = "attach") :
    Uses Action.Tame S (dispatch r).run := by
  have refused : ∀ {code : ErrorCode} {f : Unit → RequestM (Option Json)},
      Uses Action.Tame S (ensureNotStarted code >>= f).run := by
    intro code f t ht
    obtain ⟨config, engineName, environment, convention, sourceMap, on, forwarding, pending,
      configurationDone, deferred⟩ := t
    obtain rfl : on = true := started ht
    exact ht
  -- both requests are refused before anything else
  rcases start with h | h
  · have launch : Uses Action.Tame S (launch r).run := refused
    simpa only [dispatch, h] using launch
  · have attach : Uses Action.Tame S (attach r).run := refused
    simpa only [dispatch, h] using attach

/-- A request to disconnect ends the session. -/
private theorem ended_disconnect : Gives (Bare (σ := σ)) disconnect.run fun _ _ s => s.Ended := by
  have finished : Gives (Bare (σ := σ)) (Session.perform (.updateState fun _ => .terminated))
      fun _ _ s => s.Ended := by
    refine .perform stable_bare fun {t s r s'} h e => ⟨?_, (System.perform_shown e).1⟩
    have tame : s.Tame := h.elim (·.tame) fun h => h.elim (·.tame) (·.1)
    exact tame.perform e
  have lasting : RequestUse (Action.Lasting []) (Sendable (Action.Lasting [])) :=
    requestUse_lasting nofun nofun
  refine Gives.bindLift finished fun _ => Uses.ended ?_
  exact lasting.shutdown.liftM.bindExcept fun _ => .ok _

/-- Every request leaves the session without a gateway or over, unless there is a debuggee. -/
theorem bare_handle (r : Request) : Gives (Bare (σ := σ)) (handle r) fun _ => Bare := by
  have lasting : RequestUse (Action.Lasting []) (Sendable (Action.Lasting [])) :=
    requestUse_lasting nofun nofun
  have logged : Gives (Bare (σ := σ)) (Session.log .debug (toString r.seq ++ ": " ++ r.command))
      fun _ => Bare :=
    bare_of_uses fun keeps => (ordinaryUse_tame keeps).log _ _
  -- a request that starts a debuggee depends on what was known before it
  by_cases start : r.command = "launch" ∨ r.command = "attach"
  · rintro t s (none | ended | started)
    · -- without a gateway the start may be tried
      by_cases isOver : s.state = .terminated
      · exact ((lasting.handle r).ended t s ⟨none.tame, isOver⟩).mono fun _ _ h => .inr (.inl h)
      · refine (gives_start start t s ⟨rfl, none, isOver, rfl⟩).mono ?_
        rintro _ s' (fine | isOver)
        · exact fine.1
        · exact .inr (.inl isOver.2.ended)
    · exact ((lasting.handle r).ended t s ended).mono fun _ _ h => .inr (.inl h)
    · -- with a debuggee a request to start another one is refused
      have refused : Uses Action.Tame (fun t => t.started = true) (handle r) :=
        have F := ordinaryUse_tame (S := fun t => t.started = true) fun h same => same.trans h
        (F.log _ _).bind fun _ => (uses_start_of_started id start).bind fun result => F.answer r result
      have kept := refused.gives (System.stable_tame (σ := σ)) fun _ => fun h e => h.perform e
      exact (kept t s started.symm).mono fun _ _ h => .inr (.inr h.symm)
  · obtain ⟨launch, attach⟩ := not_or.1 start
    -- to disconnect ends the session, and any other request leaves it as it was
    by_cases disconnected : r.command = "disconnect"
    · have dispatched : Gives (Bare (σ := σ)) (dispatch r).run fun _ _ s => s.Ended := by
        simpa only [dispatch, disconnected] using ended_disconnect
      refine logged.bind fun _ => dispatched.bind fun result => ?_
      exact (lasting.answer r result).ended.mono (fun _ _ h => h) fun _ _ _ h => .inr (.inl h)
    · exact bare_of_uses fun keeps =>
        have F := ordinaryUse_tame keeps
        (F.log _ _).bind fun _ => (F.dispatch launch attach disconnected).bind fun result =>
          F.answer r result

/-- Between two requests, a session without a debuggee has no gateway, unless it is over. -/
theorem bare_receiveAll (messages : List Json) :
    Gives (Bare (σ := σ)) (receiveAll messages) fun _ => Bare := by
  have noted : ∀ level text, Gives (Bare (σ := σ)) (Session.log level text) fun _ => Bare :=
    fun level text => bare_of_uses fun keeps => (ordinaryUse_tame keeps).log level text
  have received : ∀ m, Gives (Bare (σ := σ)) (receive m) fun _ => Bare := by
    intro m
    unfold receive
    split
    · exact (noted _ _).bind fun _ => .pure fun _ _ h => h
    · split
      · exact (noted _ _).bind fun _ => .pure fun _ _ h => h
      · exact (bare_handle _).bind fun _ => .pure fun _ _ h => h
  -- induction on the messages
  induction messages with
  | nil => exact .pure fun _ _ h => h
  | cons m rest ih =>
    refine (received m).bind fun goesOn => ?_
    split
    · exact ih
    · exact .pure fun _ _ h => h

end Session

/-! ## What the client is told when the session is over -/

/-- When the session is over, the program takes that not back, and tells of no stop. -/
def Program.Silent {α : Type} : Program α → Prop
  | .done _ => True
  | .act (.updateState f) next => f .terminated = .terminated ∧ (next .terminated).Silent
  | .act (.send m) next => m.tells "stopped" = false ∧ ∀ r, (next r).Silent
  | .act _ next => ∀ r, (next r).Silent

/-- A silent program stays silent, as long as the session is over. -/
theorem Program.Silent.after {a : Action} {next : a.Result → Program Unit} {s s' : System σ}
    {r : a.Result} (h : (Program.act a next).Silent) (e : s.perform a = some (r, s'))
    (state : s.state = .terminated) : (next r).Silent ∧ a.stateAfter .terminated = .terminated ∧
      a.tells "stopped" = false := by
  cases a with
  | updateState f =>
    cases e
    refine ⟨?_, h.1, rfl⟩
    rw [state]
    exact h.2
  | send m => exact ⟨h.2 r, rfl, h.1⟩
  | _ => exact ⟨h r, rfl, rfl⟩

/-- A disposal is silent. -/
theorem Session.silent_dispose : dispose.Silent := by
  intro before
  cases before with
  | true => trivial
  | false => exact fun _ _ _ _ _ => trivial

/-- Once the session is over, forwarding an event tells of no stop. -/
theorem Session.silent_forward (e : GatewayEvent) : (forward e).Silent := by
  have stop : ∀ reason thread text, (forwardStop reason thread text).Silent :=
    fun _ _ _ => ⟨rfl, trivial⟩
  cases e with
  | processExited code => exact ⟨rfl, fun _ => ⟨rfl, silent_dispose⟩⟩
  | terminated => exact ⟨rfl, trivial⟩
  | breakpointHit | exceptionHit | breakHit | stepCompleted => exact stop _ _ _
  | threadStarted | threadExited | output => exact ⟨rfl, fun _ => trivial⟩

namespace System

/-- The session is over, and the client was told of `m` stops, which are all. -/
structure Silent (m : Nat) (s : System σ) : Prop where
  state : s.state = .terminated
  forwarder : s.forwarder.Silent
  told : s.outbox.told "stopped" = m

variable {m : Nat} {s s' : System σ}

/-- What the client was told of stops, and the session state. -/
private theorem Silent.shown (h : s.Silent m) {a : Action} {r : a.Result}
    (e : s.perform a = some (r, s')) (lasts : a.stateAfter .terminated = .terminated)
    (silent : a.tells "stopped" = false) :
    s'.state = .terminated ∧ s'.outbox.told "stopped" = m := by
  obtain ⟨state, told⟩ := perform_shown e
  refine ⟨?_, ?_⟩
  · rw [state, h.state, lasts]
  · rw [told (by decide), silent, h.told]
    rfl

/-- An action that tells of no stop leaves the system silent. -/
theorem Silent.perform (h : s.Silent m) {a : Action} {r : a.Result}
    (e : s.perform a = some (r, s')) (lasting : a.Lasting ["stopped"]) : s'.Silent m := by
  obtain ⟨state, told⟩ := h.shown e lasting.lasts (lasting.silent _ List.mem_cons_self)
  refine ⟨state, ?_, told⟩
  rcases perform_forwarder e with same | anew
  · rw [same]
    exact h.forwarder
  · rw [anew]
    trivial

/-- Once the session is over, the other threads tell of no stop. -/
theorem stable_silent (m : Nat) : Stable (Silent (σ := σ) m) where
  forwarder := by
    intro s h
    -- the forwarder acts, takes an event, or waits
    rcases s.stepForwarder_cases with ⟨a, next, r, s', hf, e, step⟩ | ⟨event, -, -, step⟩ | step
    · have silent := h.forwarder
      rw [hf] at silent
      obtain ⟨rest, lasts, tells⟩ := silent.after e h.state
      obtain ⟨state, told⟩ := h.shown e lasts tells
      rw [step]
      exact ⟨state, rest, told⟩
    · rw [step]
      exact ⟨h.state, Session.silent_forward event, h.told⟩
    · rwa [step]
  engine := fun h => ⟨h.state, h.forwarder, h.told⟩

end System

namespace SessionRun

/-- Between two requests of any session, let there be no debuggee, and let the session not be over. If
the engine then answers the next request to start a debuggee with a failure, the session keeps what it
knows, but it is over: the client was told so, and whatever is requested later, and however the threads
are scheduled, the session state stays and the client is told of no stop any more. -/
theorem run_failed_start {s₀ s s' : System σ} {t₀ t t' : Session} (new : s₀.gateway = none)
    (idle : s₀.forwarder = .done ()) {before : List Json} {schedule₀ schedule : List SessionThread}
    (reached : (⟨s₀, (Session.receiveAll before).run t₀⟩ : SessionRun σ (Bool × Session)).run schedule₀ =
      ⟨s, .done (true, t)⟩) (bare : t.started = false) (on : s.state ≠ .terminated) {r : Request}
    (start : r.command = "launch" ∨ r.command = "attach")
    (answered : (⟨s, (Session.handle r).run t⟩ : SessionRun σ (Unit × Session)).run schedule =
      ⟨s', .done ((), t')⟩) {g : Gateway σ} (gateway : s'.gateway = some g) {e : LaunchFailure}
    (failed : g.answer? 0 = some (.launched (.error e))) :
    t' = { t with forwarding := false, deferred := [] } ∧ s'.state = .terminated ∧
    s'.outbox.told "terminated" = s.outbox.told "terminated" + 1 ∧
    ∀ (after : List Json) (later : List SessionThread), let ends :=
        (⟨s', (Session.receiveAll after).run t'⟩ : SessionRun σ (Bool × Session)).run later
      ends.system.state = .terminated ∧
      ends.system.outbox.told "stopped" = s'.outbox.told "stopped" := by
  -- what is known between two requests, from the run before
  have between : t.Bare s := by
    have yields := Session.bare_receiveAll (σ := σ) before t₀ s₀ (.inl ⟨new, idle⟩)
    have h := yields_run (r := ⟨s₀, (Session.receiveAll before).run t₀⟩)
      (fun r => Session.stable_bare r.2) yields schedule₀
    rw [reached] at h
    exact h
  have none : s.NoGateway := by
    rcases between with none | ended | started
    · exact none
    · exact absurd ended.state on
    · exact nomatch bare.symm.trans started.2
  -- what comes of the start: a debuggee, or the end of the session
  have tried : Session.Tried (s.outbox.told "terminated") t t' s' := by
    have yields := Session.gives_start start t s ⟨rfl, none, on, rfl⟩
    have h := yields_run (r := ⟨s, (Session.handle r).run t⟩) ?_ yields schedule
    · rw [answered] at h
      exact h
    · exact fun r => ((Session.stable_bare r.2).and System.stable_unfailed).or
        (Session.stable_at (System.Over.stable _) r.2)
  rcases tried with fine | ⟨rfl, isOver⟩
  · exact absurd failed ((fine.2.gateway g gateway).answer?_ne e)
  · refine ⟨rfl, isOver.state, isOver.told, fun after later => ?_⟩
    -- a session that is over stays so, by whatever is requested later
    have silent : s'.Silent (s'.outbox.told "stopped") :=
      ⟨isOver.state, by rw [isOver.forwarder]; trivial, rfl⟩
    have lasting : Session.RequestUse (Action.Lasting ["stopped"])
        (Session.Sendable (Action.Lasting ["stopped"])) :=
      Session.requestUse_lasting (by decide) (by decide)
    have all := lasting.receiveAll after { t with forwarding := false, deferred := [] }
      fun e he => absurd he List.not_mem_nil
    have h := all_run (r := ⟨s', (Session.receiveAll after).run
      { t with forwarding := false, deferred := [] }⟩) (System.stable_silent _)
      (fun ha => fun h e => h.perform e ha) ⟨silent, all⟩ later
    exact ⟨h.1.state, h.1.told⟩

/-- A machine with one process, and an engine that cannot attach to it. -/
def unattachable : System Scripted.World where
  provider := Scripted.provider
  host := { processes := [⟨7, none⟩] }
  native := { failures := [("attach_process", .status .fail)] }

/-- A client of a new session wants to attach to that process, and the threads take turns. -/
def attached (turns : Nat) : SessionRun Scripted.World (Unit × Session) :=
  (⟨unattachable, (Session.handle ⟨1, "request", "attach", .object [("processId", .int 7)]⟩).run
    { engineName := "fake" }⟩ : SessionRun Scripted.World (Unit × Session)).run
    (List.replicate turns [.requests, .engine, .forwarder]).flatten

/-- The engine thread has answered that the debuggee was not started. -/
def startFailed (s : System Scripted.World) : Bool :=
  match s.gateway.bind (·.answer? 0) with
  | some (.launched (.error _)) => true
  | _ => false

/-- A session that was not over is over after one request. -/
theorem run_failed_start_attached : startFailed (attached 19).system = true ∧
    (attached 19).system.state = .terminated ∧
    (attached 19).system.outbox.told "terminated" = 1 := by
  have failed : startFailed (attached 19).system = true := by decide +kernel
  have done : (attached 19).program.isDone = true := by decide +kernel
  have none : unattachable.outbox.told "terminated" = 0 := rfl
  obtain ⟨t', answered⟩ : ∃ t', attached 19 = ⟨(attached 19).system, .done ((), t')⟩ := by
    generalize attached 19 = run at done
    obtain ⟨system, program⟩ := run
    cases program with
    | done r => exact ⟨r.2, rfl⟩
    | act a next => exact nomatch done
  -- the gateway answered that the start failed
  obtain ⟨g, e, gateway, answer⟩ : ∃ g e, (attached 19).system.gateway = some g ∧
      g.answer? 0 = some (.launched (.error e)) := by
    unfold startFailed at failed
    split at failed
    · next e he =>
      obtain ⟨g, hg, ha⟩ := Option.bind_eq_some_iff.1 he
      exact ⟨g, e, hg, ha⟩
    · exact nomatch failed
  -- nothing was requested before
  have reached : (⟨unattachable, (Session.receiveAll []).run { engineName := "fake" }⟩ :
      SessionRun Scripted.World (Bool × Session)).run [] =
        ⟨unattachable, .done (true, { engineName := "fake" })⟩ := rfl
  have h := run_failed_start rfl rfl reached rfl nofun (.inr rfl) answered gateway answer
  exact ⟨failed, h.2.1, h.2.2.1.trans (congrArg (· + 1) none)⟩

end SessionRun

end DebugAdapter
