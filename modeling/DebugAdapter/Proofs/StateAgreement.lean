import DebugAdapter.Proofs.ScriptedStatus
import DebugAdapter.Proofs.StateRequests

/-!
# The session state agrees with the engine

When all was told of a debuggee that lives, the session state says whether it runs. This holds for the
session of a client that behaves (`Session.Mannered`): it lets the debuggee run only when that is stopped
and all was told of the stop, and it has a debuggee started once. What it inspects, and when it pauses,
is up to it.

Without this, a stop may be told after the debuggee was let run once more, and the session then counts as
stopped for as long as the debuggee runs (`Session.overrun_disagrees`).

## Key results

- `Session.handle_settled`: a request of a client that behaves, whatever the other threads do meanwhile
- `Session.stable_settled`: what is known between two requests is kept by the other threads
- `Session.Attended.state_eq`: the session state at rest
-/

namespace DebugAdapter

variable {σ : Type} [Engine σ] {V : StatusView σ}

/-- The action makes no gateway, and does not end the session. -/
structure Action.Early (a : Action) : Prop where
  not_opens : ¬a.Opens
  goesOn : ∀ state, state ≠ .terminated → a.stateAfter state ≠ .terminated

namespace Action

/-- A harmless action opens nothing and ends nothing. -/
theorem Harmless.early {a : Action} (h : a.Harmless) : a.Early := by
  cases a <;> first | exact ⟨id, fun _ h => h⟩ | exact h.elim

/-- What is asked of the host opens nothing and ends nothing. -/
theorem OnHost.early {a : Action} (h : a.OnHost) : a.Early := by
  cases a <;> first | exact ⟨id, fun _ h => h⟩ | exact h.elim

end Action

namespace System

variable {s s' : System σ} {a : Action} {r : a.Result}

/-- What makes the engines stays, and so does an engine without a gateway, unless one is made. -/
theorem perform_native (e : s.perform a = some (r, s')) (on : ¬a.Opens) :
    s'.provider = s.provider ∧ s'.native = s.native := by
  -- only opening a gateway touches the engine that was there before
  cases a with
  | openGateway engineOptions options => exact absurd trivial on
  | note r =>
    cases e
    unfold note
    split <;> exact ⟨rfl, rfl⟩
  | submit c =>
    have e : s' = (s.submit c).2 := (Prod.mk.inj (Option.some.inj e)).2.symm
    rw [e, System.submit]
    split <;> exact ⟨rfl, rfl⟩
  | await ticket => exact (perform_await e).1 ▸ ⟨rfl, rfl⟩
  | awaitEnd => exact (perform_awaitEnd e).1 ▸ ⟨rfl, rfl⟩
  | joinForwarder => exact (perform_joinForwarder e).1 ▸ ⟨rfl, rfl⟩
  | _ =>
    cases e
    exact ⟨rfl, rfl⟩

/-- A gateway may be followed by another one, but does not go away. -/
theorem perform_gateway_ne_none (h : s.gateway ≠ none) (e : s.perform a = some (r, s')) :
    s'.gateway ≠ none := by
  obtain ⟨g, gateway⟩ := Option.ne_none_iff_exists'.1 h
  by_cases opens : a.Opens
  · cases a with
    | openGateway engineOptions options =>
      have e : s' = (s.openGateway engineOptions options).2 := (Prod.mk.inj (Option.some.inj e)).2.symm
      rw [e, openGateway]
      split
      · simp only [onGateway, gateway]
        exact Option.some_ne_none _
      · exact Option.some_ne_none _
    | _ => exact opens.elim
  · rw [(perform_frame e opens).1, gateway]
    exact Option.some_ne_none _

/-- A gateway that was made stays. -/
theorem stable_gateway_ne_none : Stable fun s : System σ => s.gateway ≠ none where
  forwarder := by
    intro s h
    rcases s.stepForwarder_cases with ⟨a, next, r, s', hf, e, step⟩ | ⟨event, -, -, step⟩ | step
    · have there : s'.gateway ≠ none := perform_gateway_ne_none h e
      rwa [step]
    · rwa [step]
    · rwa [step]
  engine := by
    intro s h
    rw [stepEngine, onGateway]
    exact fun none => h (Option.map_eq_none_iff.1 none)

/-- There is no gateway yet, and the session is not over. Engines are made as they should be. -/
structure Vacant (V : StatusView σ) (s : System σ) : Prop extends s.NoGateway where
  state : s.state ≠ .terminated
  fit : V.fit s.native
  makes : V.Makes s.provider

/-- A system without a gateway stays without one while the other threads go on. -/
theorem stable_vacant : Stable (Vacant V) where
  forwarder := by
    intro s h
    rwa [h.stepForwarder_eq]
  engine := fun h => ⟨stable_noGateway.engine h.toNoGateway, h.state, h.fit, h.makes⟩

/-- An early action leaves a system without a gateway. -/
theorem Vacant.perform (h : s.Vacant V) (early : a.Early) (e : s.perform a = some (r, s')) :
    s'.Vacant V where
  toNoGateway := h.toNoGateway.perform e early.not_opens
  state := by
    rw [(perform_shown e).1]
    exact early.goesOn _ h.state
  fit := by
    rw [(perform_native e early.not_opens).2]
    exact h.fit
  makes := by
    rw [(perform_native e early.not_opens).1]
    exact h.makes

/-- A gateway is made on an engine, unless that fails. -/
theorem Vacant.openGateway (h : s.Vacant V) {engineOptions : EngineOptions} {options : GatewayOptions}
    {r : Except GatewayError Unit} (e : s.perform (.openGateway engineOptions options) = some (r, s')) :
    (∃ failure, r = .error failure ∧ s'.Vacant V) ∨
      r = .ok () ∧ s'.Minds V (Gateway.Minding V (Outline.Held fun _ => True)) := by
  simp only [System.perform, System.openGateway, Option.some.injEq] at e
  -- as long as there is no gateway, the engine is the native one
  have engine : s.engine = s.native := by
    rw [System.engine, h.gateway]
    rfl
  have makes := h.makes engineOptions s.native h.fit
  rw [engine] at e
  -- the engine is made with a debuggee that stands still, or it is not made
  split at e
  · next failure native created =>
    cases e
    rw [Gateway.create] at created
    split at created
    · cases created
    · next call =>
      cases created
      rw [call] at makes
      -- a call that failed leaves all as it was
      refine .inl ⟨_, rfl, ⟨?_, h.forwarder⟩, h.state, makes.1, h.makes⟩
      simp only [onGateway, h.gateway]
      rfl
  · next g native created =>
    cases e
    rw [Gateway.create] at created
    split at created
    · next engine call =>
      cases created
      rw [call] at makes
      obtain ⟨fit, stopped⟩ := makes
      refine .inr ⟨rfl, trivial, _, rfl, fun _ => ?_⟩
      exact
      { underway := ⟨fit, rfl, rfl, rfl, List.not_mem_nil, trivial⟩
        numbered := by
          refine ⟨?_, ?_, ?_⟩
          all_goals intros; contradiction
        forwarder := trivial
        forwarded_le := Nat.le_refl 0
        goesOn := h.state
        mode := ⟨⟨(by intros; contradiction), rfl⟩, stopped rfl, rfl, rfl, trivial⟩ }
    · cases created

end System

/-! ## Sessions between two requests -/

namespace Session

/-- There is no debuggee, and none can be started any more. -/
def Lost (t : Session) (s : System σ) : Prop :=
  t.started = false ∧ s.gateway ≠ none

/-- There is no debuggee yet. -/
def Unstarted (V : StatusView σ) (t : Session) (s : System σ) : Prop :=
  t.started = false ∧ s.Vacant V

/-- What is known of a session between two requests. -/
inductive Settled (V : StatusView σ) (t : Session) (s : System σ) : Prop
  | unstarted (h : t.Unstarted V s)
  | lost (h : t.Lost s)
  | agreeing (h : Agreeing V t s)

/-- A session that has started nothing stays so while the other threads go on. -/
theorem stable_unstarted (t : Session) : System.Stable (t.Unstarted V (σ := σ)) where
  forwarder := fun h => ⟨h.1, System.stable_vacant.forwarder h.2⟩
  engine := fun h => ⟨h.1, System.stable_vacant.engine h.2⟩

/-- A session whose start has failed stays so while the other threads go on. -/
theorem stable_lost (t : Session) : System.Stable (t.Lost (σ := σ)) where
  forwarder := fun h => ⟨h.1, System.stable_gateway_ne_none.forwarder h.2⟩
  engine := fun h => ⟨h.1, System.stable_gateway_ne_none.engine h.2⟩

/-- A settled session stays settled while the other threads go on. -/
theorem stable_settled (L : V.Lawful) (t : Session) : System.Stable (Settled V t) where
  forwarder := by
    rintro s (h | h | h)
    · exact .unstarted ((stable_unstarted t).forwarder h)
    · exact .lost ((stable_lost t).forwarder h)
    · exact .agreeing ((stable_has L (Gateway.mode_minding Outline.lasting_agrees) t).forwarder h)
  engine := by
    rintro s (h | h | h)
    · exact .unstarted ((stable_unstarted t).engine h)
    · exact .lost ((stable_lost t).engine h)
    · exact .agreeing ((stable_has L (Gateway.mode_minding Outline.lasting_agrees) t).engine h)

variable {α : Type} {m : SessionM α}

/-- Early actions leave a session that has started nothing. -/
theorem gives_early (hm : Uses Action.Early (·.started = false) m) :
    Gives (Unstarted V (σ := σ)) m fun _ => Unstarted V :=
  hm.gives System.stable_vacant fun early _ _ _ h e => h.perform early e

/-- A session whose start has failed stays so if no other one succeeds. -/
theorem gives_lost {P : Action → Prop} (hm : Uses P (·.started = false) m) :
    Gives (Lost (σ := σ)) m fun _ => Lost :=
  hm.gives System.stable_gateway_ne_none fun _ _ _ _ h e => System.perform_gateway_ne_none h e

/-- What does not change whether there is a debuggee leaves a session settled, if it is harmless. -/
theorem gives_settled (L : V.Lawful) {started : Bool}
    (hm : Uses Action.Harmless (·.started = started) m) :
    Gives (fun t s => t.started = started ∧ Settled V t s) m
      fun _ t s => t.started = started ∧ Settled V t s := by
  rintro t s ⟨rfl, h | h | h⟩
  · rw [h.1] at hm ⊢
    exact (gives_early (hm.mono fun _ => Action.Harmless.early) t s h).mono fun _ _ h => ⟨h.1, .unstarted h⟩
  · rw [h.1] at hm ⊢
    exact (gives_lost hm t s h).mono fun _ _ h => ⟨h.1, .lost h⟩
  · rw [h.1] at hm ⊢
    exact (gives_harmless L Outline.lasting_agrees hm t s h).mono fun _ _ h => ⟨h.1, .agreeing h⟩

/-! ### The start of a debuggee -/

/-- After a gateway was to be made. -/
private def AfterOpening (V : StatusView σ) {ε : Type} : Except ε Unit → Session → System σ → Prop
  | .ok _ => Minding V (·.started = false) (Outline.Held fun _ => True)
  | .error _ => Unstarted V

/-- Opening a gateway gives one without a debuggee, or fails with none. -/
private theorem gives_opened_stopped (r : Request) (code : ErrorCode) :
    Gives (Unstarted V (σ := σ)) (Session.openGateway r code).run (AfterOpening V) := by
  have early : ∀ a : Action, a.Early → Gives (Unstarted V (σ := σ)) (Session.perform a) fun _ => Unstarted V :=
    fun a h => gives_early (.perform h)
  refine Gives.openGateway (Q := AfterOpening V)
    (early _ (Action.OnHost.early (a := .findStdLibrary) trivial))
    (fun _ => early _ (Action.Harmless.early trivial)) ?_ (fun _ _ _ _ h => h) (fun _ _ h => h) r code
  refine fun _ _ => .perform stable_unstarted ?_
  rintro t s result s' ⟨off, vacant⟩ e
  rcases vacant.openGateway e with ⟨failure, rfl, vacant⟩ | ⟨rfl, minds⟩
  · exact ⟨off, vacant⟩
  · exact ⟨off, minds⟩

/-- After a debuggee was to be started. -/
private def AfterAsking (V : StatusView σ) (c : Command) :
    Except RequestFailure Reply → Session → System σ → Prop
  | .ok reply => Minding V (·.started = false) (Gateway.Told c (fun _ => True) reply)
  | .error _ => Lost

omit [Engine σ] in
/-- With a gateway and no debuggee, the start has failed. -/
private theorem Has.lost {P : Gateway σ → Bool → SessionState → Prop} {t : Session} {s : System σ}
    (h : Has V (·.started = false) P t s) : t.Lost s := by
  obtain ⟨off, -, g, gateway, -⟩ := h
  exact ⟨off, fun none => nomatch gateway.symm.trans none⟩

/-- The command to start is answered with what it told of the debuggee. -/
private theorem gives_asked (L : V.Lawful) {c : Command} (starts : c.starts = true) :
    Gives (Minding V (·.started = false) (Outline.Held fun _ => True)) (Session.startCommand c).run
      (AfterAsking V c) := by
  refine Gives.bindLift (gives_command? L (.inl starts)) fun reply => ?_
  cases reply with
  | none => exact .pure fun _ _ h => Has.lost h
  | some reply => exact .pure fun _ _ h => h

/-- What follows when the debuggee was started: it is held, unless the client is done with its settings. -/
private theorem gives_afterStart (L : V.Lawful) {R : Outline → Prop} (lasting : Outline.Lasting R)
    (held : ∀ o, R o → o.Held fun _ => True) : Gives (Minding V (·.started = true) R) (do
      Session.advanceTo .stopped
      Session.applyPendingBreakpoints
      if (← getThe Session).configurationDone then Session.continueAfterConfiguration
      return none : RequestM (Option Json)).run fun _ => Agreeing V := by
  have asks : AskUse Action.Harmless (·.started = true) :=
    askUse_harmless fun h agree => agree.started.trans h
  -- whatever is known of the debuggee, it stands still
  have stops : Gives (Minding V (·.started = true) R)
      (Session.perform (.updateState (SessionState.advanceTo .stopped))) fun _ => Stopped V := by
    refine gives_advanceTo L lasting fun o h => ⟨nofun, ?_⟩
    obtain ⟨runs, due, returned, -⟩ := held o h
    exact ⟨runs, due, returned, rfl⟩
  have applied := gives_harmless (V := V) L (Outline.lasting_held (· = .stopped)) asks.applyPendingBreakpoints
  refine Gives.bindAdvanceTo stops ?_
  refine applied.bindExcept (fun _ => ?_) fun _ _ _ h => Stopped.agreeing h
  refine Gives.bindLift (.get (Q := fun _ => Stopped V) fun _ _ h => h) fun t => ?_
  split
  · exact (gives_continueAfterConfiguration L).bindExcept (fun _ => .pure fun _ _ h => h) fun _ _ _ h => h
  · exact .pure fun _ _ h => Stopped.agreeing h

/-- Without a debuggee, the gateway is disposed of. -/
theorem uses_abandon {S : Session → Prop}
    (keeps : ∀ {t : Session}, S t → ∀ forwarding, S { t with forwarding }) (m : ErrorMessage) :
    Uses (fun _ => True) S (do
      ExceptT.lift (StateT.lift Session.dispose)
      ExceptT.lift Session.joinForwarder
      Session.failWith m : RequestM (Option Json)).run := by
  have disposed : Uses (fun _ => True) S (StateT.lift Session.dispose) :=
    .lift (all_dispose fun _ _ => trivial)
  have joined : Uses (fun _ => True) S Session.joinForwarder := by
    refine Uses.get.bind fun t => ?_
    split
    · exact Uses.bind (P := fun _ => True) (.modify fun _ h => keeps h false) fun _ => .perform trivial
    · exact .pure _
  exact disposed.liftM.bindExcept fun _ => joined.liftM.bindExcept fun _ => .failWith _

/-- The end of a start leaves the session settled. -/
private theorem gives_finished (L : V.Lawful) (r : Request) (code : ErrorCode) (c : Command)
    (reply : Reply) :
    Gives (AfterAsking V c (.ok reply)) (Session.finishStart r code reply).run fun _ => Settled V := by
  unfold Session.finishStart
  split
  · next process =>
    have lasting := Gateway.lasting_told c (fun _ => True) (.launched (.ok process))
    refine Gives.bindLift (gives_harmless L lasting (.perform (a := .note _) trivial)) fun _ => ?_
    refine Gives.bindLift (.modify (Q := fun _ => Minding V (·.started = true)
      (Gateway.Told c (fun _ => True) (.launched (.ok process)))) fun t s h => ⟨rfl, h.2⟩) fun _ => ?_
    refine (gives_afterStart L lasting fun o held => ?_).mono (fun _ _ h => h) fun _ _ _ => .agreeing
    obtain ⟨runs, due, returned, -⟩ := held
    exact ⟨runs, due, returned, trivial⟩
  · refine Gives.mono (A := Lost) (Q := fun _ => Lost) ?_ (fun _ _ => Has.lost) fun _ _ _ => .lost
    exact gives_lost (uses_abandon (fun h _ => h) _)

/-- A start leaves the session settled. -/
private theorem gives_startBy (L : V.Lawful) (r : Request) (code : ErrorCode) {c : Command}
    (starts : c.starts = true) :
    Gives (Unstarted V) (Session.startBy r code c).run fun _ => Settled V := by
  refine (gives_opened_stopped r code).bindExcept (fun _ => ?_) fun _ _ _ => .unstarted
  exact (gives_asked L starts).bindExcept (fun reply => gives_finished L r code c reply)
    fun _ _ _ => .lost

/-- Requests to start a debuggee, as long as there is none. -/
theorem gives_start_unstarted (L : V.Lawful) {r : Request}
    (start : r.command = "launch" ∨ r.command = "attach") :
    Gives (Unstarted V) (Session.dispatch r).run fun _ => Settled V := by
  have host : ∀ a : Action, a.OnHost → a.Early := fun _ => Action.OnHost.early
  have note : ∀ record, (Action.note record).Early := fun _ => Action.Harmless.early trivial
  rcases start with h | h <;> simp only [Session.dispatch, h]
  · rw [launch_eq]
    exact (gives_early (.requestedLaunch host note r)).bindExcept (fun _ => gives_startBy L r _ rfl)
      fun _ _ _ => .unstarted
  · rw [attach_eq]
    exact (gives_early (.requestedAttach host note r)).bindExcept (fun _ => gives_startBy L r _ rfl)
      fun _ _ _ => .unstarted

/-! ### Other requests -/

/-- Without a debuggee, none is resumed. -/
theorem run_runDebuggee_unstarted {t : Session} (off : t.started = false) (c : Command) :
    (Session.runDebuggee c).run.run t = .done (.error (.reported .noDebuggee), t) := by
  cases t
  cases off
  rfl

/-- Beside a debuggee, none is started. -/
theorem run_ensureNotStarted_started {t : Session} (on : t.started = true) (code : ErrorCode) :
    ∃ failure, (Session.ensureNotStarted code).run.run t = .done (.error failure, t) := by
  cases t
  cases on
  exact ⟨_, rfl⟩

/-- Requests that neither start nor resume a debuggee. -/
theorem uses_harmless {r : Request} {started : Bool} (begins : r.command ≠ "initialize")
    (disconnect : r.command ≠ "disconnect")
    (refused : r.command = "launch" ∨ r.command = "attach" → started = true)
    (idle : r.Resumes → started = false) :
    Uses Action.Harmless (·.started = started) (Session.dispatch r).run := by
  have asks : AskUse Action.Harmless (·.started = started) :=
    askUse_harmless fun h agree => agree.started.trans h
  -- a request that would resume is refused without a debuggee
  by_cases resumes : r.Resumes
  · obtain rfl := idle resumes
    -- without a debuggee a request to resume is refused before anything is done
    have ran : ∀ c (body : Option Json), Uses Action.Harmless (·.started = false)
        (do Session.runDebuggee c; return body : RequestM (Option Json)).run := by
      refine fun c body => Uses.bindExcept (fun t off => ?_) fun _ => .ok _
      rw [run_runDebuggee_unstarted off]
      exact off
    have configured : Uses Action.Harmless (·.started = false) Session.finishConfiguration.run := by
      intro t off
      cases t
      cases off
      exact rfl
    simp only [Request.Resumes, List.mem_cons, List.not_mem_nil, or_false] at resumes
    rcases resumes with h | h | h | h | h <;> simp only [Session.dispatch, h]
    · exact configured
    all_goals exact ran _ _
  · by_cases start : r.command = "launch" ∨ r.command = "attach"
    · obtain rfl := refused start
      -- with a debuggee a request to start one is refused before anything is done
      have refuses : ∀ {α : Type} (code : ErrorCode) (m : RequestM α), Uses Action.Harmless (·.started = true)
          (do Session.ensureNotStarted code; m).run := by
        intro α code m t on
        obtain ⟨failure, refuses⟩ := run_ensureNotStarted_started on code
        rw [ExceptT.run_bind, StateT.run_bind, refuses]
        exact on
      rcases start with h | h <;> simp only [Session.dispatch, h]
      · exact refuses _ _
      · exact refuses _ _
    · obtain ⟨launch, attach⟩ := not_or.1 start
      exact asks.dispatch begins launch attach disconnect resumes

/-! ### What the client may ask for -/

end Session

/-- All that the engine thread has told of the debuggee was forwarded. -/
structure System.AtRest (s : System σ) : Prop where
  forwarder : s.forwarder = .done ()
  forwarded : s.nextEvent? = none
  /-- No wait for a stop has returned that is not reported yet. -/
  reported : ∀ g, s.gateway = some g → g.phase.hasReturned = false

omit [Engine σ] in
/-- Whether a system is at rest can be computed. -/
theorem System.atRest_iff (s : System σ) : s.AtRest ↔ (s.forwarder.isDone && s.nextEvent?.isNone &&
    s.gateway.all fun g => !g.phase.hasReturned) = true := by
  rw [Bool.and_eq_true, Bool.and_eq_true, Option.isNone_iff_eq_none]
  -- each part is decided by itself
  constructor
  · rintro ⟨forwarder, forwarded, reported⟩
    refine ⟨⟨by rw [forwarder]; rfl, forwarded⟩, ?_⟩
    cases gateway : s.gateway with
    | none => rfl
    | some g => simp [reported g gateway]
  · rintro ⟨⟨isDone, forwarded⟩, reported⟩
    refine ⟨?_, forwarded, fun g gateway => ?_⟩
    · cases forwarder : s.forwarder with
      | done u => rfl
      | act a next => cases (forwarder ▸ isDone : Program.isDone (.act a next) = true)
    · simpa [gateway] using reported

instance (s : System σ) : Decidable s.AtRest :=
  decidable_of_iff' _ s.atRest_iff

namespace Session

/-- How a client has to behave: it begins the session before it has a debuggee started, does not start
one again, and lets the debuggee run only when it is stopped and all was told of that. -/
structure Mannered (V : StatusView σ) (t : Session) (s : System σ) (r : Request) : Prop where
  stays : r.command ≠ "disconnect"
  begins : r.command = "initialize" → s.gateway = none
  starts : r.command = "launch" ∨ r.command = "attach" → t.started = true ∨ s.gateway = none
  resumes : r.Resumes → t.started = true → s.AtRest ∧ V.runs s.engine = false

instance (r : Request) : Decidable r.Resumes :=
  inferInstanceAs (Decidable (_ ∈ _))

instance (V : StatusView σ) (t : Session) (s : System σ) (r : Request) : Decidable (Mannered V t s r) :=
  decidable_of_iff (r.command ≠ "disconnect" ∧ (r.command = "initialize" → s.gateway.isNone = true) ∧
      (r.command = "launch" ∨ r.command = "attach" → t.started = true ∨ s.gateway.isNone = true) ∧
      (r.Resumes → t.started = true → s.AtRest ∧ V.runs s.engine = false)) <| by
    rw [Option.isNone_iff_eq_none]
    exact ⟨fun ⟨stays, begins, starts, resumes⟩ => ⟨stays, begins, starts, resumes⟩,
      fun ⟨stays, begins, starts, resumes⟩ => ⟨stays, begins, starts, resumes⟩⟩

omit [Engine σ] in
/-- What is known of a debuggee when all was told of it. -/
theorem Agreeing.atRest {t : Session} {s : System σ} (h : Agreeing V t s) (rest : s.AtRest) :
    Minding V (·.started = true) (fun o => o.runs = V.runs s.engine ∧ o.due = false ∧
      o.returned = false ∧ o.state = if V.runs s.engine then .running else .stopped) t s := by
  obtain ⟨on, tame, g, gateway, known⟩ := h
  refine ⟨on, tame, g, gateway, fun lives => ?_⟩
  have led := known lives
  have engine : s.engine = g.engine := by
    rw [System.engine, gateway]
    rfl
  -- no event is left to forward, so no stop is due
  have due : s.due g = false := by
    have forwarded := rest.forwarded
    rw [System.nextEvent?, gateway] at forwarded
    rw [System.due, rest.forwarder, List.drop_eq_nil_iff.2 (List.getElem?_eq_none_iff.1 forwarded)]
    rfl
  have returned := rest.reported g gateway
  refine { led with mode := ⟨led.mode.1, by rw [engine]; rfl, due, returned, ?_⟩ }
  have agrees := led.mode.2
  rw [engine]
  change s.state = _
  simp only [Gateway.outline, Outline.Agrees, due, returned] at agrees
  cases runs : V.runs g.engine with
  -- with nothing due, the outline says what the state is
  | true =>
    rw [runs] at agrees
    exact agrees.1
  | false =>
    rw [runs] at agrees
    simpa using agrees

/-- A request is logged, carried out, and answered. -/
private theorem gives_handle (L : V.Lawful) {B : Session → System σ → Prop} (r : Request)
    (logs : ∀ record, Gives B (Session.perform (.note record)) fun _ => B)
    (carriedOut : Gives B (Session.dispatch r).run fun _ => Settled V) :
    Gives B (Session.handle r) fun _ => Settled V := by
  refine Gives.bind (logs _) fun _ => carriedOut.bind fun result => fun t s h => ?_
  have answers := (replyUse_harmless (S := (·.started = t.started)) fun h => h).answer r result
  exact (gives_settled L answers t s ⟨rfl, h⟩).mono fun _ _ h => h.2

/-- A request of a client that behaves leaves a session settled, whatever the other threads do meanwhile. -/
theorem handle_settled (L : V.Lawful) {t : Session} {s : System σ} (h : Settled V t s) {r : Request}
    (mannered : Mannered V t s r) : ((Session.handle r).run t).Yields (fun p => Settled V p.2) s := by
  have note : ∀ record, (Action.note record).Harmless := fun _ => trivial
  -- three kinds of requests: those that resume, those before there is a gateway, and all the others
  by_cases resumes : r.Resumes ∧ t.started = true
  · obtain ⟨rest, held⟩ := mannered.resumes resumes.1 resumes.2
    -- a client with manners resumes only what is at rest and held
    have stopped : Stopped V t s := by
      rcases h with h | h | h
      · cases h.1.symm.trans resumes.2
      · cases h.1.symm.trans resumes.2
      · refine ⟨h.1, (h.atRest rest).2.mono fun g due state known => ⟨known.1, ?_⟩⟩
        obtain ⟨runs, due, returned, state⟩ := known.2
        rw [held] at runs state
        exact ⟨runs, due, returned, state⟩
    refine gives_handle L r (fun record => ?_) ?_ t s stopped
    · exact gives_harmless L (Outline.lasting_held _) (.perform (note record))
    · exact (gives_resuming L resumes.1).mono (fun _ _ h => h) fun _ _ _ => .agreeing
  by_cases early : (r.command = "launch" ∨ r.command = "attach") ∧ t.started = false ∨
      r.command = "initialize"
  · -- there is no gateway yet
    have none : s.gateway = none := by
      rcases early with ⟨start, off⟩ | begins
      · exact (mannered.starts start).resolve_left (by rw [off]; exact Bool.false_ne_true)
      · exact mannered.begins begins
    have unstarted : t.Unstarted V s := by
      rcases h with h | h | ⟨-, -, g, gateway, -⟩
      · exact h
      · exact absurd none h.2
      · cases gateway.symm.trans none
    refine gives_handle L r (fun record => ?_) ?_ t s unstarted
    · exact gives_early (.perform (note record).early)
    · rcases early with ⟨start, -⟩ | begins
      · exact gives_start_unstarted L start
      · simp only [Session.dispatch, begins]
        have advances : Action.Early (.updateState (SessionState.advanceTo .initialized)) := by
          refine ⟨id, fun state goesOn => ?_⟩
          rw [Action.stateAfter, SessionState.advanceTo, if_neg goesOn]
          intro terminated
          cases terminated
        exact (gives_early (uses_beginSession ⟨id, fun _ h => h⟩ advances (fun _ _ h => h) (fun h => h) r)).mono
          (fun _ _ h => h) fun _ _ _ => .unstarted
  · obtain ⟨starts, begins⟩ := not_or.1 early
    -- all other requests neither start nor resume anything
    have harmless : Uses Action.Harmless (·.started = t.started) (Session.dispatch r).run := by
      refine uses_harmless begins mannered.stays (fun start => ?_) fun resuming => ?_
      · simpa [start] using starts
      · simpa [resuming] using resumes
    refine gives_handle (B := fun t' s => t'.started = t.started ∧ Settled V t' s) L r
      (fun record => ?_) ?_ t s ⟨rfl, h⟩
    · exact gives_settled L (.perform (note record))
    · exact (gives_settled L harmless).mono (fun _ _ h => h) fun _ _ _ h => h.2

/-- A message of a client that behaves. -/
theorem receive_settled (L : V.Lawful) {t : Session} {s : System σ} (h : Settled V t s) {m : Json}
    (mannered : ∀ r ∈ Request.ofJson? m, Mannered V t s r) :
    ((Session.receive m).run t).Yields (fun p => Settled V p.2) s := by
  have logged : ∀ level message,
      ((do Session.log level message; return true : SessionM Bool).run t).Yields
        (fun p => Settled V p.2) s := by
    intro level message
    have noted : Uses Action.Harmless (·.started = t.started)
        (do Session.log level message; return true : SessionM Bool) :=
      (Uses.perform (a := .note _) trivial).bind fun _ => .pure _
    exact (gives_settled L noted t s ⟨rfl, h⟩).mono fun _ _ h => h.2
  unfold Session.receive
  -- what is no request is logged and nothing else
  split
  · exact logged _ _
  · next r parsed =>
    split
    · exact logged _ _
    · exact Program.Yields.bind (handle_settled L h (mannered r parsed)) fun _ _ h => h

/-! ## Whole sessions -/

/-- A session, between two requests, of a client that behaves: other threads make steps at any time, and
requests are carried out among them in any order of steps. -/
inductive Attended (V : StatusView σ) : Session → System σ → Prop
  | begin {t : Session} {s : System σ} (unstarted : t.Unstarted V s) : Attended V t s
  | meanwhile {t : Session} {s s' : System σ} (h : Attended V t s) (others : s.Meanwhile s') :
      Attended V t s'
  | message {t t' : Session} {s s' : System σ} (h : Attended V t s) {m : Json}
      (mannered : ∀ r ∈ Request.ofJson? m, Mannered V t s r) (schedule : List SessionThread)
      {goesOn : Bool}
      (ran : (SessionRun.mk s ((Session.receive m).run t)).run schedule = ⟨s', .done (goesOn, t')⟩) :
      Attended V t' s'

/-- Between two requests a session is settled. -/
theorem Attended.settled (L : V.Lawful) {t : Session} {s : System σ} (h : Attended V t s) :
    Settled V t s := by
  induction h with
  | begin unstarted => exact .unstarted unstarted
  | meanwhile h others ih => exact (stable_settled L _).meanwhile ih others
  | @message t t' s s' h m mannered schedule goesOn ran ih =>
    have yields := SessionRun.yields_run (r := ⟨s, (Session.receive m).run t⟩)
      (fun p => stable_settled L p.2) (receive_settled L ih mannered) schedule
    rw [ran] at yields
    exact yields

/-- Whatever requests a client has sent that behaves, and however the threads were scheduled: when no
request is in progress, and all was reported of a debuggee that lives, then the session is running if the
engine says that the debuggee runs, and stopped otherwise. -/
theorem Attended.state_eq (L : V.Lawful) {t : Session} {s : System σ} (attended : Attended V t s)
    (started : t.started = true) (rest : s.AtRest)
    (lives : ∀ g, s.gateway = some g → g.Lives) :
    s.state = if V.runs s.engine then .running else .stopped := by
  rcases attended.settled L with h | h | h
  · cases h.1.symm.trans started
  · cases h.1.symm.trans started
  · obtain ⟨-, -, g, gateway, known⟩ := h.atRest rest
    exact (known (lives g gateway)).mode.2.2.2.2

/-! ### A scripted session -/

/-- A client's message is taken while the threads make steps. If these do not suffice, nothing was. -/
def taking (schedule : List SessionThread) (p : Session × System Scripted.World) (m : Json) :
    Session × System Scripted.World :=
  let run := (SessionRun.mk p.2 ((Session.receive m).run p.1)).run schedule
  match run.program with
  | .done (_, t) => (t, run.system)
  | .act .. => p

/-- A session that takes one more message is attended. -/
theorem Attended.taking {p : Session × System Scripted.World}
    (h : Attended Scripted.World.statusView p.1 p.2) (schedule : List SessionThread) {m : Json}
    (mannered : ∀ r ∈ Request.ofJson? m, Mannered Scripted.World.statusView p.1 p.2 r) :
    Attended Scripted.World.statusView (taking schedule p m).1 (taking schedule p m).2 := by
  unfold Session.taking
  generalize ran : (SessionRun.mk p.2 ((Session.receive m).run p.1)).run schedule = run
  obtain ⟨system, program⟩ := run
  cases program with
  | done r => exact h.message mannered schedule ran
  | act a next => exact h

/-- A client's request. -/
def request (command : String) (arguments : Json) : Json :=
  .object [("seq", .int 1), ("type", .str "request"), ("command", .str command), ("arguments", arguments)]

/-- A session that has begun, beside a process that stops once when it is let run. -/
def begun : Session × System Scripted.World :=
  taking (List.replicate 6 .requests)
    ({ engineName := "fake" },
      { provider := Scripted.provider
        host := { processes := [⟨7, none⟩] }
        native := { stops := [{ events := [.breakIn] }] } })
    (request "initialize" (.object []))

/-- The session has been attached to the process. -/
def heldOnce : Session × System Scripted.World :=
  taking (List.replicate 14 [.requests, .engine, .forwarder]).flatten begun
    (request "attach" (.object [("processId", .int 7)]))

/-- The process is let run, and the engine thread is about to wait for it. -/
def runningOnce : Session × System Scripted.World :=
  taking (.replicate 4 .requests ++ .replicate 3 .engine ++ .replicate 2 .requests) heldOnce
    (request "continue" (.object []))

/-- The session that has attached and continued once is attended. -/
theorem attended_runningOnce : Attended Scripted.World.statusView runningOnce.1 runningOnce.2 := by
  refine Attended.taking (Attended.taking (Attended.taking
    (.begin ⟨rfl, ⟨rfl, rfl⟩, by decide, ⟨rfl, ?_⟩, ?_⟩) _ ?_) _ ?_) _ ?_
  · decide
  · exact Scripted.World.statusView_makes
  · decide +kernel
  · decide +kernel
  · decide +kernel

/-- The session counts as running while the engine thread is about to wait for the process. -/
theorem Attended.state_eq_runningOnce : runningOnce.1.started = true ∧ runningOnce.2.AtRest ∧
    (∀ g, runningOnce.2.gateway = some g → g.Lives) ∧
    runningOnce.2.state = if Scripted.World.statusView.runs runningOnce.2.engine then .running else .stopped := by
  have started : runningOnce.1.started = true := by decide +kernel
  have rest : runningOnce.2.AtRest := by decide +kernel
  have lives : ∀ g, runningOnce.2.gateway = some g → g.Lives := by
    have none : runningOnce.2.gateway.all fun g => g.worker.published.isEmpty := by decide +kernel
    intro g gateway code mem
    rw [gateway] at none
    simp only [Option.all_some, List.isEmpty_iff] at none
    rw [none] at mem
    cases mem
  exact ⟨started, rest, lives, Attended.state_eq Scripted.World.statusView_lawful attended_runningOnce started
    rest lives⟩

/-- The process has stopped, and it is let run once more before the forwarder has told of the stop. -/
def overrun : Session × System Scripted.World :=
  taking (.replicate 4 .requests ++ .replicate 6 .engine ++ .replicate 2 .requests ++
    .replicate 3 .forwarder) runningOnce (request "continue" (.object []))

/-- A client lets the process run that has stopped without its knowledge. At rest, with the engine thread
inside the wait for a process that does not stop again, the session counts as stopped. -/
theorem overrun_disagrees : overrun.2.AtRest ∧
    (overrun.2.gateway.any fun g => g.queue.isEmpty && g.phase.isWaiting &&
      g.worker.published = [.breakHit 1]) = true ∧
    Scripted.World.statusView.runs overrun.2.engine = true ∧ overrun.2.state = .stopped := by
  decide +kernel

end Session

end DebugAdapter
