import DebugAdapter.Proofs.HeldSessions
import DebugAdapter.Proofs.ScriptedDebuggee

/-!
# Settings before and after the start

A client may set breakpoints, and be done with its settings, before it has a debuggee started
(`System.Unopened`) or right after that. Before, the session keeps the settings and applies them when the
debuggee has started. After that, they are applied one by one. Either way the same breakpoints are in their
places, and the debuggee is held or let run alike. This needs an engine that removes breakpoints on request:
those that it does not let go are only there if they were set after the start.

## Key results

- `Session.gives_launch_kept`: a debuggee is started, and gets the settings that were kept
- `Session.gives_configured_before`, `Session.gives_configured_after`: the settings before and after that
- `Session.configuredAlike`: both come to the same
- `Session.leftover_breakpoint`: they do not if the engine fails to remove a breakpoint
-/

namespace DebugAdapter

variable {σ : Type} [Engine σ]

/-! ## Before there is a gateway -/

namespace System

/-- There is no gateway yet, and an engine that is made for one has neither a debuggee nor breakpoints. -/
structure Unopened (V : DebuggeeView σ) (state : SessionState) (told : List Message) (s : System σ) : Prop
    extends s.NoGateway where
  makes : ∀ options, ((s.provider.create options).call s.native).1 = .ok () →
    V.vacant ((s.provider.create options).call s.native).2 ∧
      V.offset? ((s.provider.create options).call s.native).2 = fun _ => none
  state_eq : s.state = state
  told_eq : s.outbox.events "continued" = told

variable {V : DebuggeeView σ} {A : HeldAnswers} {state : SessionState} {told : List Message}

/-- A system without a gateway stays so through what is done aside. -/
theorem keptAside_unopened : KeptAside (Unopened V state told) where
  stable :=
  { forwarder := by
      intro s h
      rwa [h.stepForwarder_eq]
    engine := fun h => ⟨stable_noGateway.engine h.toNoGateway, h.makes, h.state_eq, h.told_eq⟩ }
  perform := by
    intro a aside s s' r h e
    obtain ⟨-, -, state_eq, told_eq⟩ := perform_aside aside e
    obtain ⟨provider, native⟩ := perform_native e aside.not_opens
    refine ⟨h.toNoGateway.perform e aside.not_opens, ?_, state_eq.trans h.state_eq, told_eq.trans h.told_eq⟩
    rw [provider, native]
    exact h.makes

/-- A gateway is made, whose engine thread is to begin. -/
theorem Unopened.openGateway (L : V.Lawful A) {s s' : System σ} (h : s.Unopened V state told)
    {engineOptions : EngineOptions} {options : GatewayOptions}
    (e : s.perform (.openGateway engineOptions options) = some (.ok (), s')) :
    s'.Poised (Gateway.Resting (Worker.Blank V V.vacant)) state told := by
  simp only [System.perform, System.openGateway, Option.some.injEq] at e
  -- without a gateway, the engine is the native one
  have engine : s.engine = s.native := by
    rw [System.engine, h.gateway]
    rfl
  have makes := h.makes engineOptions
  rw [engine] at e
  -- the engine is made, as the start succeeds
  split at e
  · cases e
  · next g native created =>
    cases e
    rw [Gateway.create] at created
    split at created
    · next engine call =>
      cases created
      rw [call] at makes
      obtain ⟨vacant, none⟩ := makes rfl
      refine ⟨⟨_, rfl, ⟨⟨vacant, none, rfl, rfl, rfl, ?_⟩, ?_, ⟨rfl, rfl, ?_, Nat.le_refl 0⟩⟩⟩, trivial,
        h.state_eq, h.told_eq⟩
      · exact fun _ mem => absurd mem List.not_mem_nil
      · -- at first, the engine thread clears what breakpoints there are
        intro w blank
        obtain ⟨vacant, none⟩ := L.clear _ blank.stage blank.offset?_eq
        exact { blank with stage := vacant, offset?_eq := none }
      · exact fun _ mem => absurd mem List.not_mem_nil
    · cases created

/-! ## Debuggees that are set up -/

/-- The breakpoints of the debuggee are where they are wanted. It is held, and is let run when the client is
done with its settings. -/
def SetUp (V : DebuggeeView σ) (A : HeldAnswers) (wanted : String → List UInt32) (n : Nat) (done : Bool)
    (told : List Message) : System σ → Prop :=
  if done then GoesOnWith V A wanted n told else HeldWith V A wanted n told

/-- The breakpoints of the engine are those of the table, which are where they are wanted. The debuggee was
let run or is held, after these `continued` events. -/
structure Configured (V : DebuggeeView σ) (site? : String → UInt32 → Option UInt64)
    (wanted : String → List UInt32) (runs : Bool) (told : List Message) (s : System σ) : Prop where
  gateway : ∃ g, s.gateway = some g ∧
    BreakpointTable.Placed site? wanted g.worker.breakpoints (V.offset? g.engine) ∧
    if runs then V.released g.engine else V.held g.engine
  told_eq : s.outbox.events "continued" = told

/-- Two debuggees have the same breakpoints, with the same lines at the same offsets for each file, and are
held alike, after the same `continued` events. -/
structure ConfiguredAlike (V : DebuggeeView σ) (s s' : System σ) : Prop where
  gateways : ∃ g g', s.gateway = some g ∧ s'.gateway = some g' ∧
    (∀ file, g.worker.breakpoints.sitesOf (V.offset? g.engine) file =
      g'.worker.breakpoints.sitesOf (V.offset? g'.engine) file) ∧
    (∀ id, (V.offset? g.engine id).isSome = (g.worker.breakpoints.get? id).isSome) ∧
    (∀ id, (V.offset? g'.engine id).isSome = (g'.worker.breakpoints.get? id).isSome) ∧
    (V.held g.engine ↔ V.held g'.engine) ∧ (V.released g.engine ↔ V.released g'.engine)
  told_eq : s.outbox.events "continued" = s'.outbox.events "continued"

variable {wanted : String → List UInt32} {n : Nat} {done : Bool}

/-- A system that is set up stays so through what is done aside. -/
theorem keptAside_setUp (L : V.Lawful A) : KeptAside (SetUp V A wanted n done told) := by
  unfold SetUp
  exact .ite (keptAside_goesOnWith L) (keptAside_heldWith L)

/-- What is known of a debuggee that is set up. -/
theorem SetUp.configured {s : System σ} (h : s.SetUp V A wanted n done told) :
    s.Configured V A.site? wanted (done && A.goes) (told ++ if done then A.continued else []) := by
  unfold SetUp at h
  -- before the end of the configuration the debuggee is held
  cases done with
  | false =>
    obtain ⟨g, gateway, rest⟩ := h.gateway
    refine ⟨⟨g, gateway, rest.worker.table, rest.worker.held⟩, ?_⟩
    exact h.told_eq.trans (List.append_nil told).symm
  | true =>
    simp only [if_true, GoesOnWith] at h
    split at h
    · next goes =>
      obtain ⟨g, gateway, ending⟩ := h.gateway
      exact ⟨⟨g, gateway, ending.worker.2, by rw [goes]; exact ending.worker.1⟩, h.told_eq⟩
    · next refused =>
      obtain ⟨g, gateway, rest⟩ := h.gateway
      refine ⟨⟨g, gateway, rest.worker.table, ?_⟩, h.told_eq⟩
      rw [Bool.true_and, if_neg refused]
      exact rest.worker.held

/-- Two debuggees with the same settings are alike. -/
theorem Configured.alike (L : V.Lawful A) {site? : String → UInt32 → Option UInt64} {runs : Bool}
    {s s' : System σ} (h : s.Configured V site? wanted runs told)
    (h' : s'.Configured V site? wanted runs told) : s.ConfiguredAlike V s' := by
  obtain ⟨g, gateway, placed, stage⟩ := h.gateway
  obtain ⟨g', gateway', placed', stage'⟩ := h'.gateway
  refine ⟨⟨g, g', gateway, gateway', fun file => ?_, placed.isSome_eq, placed'.isSome_eq, ?_⟩,
    h.told_eq.trans h'.told_eq.symm⟩
  · rw [placed.sitesOf_eq, placed'.sitesOf_eq]
  · cases runs with
    | true => exact ⟨iff_of_false (fun h => L.apart _ h stage) fun h => L.apart _ h stage',
        iff_of_true stage stage'⟩
    | false => exact ⟨iff_of_true stage stage', iff_of_false (L.apart _ stage) (L.apart _ stage')⟩

end System

namespace Session

variable {V : DebuggeeView σ} {A : HeldAnswers} {t : Session} {state : SessionState} {told : List Message}

/-! ## Requests that start nothing -/

/-- There is no debuggee, and nothing waits to be sent. -/
def NotStarted (t : Session) : Prop :=
  t.started = false ∧ t.deferred = []

/-- The session is as `B` says, if there is a debuggee. -/
def OrNot (B : Session → System σ → Prop) (t : Session) (s : System σ) : Prop :=
  B t s ∨ t.NotStarted

/-- That the debuggee was not started is kept as an alternative. -/
theorem keptAside_orNot {B : Session → System σ → Prop}
    (kept : ∀ t, System.KeptAside (B t)) (t : Session) : System.KeptAside (OrNot B t) :=
  (kept t).or (.const t.NotStarted)

/-- A session without a debuggee may answer. -/
private theorem answerUse_notStarted : AnswerUse (fun _ => True) NotStarted where
  read := trivial
  advance := fun _ => trivial
  continued := fun _ => trivial
  note := fun _ => trivial
  calls := fun _ _ => trivial
  keeps := fun h agree => ⟨agree.started.trans h.1, agree.deferred.trans h.2⟩
  respond := fun _ => trivial
  sendable := fun _ _ _ => trivial
  drops := fun h => ⟨h.1, rfl⟩

/-- Work that starts nothing leaves a session without a debuggee. -/
theorem gives_notStarted {α : Type} {m : SessionM α} (hm : Uses (fun _ => True) NotStarted m) :
    Gives (fun t (_ : System σ) => t.NotStarted) m fun _ t _ => t.NotStarted :=
  fun t s h => (hm.gives (A := fun _ : System σ => True) ⟨id, id⟩ (fun _ _ _ _ _ _ => trivial) t s
    ⟨h, trivial⟩).mono fun _ _ h => h.1

/-- Work that starts nothing is without consequence if there is no debuggee. -/
theorem Gives.orNot {α : Type} {B B' : Session → System σ → Prop} {m : SessionM α}
    (hm : Gives B m fun _ => B') (off : Uses (fun _ => True) NotStarted m) :
    Gives (OrNot B) m fun _ => OrNot B' := by
  rintro t s (h | h)
  · exact (hm t s h).mono fun _ _ h => .inl h
  · exact (gives_notStarted off t s h).mono fun _ _ => .inr

/-- Settings start nothing. -/
theorem uses_handle_setting {r : Request}
    (setting : r.command = "setBreakpoints" ∨ r.command = "configurationDone") :
    Uses (fun _ => True) NotStarted (handle r) := by
  have dispatched : Uses (fun _ => True) NotStarted (dispatch r).run := by
    apply answerUse_notStarted.dispatch
    all_goals
      intro other
      rcases setting with h | h <;> exact absurd (h.symm.trans other) (by decide)
  exact (Uses.perform trivial).bind fun _ => dispatched.bind fun result =>
    answerUse_notStarted.answer r result

/-- Handling requests one after the other uses what handling each of them uses. -/
theorem Uses.forM {β : Type} {P : Action → Prop} {S : Session → Prop} {m : β → SessionM PUnit} {l : List β}
    (h : ∀ b ∈ l, Uses P S (m b)) : Uses P S (l.forM m) := by
  induction l with
  | nil => exact .pure _
  | cons b l ih =>
    exact (h b List.mem_cons_self).bind fun _ => ih fun b mem => h b (List.mem_cons_of_mem _ mem)

/-! ## Settings that are kept -/

section

variable (off : t.started = false) (quiet : t.deferred = [])
include off quiet

/-- As long as there is no debuggee, what a request for breakpoints wants is kept. -/
theorem gives_setBreakpoints_kept {r : Request} (sets : r.command = "setBreakpoints") :
    Gives (At t (System.Unopened (σ := σ) V state told)) (handle r)
      fun _ => At (t.recorded r) (System.Unopened V state told) := by
  have kept : System.KeptAside (System.Unopened (σ := σ) V state told) := System.keptAside_unopened
  refine gives_handle_kept (keptAside_at kept) (keptAside_at kept) (by rintro _ s ⟨rfl, -⟩; exact quiet) ?_
  simp only [dispatch, sets]
  rintro t' s ⟨rfl, h⟩
  obtain ⟨result, done | ⟨record, noted⟩⟩ := run_setBreakpoints_recorded off r
  · rw [done]
    exact ⟨rfl, h⟩
  · rw [noted]
    exact Program.yields_act kept.stable h fun h e =>
      ⟨rfl, kept.perform (Action.aside_note record) h e⟩

/-- It is kept that the client is done with its settings. -/
theorem gives_configurationDone_kept {r : Request} (ends : r.command = "configurationDone") :
    Gives (At t (System.Unopened (σ := σ) V state told)) (handle r)
      fun _ => At { t with configurationDone := true } (System.Unopened V state told) := by
  have kept : System.KeptAside (System.Unopened (σ := σ) V state told) := System.keptAside_unopened
  refine gives_handle_kept (keptAside_at kept) (keptAside_at kept) (by rintro _ s ⟨rfl, -⟩; exact quiet) ?_
  simp only [dispatch, ends]
  have noted : Gives (At t (System.Unopened (σ := σ) V state told))
      (modify fun s => { s with configurationDone := true } : SessionM PUnit)
      fun _ => At { t with configurationDone := true } (System.Unopened V state told) :=
    .modify fun u s h => ⟨by rw [h.1], h.2⟩
  refine Gives.bindLift noted fun _ => Gives.bindGetAt ?_
  rw [if_neg (by rw [off]; exact Bool.false_ne_true)]
  exact .pure fun _ _ h => h

end

/-! ## The start of a debuggee -/

/-- The session when a request has started a debuggee. -/
def launched (t : Session) (r : Request) : Session :=
  { t with sourceMap := .ofArguments r.arguments, started := true, forwarding := true, pending := [] }

section

variable (L : V.Lawful A) (off : t.started = false) (quiet : t.deferred = [])
include L off quiet

/-- After a gateway was to be made. -/
private def GatewayMade (V : DebuggeeView σ) (t : Session) (state : SessionState) (told : List Message)
    {ε : Type} : Except ε Unit → Session → System σ → Prop
  | .ok _ => At t (System.Poised (Gateway.Resting (Worker.Blank V V.vacant)) state told)
  | .error _ => fun t' _ => t'.NotStarted

/-- Opening a gateway gives a blank one, or the debuggee is not started. -/
private theorem gives_openGateway_unopened (r : Request) (code : ErrorCode) :
    Gives (At t (System.Unopened (σ := σ) V state told)) (Session.openGateway r code).run
      (GatewayMade V { t with forwarding := true } state told) := by
  have kept : System.KeptAside (System.Unopened (σ := σ) V state told) := System.keptAside_unopened
  -- until the gateway is opened, nothing but notes and looks at the host is made
  have aside : ∀ a : Action, a.Aside → Gives (At t (System.Unopened (σ := σ) V state told))
      (Session.perform a) fun _ => At t (System.Unopened V state told) :=
    fun a aside => Uses.givesAt (.perform aside) kept
  refine Gives.openGateway (Q := GatewayMade V t state told)
    (aside _ (Action.aside_of_onHost (a := .findStdLibrary) trivial)) (fun _ => aside _ (Action.aside_note _))
    ?_ (fun _ _ _ _ h => h) ?_ r code
  · refine fun _ _ => .perform (fun t' => (keptAside_at kept t').stable) ?_
    rintro t' s result s' ⟨rfl, unopened⟩ e
    cases result with
    | ok u => exact ⟨rfl, unopened.openGateway L e⟩
    | error failure => exact ⟨off, quiet⟩
  · rintro t' s ⟨rfl, h⟩
    exact ⟨rfl, h⟩

/-- After the answer to the command that starts a debuggee. -/
private def Begins (V : DebuggeeView σ) (A : HeldAnswers) (state : SessionState) (told : List Message) :
    Reply → System σ → Prop
  | .launched (.ok _) => System.Poised (Gateway.Resting
      (Worker.Untouched V (BreakpointTable.Placed A.site? fun _ => []) 0)) state told
  | _ => fun _ => True

omit off quiet in
/-- The command to start is answered with a debuggee that is held, or with a failure. -/
private theorem gives_startCommand_blank (request : LaunchRequest) :
    Gives (At t (System.Poised (Gateway.Resting (Worker.Blank V V.vacant)) state told))
      (Session.startCommand (.launch request)).run (Ok fun reply => At t (Begins V A state told reply)) := by
  have called : Gives (At t (System.Poised (Gateway.Resting (Worker.Blank V V.vacant)) state told))
      (Session.command? (.launch request)) fun result t' s =>
        t' = t ∧ ∃ r, result = some r ∧ Begins V A state told r s := by
    refine gives_command?_poised (T := (· = t)) (Worker.rests_blank L) (Worker.carriesOut_launch L request)
      ⟨nofun, nofun⟩ (fun r => ?_) fun r s h => ?_
    · -- a start that succeeds leaves a debuggee that is held, one that fails says nothing
      unfold Begins
      split
      · exact System.stable_resting (Worker.rests_untouched L)
      · exact ⟨id, id⟩
    · cases r with
      | launched result =>
        cases result with
        | ok p => exact h.mono fun _ h => (h.mono fun _ h => Worker.Blank.untouched h).toResting
        | error e => trivial
      | _ => trivial
  refine Gives.bindLift called fun result => ?_
  rintro t' s ⟨same, r, rfl, known⟩
  exact ⟨same, known⟩

end

/-- The lines that are wanted of a debuggee that a request has started. -/
def wanted (t : Session) (r : Request) : String → List UInt32 :=
  t.pending.foldl (want (SourceMap.ofArguments r.arguments).toTarget) fun _ => []

section

variable (L : V.Lawful A) (goesOn : state ≠ .terminated) (room : lineCount t.pending < UInt32.size)
include L goesOn room

/-- A debuggee that was started gets the settings that were kept. -/
private theorem gives_applied (on : t.started = true) :
    Gives (At t (System.Poised (Gateway.Resting
        (Worker.Untouched V (BreakpointTable.Placed A.site? fun _ => []) 0)) state told)) (do
      Session.advanceTo .stopped
      Session.applyPendingBreakpoints
      if (← getThe Session).configurationDone then Session.continueAfterConfiguration
      return none : RequestM (Option Json)).run fun _ =>
      At { t with pending := [] } (System.SetUp V A (t.pending.foldl (want t.sourceMap.toTarget) fun _ => [])
        (lineCount t.pending) t.configurationDone told) := by
  have stopped : Gives (At t (System.Poised (Gateway.Resting
      (Worker.Untouched V (BreakpointTable.Placed A.site? fun _ => []) 0)) state told))
      (Session.perform (.updateState (SessionState.advanceTo .stopped)))
      fun _ => At t (System.HeldWith V A (fun _ => []) 0 told) :=
    gives_advanceTo_resting (Worker.rests_untouched L) goesOn
  -- what was wished for before the start is set now
  have applied : Gives (At t (System.HeldWith V A (fun _ => []) 0 told)) applyPendingBreakpoints.run
      (Ok fun _ => At { t with pending := [] } (System.HeldWith V A
        (t.pending.foldl (want t.sourceMap.toTarget) fun _ => []) (0 + lineCount t.pending) told)) :=
    gives_applyPendingBreakpoints L on (by omega)
  rw [Nat.zero_add] at applied
  let t' : Session := { t with pending := [] }
  -- the debuggee is let run if the configuration was done before
  have continued : Gives (At t' (System.HeldWith V A (t.pending.foldl (want t.sourceMap.toTarget) fun _ => [])
      (lineCount t.pending) told)) continueAfterConfiguration.run
      fun _ => At t' (System.GoesOnWith V A _ _ _) :=
    gives_continueAfterConfiguration_held L on
  refine Gives.bindAdvanceTo stopped (applied.bindOk fun _ => Gives.bindGetAt ?_)
  unfold System.SetUp
  split
  · exact continued.bindExcept (fun _ => .pure fun _ _ h => h) fun _ _ _ h => h
  · exact .pure fun _ _ h => h

variable (off : t.started = false) (quiet : t.deferred = [])
include off quiet

/-- The end of a start sets the debuggee up with what was wanted before. -/
private theorem gives_finishStart_begins (r : Request) (code : ErrorCode) (reply : Reply) :
    Gives (At { t with forwarding := true } (Begins V A state told reply))
      (Session.finishStart r code reply).run fun _ => OrNot (At (t.launched r)
        (System.SetUp V A (t.wanted r) (lineCount t.pending) t.configurationDone told)) := by
  let t₁ : Session := { t with forwarding := true }
  let t₂ : Session := { t₁ with sourceMap := .ofArguments r.arguments, started := true }
  let Untouched : System σ → Prop := System.Poised (Gateway.Resting
    (Worker.Untouched V (BreakpointTable.Placed A.site? fun _ => []) 0)) state told
  unfold Session.finishStart
  -- a start that failed leaves the session without a debuggee
  split
  · next process =>
    have noted : Gives (At t₁ Untouched)
        (Session.log .info ("debuggee started, pid " ++ toString process.pid.toNat))
        fun _ => At t₁ Untouched :=
      Uses.givesAt (.perform (Action.aside_note _)) (System.keptAside_resting (Worker.rests_untouched L))
    -- the session now has a debuggee, whose sources are mapped
    have started : Gives (At t₁ Untouched) (modify fun s : Session =>
        { s with sourceMap := .ofArguments r.arguments, started := true } : SessionM PUnit)
        fun _ => At t₂ Untouched :=
      .modify fun u s h => ⟨by rw [h.1], h.2⟩
    refine Gives.bindLift noted fun _ => Gives.bindLift started fun _ => ?_
    exact (gives_applied (t := t₂) L goesOn room rfl).mono (fun _ _ h => h) fun _ _ _ => .inl
  · refine (gives_notStarted (uses_abandon (fun h _ => h) _)).mono (fun t' s h => ?_) fun _ _ _ h => .inr h
    rw [h.1]
    exact ⟨off, quiet⟩

/-- A program is launched, and the debuggee gets the settings that were kept. -/
theorem gives_launch_kept {r : Request} (launches : r.command = "launch") :
    Gives (At t (System.Unopened V state told)) (handle r) fun _ => OrNot (At (t.launched r)
      (System.SetUp V A (t.wanted r) (lineCount t.pending) t.configurationDone told)) := by
  have unopened : System.KeptAside (System.Unopened (σ := σ) V state told) := System.keptAside_unopened
  have host : ∀ a : Action, a.OnHost → a.Aside := fun _ => Action.aside_of_onHost
  refine gives_handle_kept (keptAside_at unopened)
    (keptAside_orNot (keptAside_at (System.keptAside_setUp L))) ?_ ?_
  · rintro t' s (h | h)
    · exact h.1 ▸ quiet
    · exact h.2
  -- looking for the target, opening the gateway, starting, and setting up
  simp only [dispatch, launches]
  rw [launch_eq]
  have looked : Gives (At t (System.Unopened V state told)) (requestedLaunch r).run
      fun _ => At t (System.Unopened (σ := σ) V state told) :=
    Uses.givesAt (Uses.requestedLaunch host Action.aside_note r) unopened
  refine looked.bindExcept (fun request => ?_) fun _ t' s h => .inr (h.1 ▸ ⟨off, quiet⟩)
  refine (gives_openGateway_unopened L off quiet r _).bindExcept (fun _ => ?_) fun _ _ _ h => .inr h
  exact (gives_startCommand_blank L request).bindOk fun reply =>
    gives_finishStart_begins L goesOn room off quiet r _ reply

end

/-! ## Both orders -/

/-- Nothing was asked of the session yet but to begin. -/
structure Unconfigured (t : Session) : Prop where
  started : t.started = false
  pending : t.pending = []
  configurationDone : t.configurationDone = false
  deferred : t.deferred = []

/-- Requests for breakpoints, and the one by which the client says that it is done with its settings, if it
does so. -/
structure AreSettings (requests : List Request) (done : Option Request) : Prop where
  sets : ∀ r ∈ requests, r.command = "setBreakpoints"
  ends : ∀ r ∈ done, r.command = "configurationDone"

section

variable {requests : List Request} {done : Option Request} {launch : Request} (L : V.Lawful A)
  (fresh : t.Unconfigured) (goesOn : state ≠ .terminated) (settings : AreSettings requests done)
  (launches : launch.command = "launch")
  (room : lineCount (requests.filterMap (wish? t.convention)) < UInt32.size)
include L fresh goesOn settings launches room

/-- The settings are kept, and then a debuggee is started. -/
theorem gives_configured_before (apart : Set.InjOn (SourceMap.ofArguments launch.arguments).toTarget
      {p | p ∈ (requests.filterMap (wish? t.convention)).map Prod.fst}) :
    Gives (At t (System.Unopened V state told)) ((requests ++ done.toList ++ [launch]).forM handle) fun _ =>
      OrNot fun _ => System.SetUp V A ((requests.filterMap (wish? t.convention)).foldl
        (want (SourceMap.ofArguments launch.arguments).toTarget) fun _ => [])
        (lineCount ((requests.filterMap (wish? t.convention)).foldl keepWish [])) done.isSome told := by
  let wishes := requests.filterMap (wish? t.convention)
  let t₁ : Session := { t with pending := wishes.foldl keepWish [] }
  let t₂ : Session := { t₁ with configurationDone := done.isSome }
  -- the requests for breakpoints are only kept, and so is that the configuration is done
  have recorded : Gives (At t (System.Unopened (σ := σ) V state told)) (requests.forM handle)
      fun _ => At t₁ (System.Unopened V state told) := by
    have kept := Gives.forM (m := handle) (l := requests) (f := Session.recorded)
      (I := fun t t' s => t.NotStarted ∧ At t (System.Unopened (σ := σ) V state told) t' s)
      (fun t r mem t' s h => (gives_setBreakpoints_kept h.1.1 h.1.2 (settings.sets r mem) t' s h.2).mono
        fun _ _ h' => ⟨h.1, h'⟩) t
    have same : requests.foldl Session.recorded t = t₁ := by
      rw [foldl_recorded, fresh.pending]
    rw [same] at kept
    exact kept.mono (fun _ _ h => ⟨⟨fresh.started, fresh.deferred⟩, h⟩) fun _ _ _ h => h.2
  have ended : Gives (At t₁ (System.Unopened (σ := σ) V state told)) (done.toList.forM handle)
      fun _ => At t₂ (System.Unopened V state told) := by
    -- the end of the configuration may come before the start, or not at all
    cases done with
    | none =>
      have same : t₂ = t₁ := by
        simp only [t₂, t₁, fresh.configurationDone, Option.isSome_none]
      rw [same]
      exact .pure fun _ _ h => h
    | some r =>
      have one : Gives (At t₁ (System.Unopened (σ := σ) V state told)) (handle r)
          fun _ => At t₂ (System.Unopened V state told) :=
        gives_configurationDone_kept (t := t₁) fresh.started fresh.deferred (settings.ends r rfl)
      exact one.bind fun _ => .pure fun _ _ h => h
  -- a file that is wished for again replaces its lines, so there are no more of them
  have fits : lineCount t₂.pending < UInt32.size := by
    have fewer := lineCount_foldl_keepWish_le wishes []
    exact Nat.lt_of_le_of_lt fewer (by rwa [show lineCount [] = 0 from rfl, Nat.zero_add])
  -- the start sends what was kept to the debuggee
  have started : Gives (At t₂ (System.Unopened V state told)) (handle launch) fun _ =>
      OrNot (At (t₂.launched launch) (System.SetUp V A (t₂.wanted launch) (lineCount t₂.pending)
        t₂.configurationDone told)) :=
    gives_launch_kept L goesOn fits fresh.started fresh.deferred launches
  -- as the paths stay apart, what is kept per file is what is wanted
  have wants : t₂.wanted launch = wishes.foldl (want (SourceMap.ofArguments launch.arguments).toTarget)
      fun _ => [] := foldl_want_pending apart
  rw [wants] at started
  refine (recorded.forM_append ended).forM_append (Gives.bind started fun _ => .pure ?_)
  exact fun _ _ h => h.imp_left And.right

/-- A debuggee is started, and then the settings are applied. -/
theorem gives_configured_after :
    Gives (At t (System.Unopened V state told)) ((launch :: (requests ++ done.toList)).forM handle) fun _ =>
      OrNot fun _ => System.SetUp V A ((requests.filterMap (wish? t.convention)).foldl
        (want (SourceMap.ofArguments launch.arguments).toTarget) fun _ => [])
        (lineCount (requests.filterMap (wish? t.convention))) done.isSome told := by
  let wishes := requests.filterMap (wish? t.convention)
  let t₁ : Session := t.launched launch
  -- nothing was kept before the start, and so the debuggee is held without breakpoints
  have started : Gives (At t (System.Unopened V state told)) (handle launch)
      fun _ => OrNot (At t₁ (System.HeldWith V A (fun _ => []) 0 told)) := by
    have fits : lineCount t.pending < UInt32.size := by
      rw [fresh.pending]
      decide
    have kept : Gives (At t (System.Unopened V state told)) (handle launch) fun _ =>
        OrNot (At t₁ (System.SetUp V A (t.wanted launch) (lineCount t.pending) t.configurationDone told)) :=
      gives_launch_kept L goesOn fits fresh.started fresh.deferred launches
    rwa [fresh.configurationDone, wanted, fresh.pending] at kept
  -- each request sets its breakpoints at once
  have placed : Gives (At t₁ (System.HeldWith V A (fun _ => []) 0 told)) (requests.forM handle)
      fun _ => At t₁ (System.HeldWith V A (wishes.foldl (want t₁.sourceMap.toTarget) fun _ => [])
        (lineCount wishes) told) := by
    have held : Gives (At t₁ (System.HeldWith V A (fun _ => []) 0 told)) (requests.forM handle)
        fun _ => At t₁ (System.HeldWith V A (wishes.foldl (want t₁.sourceMap.toTarget) fun _ => [])
          (0 + lineCount wishes) told) :=
      gives_requests_held (t := t₁) L rfl fresh.deferred settings.sets (by rwa [Nat.zero_add])
    rwa [Nat.zero_add] at held
  have ended : Gives (At t₁ (System.HeldWith V A (wishes.foldl (want t₁.sourceMap.toTarget) fun _ => [])
      (lineCount wishes) told)) (done.toList.forM handle) fun _ _ => System.SetUp V A
        (wishes.foldl (want t₁.sourceMap.toTarget) fun _ => []) (lineCount wishes) done.isSome told := by
    -- only with the end of the configuration the debuggee goes on
    cases done with
    | none => exact .pure fun _ _ h => h.2
    | some r =>
      have one : Gives (At t₁ (System.HeldWith V A (wishes.foldl (want t₁.sourceMap.toTarget) fun _ => [])
          (lineCount wishes) told)) (handle r) fun _ => At { t₁ with configurationDone := true }
            (System.GoesOnWith V A (wishes.foldl (want t₁.sourceMap.toTarget) fun _ => []) (lineCount wishes)
              told) := by
        refine gives_handle_kept (keptAside_at (System.keptAside_heldWith L))
          (keptAside_at (System.keptAside_goesOnWith L)) (by rintro _ s ⟨rfl, -⟩; exact fresh.deferred) ?_
        simp only [dispatch, settings.ends r rfl]
        exact gives_finishConfiguration_held L rfl
      exact one.bind fun _ => .pure fun _ _ h => h.2
  -- if the start has failed, there is no debuggee that the later requests could reach
  have all : ∀ r ∈ requests ++ done.toList, r.command = "setBreakpoints" ∨ r.command = "configurationDone" := by
    intro r mem
    rcases List.mem_append.1 mem with mem | mem
    · exact .inl (settings.sets r mem)
    · exact .inr (settings.ends r (Option.mem_toList.1 mem))
  have off : Uses (fun _ => True) NotStarted ((requests ++ done.toList).forM handle) :=
    .forM fun r mem => uses_handle_setting (all r mem)
  exact started.bind fun _ => (placed.forM_append ended).orNot off

end

/-- Requests are handled one after the other, while the threads make steps. -/
def handled (schedule : List SessionThread) (t : Session) (s : System σ) (requests : List Request) :
    SessionRun σ (PUnit × Session) :=
  (⟨s, (requests.forM handle).run t⟩ : SessionRun σ (PUnit × Session)).run schedule

/-- What requests come to that were handled, if a debuggee was started. -/
private theorem of_handled {B : System σ → Prop} (kept : System.KeptAside B) {t t' : Session}
    {s s' : System σ} {requests : List Request}
    (yields : ((requests.forM handle).run t).Yields (fun r s => OrNot (fun _ => B) r.2 s) s)
    {schedule : List SessionThread} (done : handled schedule t s requests = ⟨s', .done (⟨⟩, t')⟩)
    (started : t'.started = true) : B s' := by
  have after := SessionRun.yields_run (r := ⟨s, (requests.forM handle).run t⟩)
    (fun p => (keptAside_orNot (fun _ => kept) p.2).stable) yields schedule
  rw [handled] at done
  rw [done] at after
  rcases after with h | h
  · exact h
  · cases h.1.symm.trans started

/-- Settings that a client asks for before it has a debuggee started, or right after that, come to the same,
however the threads were scheduled: the same breakpoints on the lines that were wanted last of each file that
have a place, and a debuggee that is held or was let run alike, after the same `continued` events. For this,
no two of the paths may lead to one file, and there have to be ids for all the lines. -/
theorem configuredAlike {V : DebuggeeView σ} {A : HeldAnswers} (L : V.Lawful A) {t : Session}
    (fresh : t.Unconfigured) {s : System σ} {state : SessionState} {told : List Message}
    (unopened : s.Unopened V state told) (goesOn : state ≠ .terminated) {requests : List Request}
    {done : Option Request} (settings : AreSettings requests done) {launch : Request}
    (launches : launch.command = "launch")
    (apart : Set.InjOn (SourceMap.ofArguments launch.arguments).toTarget
      {p | p ∈ (requests.filterMap (wish? t.convention)).map Prod.fst})
    (room : lineCount (requests.filterMap (wish? t.convention)) < UInt32.size)
    {t₁ t₂ : Session} {s₁ s₂ : System σ} {schedule₁ schedule₂ : List SessionThread}
    (before : handled schedule₁ t s (requests ++ done.toList ++ [launch]) = ⟨s₁, .done (⟨⟩, t₁)⟩)
    (after : handled schedule₂ t s (launch :: (requests ++ done.toList)) = ⟨s₂, .done (⟨⟩, t₂)⟩)
    (started₁ : t₁.started = true) (started₂ : t₂.started = true) :
    s₁.ConfiguredAlike V s₂ ∧ s₁.Configured V A.site? ((requests.filterMap (wish? t.convention)).foldl
      (want (SourceMap.ofArguments launch.arguments).toTarget) fun _ => []) (done.isSome && A.goes)
      (told ++ if done.isSome then A.continued else []) := by
  -- both orders lead to one configuration, and so to the same as each other
  have kept := of_handled (System.keptAside_setUp L)
    (gives_configured_before L fresh goesOn settings launches room apart t s ⟨rfl, unopened⟩) before started₁
  have applied := of_handled (System.keptAside_setUp L)
    (gives_configured_after L fresh goesOn settings launches room t s ⟨rfl, unopened⟩) after started₂
  exact ⟨kept.configured.alike L applied.configured, kept.configured⟩

/-! ### A scripted session -/

/-- A machine with one program, and an engine that knows some lines of its sources. -/
def settable : System Scripted.World where
  provider := Scripted.provider
  host := { programs := [("app", "/bin/app")] }
  state := .initialized
  native := { lines := [("/build/a.rs", 3, 64), ("/build/a.rs", 4, 80), ("/build/b.rs", 5, 96)] }

/-- A session that has begun, whose client names its files by paths. -/
def byPaths : Session :=
  { engineName := "fake", convention := { client := { pathFormat := .path } } }

/-- A request for breakpoints. -/
def wishRequest (path : String) (lines : List Int) : Request :=
  ⟨1, "request", "setBreakpoints",
    .object [("source", .object [("path", .str path)]), ("lines", .arr (lines.map .int))]⟩

/-- Requests for breakpoints in two files, the first of which is named again. -/
def wishRequests : List Request :=
  [wishRequest "/work/a.rs" [3, 9], wishRequest "/work/b.rs" [5], wishRequest "/work/a.rs" [9, 4]]

/-- The client is done with its settings. -/
def doneRequest : Request :=
  ⟨2, "request", "configurationDone", .null⟩

/-- The program is launched, whose sources lie elsewhere for the client. -/
def launchRequest : Request :=
  ⟨3, "request", "launch",
    .object [("target", .str "app"), ("sourceMap", .object [("/build", .str "/work")])]⟩

/-- The session in which these requests are handled, while the threads take turns. -/
def takingTurns (s : System Scripted.World) (requests : List Request) :
    SessionRun Scripted.World (PUnit × Session) :=
  handled (List.replicate 40 [.requests, .engine, .forwarder]).flatten byPaths s requests

/-- The requests are done, and a debuggee was started. -/
def hasStarted (r : SessionRun Scripted.World (PUnit × Session)) : Bool :=
  match r.program with
  | .done (_, t) => t.started
  | .act .. => false

/-- A run that passes the check has ended with a debuggee. -/
private theorem eq_of_hasStarted {r : SessionRun Scripted.World (PUnit × Session)}
    (h : hasStarted r = true) : ∃ t, r = ⟨r.system, .done (⟨⟩, t)⟩ ∧ t.started = true := by
  obtain ⟨system, program⟩ := r
  cases program with
  | done p => exact ⟨p.2, rfl, h⟩
  | act a next => cases h

/-- In either order, the breakpoints of the scripted engine are the same, and its debuggee was let run. -/
theorem configuredAlike_settable :
    (hasStarted (takingTurns settable (wishRequests ++ [doneRequest] ++ [launchRequest])) = true ∧
      hasStarted (takingTurns settable (launchRequest :: (wishRequests ++ [doneRequest]))) = true) ∧
    (takingTurns settable (wishRequests ++ [doneRequest] ++ [launchRequest])).system.ConfiguredAlike
      settable.native.debuggeeView
      (takingTurns settable (launchRequest :: (wishRequests ++ [doneRequest]))).system := by
  -- that the two runs start is computed, and the rest follows from the theorem
  have before :
      hasStarted (takingTurns settable (wishRequests ++ [doneRequest] ++ [launchRequest])) = true := by
    decide +kernel
  have after : hasStarted (takingTurns settable (launchRequest :: (wishRequests ++ [doneRequest]))) = true := by
    decide +kernel
  obtain ⟨t₁, done₁, started₁⟩ := eq_of_hasStarted before
  obtain ⟨t₂, done₂, started₂⟩ := eq_of_hasStarted after
  -- the scripted engine is a lawful one, and nothing is open yet
  have unopened : settable.Unopened settable.native.debuggeeView .initialized [] :=
    ⟨⟨rfl, rfl⟩, fun options _ => Scripted.World.debuggeeView_makes rfl rfl rfl rfl options, rfl, rfl⟩
  have settings : AreSettings wishRequests (some doneRequest) :=
    ⟨by decide, fun r mem => by rw [← Option.some.inj mem]; rfl⟩
  have wishes : wishRequests.filterMap (wish? byPaths.convention) =
      [("/work/a.rs", [3, 9]), ("/work/b.rs", [5]), ("/work/a.rs", [9, 4])] := by decide +kernel
  -- two paths that are wanted do not become one on the side of the debugger
  have apart : Set.InjOn (SourceMap.ofArguments launchRequest.arguments).toTarget
      {p | p ∈ (wishRequests.filterMap (wish? byPaths.convention)).map Prod.fst} := by
    have distinct : ∀ p ∈ ["/work/a.rs", "/work/b.rs", "/work/a.rs"],
        ∀ q ∈ ["/work/a.rs", "/work/b.rs", "/work/a.rs"],
          (SourceMap.ofArguments launchRequest.arguments).toTarget p =
            (SourceMap.ofArguments launchRequest.arguments).toTarget q → p = q := by decide +kernel
    rw [wishes]
    exact fun p mem q mem' => distinct p mem q mem'
  have room : lineCount (wishRequests.filterMap (wish? byPaths.convention)) < UInt32.size := by
    rw [wishes]
    decide
  exact ⟨⟨before, after⟩, (configuredAlike (Scripted.World.debuggeeView_lawful rfl)
    ⟨rfl, rfl, rfl, rfl⟩ unopened (by decide) settings rfl apart room done₁ done₂ started₁ started₂).1⟩

/-! ### A breakpoint that is not let go -/

/-- The same machine, but its engine fails to remove breakpoints. -/
def unremoving : System Scripted.World :=
  { settable with native := { settable.native with failures := [("remove_breakpoint", .status .fail)] } }

/-- A breakpoint is asked for, and then none in the same file. -/
def takenBack : List Request :=
  [wishRequest "/work/a.rs" [3], wishRequest "/work/a.rs" []]

/-- If the engine fails to remove a breakpoint, it stays in its place when it was set after the start, and is
not there when it was taken back before. The engine keeps to all else that is taken for granted. -/
theorem leftover_breakpoint :
    unremoving.native.debuggeeView.Answering unremoving.native.heldAnswers ∧
    (unremoving.Unopened unremoving.native.debuggeeView .initialized [] ∧ byPaths.Unconfigured ∧
      AreSettings takenBack none ∧
      takenBack.filterMap (wish? byPaths.convention) = [("/work/a.rs", [3]), ("/work/a.rs", [])]) ∧
    (hasStarted (takingTurns unremoving (takenBack ++ [launchRequest])) = true ∧
      (takingTurns unremoving (takenBack ++ [launchRequest])).system.engine.breakpoints = []) ∧
    (hasStarted (takingTurns unremoving (launchRequest :: takenBack)) = true ∧
      (takingTurns unremoving (launchRequest :: takenBack)).system.engine.breakpoints = [(1, 64)]) := by
  refine ⟨?_, ⟨?_, ⟨rfl, rfl, rfl, rfl⟩, ⟨by decide, fun _ mem => absurd mem (Option.not_mem_none _)⟩, ?_⟩,
    ?_, ?_⟩
  · exact Scripted.World.debuggeeView_answering (by unfold Scripted.World.Obliging; decide)
  · exact ⟨⟨rfl, rfl⟩, fun options _ => Scripted.World.debuggeeView_makes rfl rfl rfl rfl options, rfl, rfl⟩
  all_goals decide +kernel

end Session

end DebugAdapter
