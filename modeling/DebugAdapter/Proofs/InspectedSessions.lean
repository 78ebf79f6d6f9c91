import DebugAdapter.Proofs.FairSchedules
import DebugAdapter.Proofs.HeldSessions
import DebugAdapter.Proofs.RequestAnswers
import DebugAdapter.Proofs.StoppedStacks

/-!
# Sessions of a stopped debuggee

A client looks at a debuggee that has stopped: at the stack of a thread, at scopes, variables and values. Each
of these requests hands at most one command to the engine thread, and is answered by one response. Meanwhile
the forwarder tells what was published before (`System.Told`).

## Key results

- `Session.does_look`: requests for scopes, variables and values
- `Session.does_stackTrace`: requests for the stack of a thread
- `Session.does_handle`: a request is answered
-/

namespace DebugAdapter

variable {σ : Type} [Engine σ]

/-! ## Systems of which nothing is asked -/

/-- The action leaves the gateway what it is, and answers no request. -/
structure Action.Reports (a : Action) : Prop extends a.Tame where
  atGateway : a.atGateway = []
  answers : a.answers = []

/-- As long as the process has not exited, the client is only told. -/
theorem Session.reports_forward {e : GatewayEvent} (goesOn : ∀ code, e ≠ .processExited code) :
    (forward e).All Action.Reports fun _ => True := by
  refine all_forward_of ⟨⟨id, rfl⟩, rfl, rfl⟩ ⟨⟨id, rfl⟩, rfl, rfl⟩
    (fun name known body => ⟨⟨id, rfl⟩, rfl, ?_⟩) fun code exited => absurd exited (goesOn code)
  have other : ∀ name ∈ ["stopped", "terminated", "thread", "output", "exited"],
      (name == "initialized") = false := by decide
  have event : (Message.event (.ofJson name body)).isAnswer = false := other name known
  rw [Action.answers, event]
  rfl

omit [Engine σ] in
/-- A worker that has published output alone has published no exit. -/
theorem Worker.OnlyOutput.unexited {w : Worker σ} (only : w.OnlyOutput) (code : UInt32) :
    GatewayEvent.processExited code ∉ w.published := by
  intro exited
  obtain ⟨text, e⟩ := only _ exited
  cases e

namespace System

/-- The forwarder only tells the client of something, and these answers were given. -/
structure Told (told : List Message) (s : System σ) : Prop where
  forwarder : s.forwarder.All Action.Reports fun _ => True
  answers_eq : s.outbox.messages.filter Message.isAnswer = told

variable {told : List Message} {A : Gateway σ → Prop} {s s' : System σ}

/-- An action that leaves the gateway what it is. -/
theorem Amid.perform_answers (h : s.Amid A (Told told)) {a : Action} {r : a.Result} (plain : ¬a.Opens)
    (aside : a.atGateway = []) (e : s.perform a = some (r, s')) :
    s'.gateway = s.gateway ∧ s'.Amid A (Told (told ++ a.answers)) := by
  obtain ⟨gateway, forwarder, -⟩ := perform_frame e plain
  have same : s'.gateway = s.gateway := by
    rw [gateway, aside]
    cases s.gateway <;> rfl
  refine ⟨same, same ▸ h.gateway, forwarder ▸ h.rest.forwarder, ?_⟩
  rw [perform_messages e, List.filter_append, h.rest.answers_eq, filter_writes]

/-- As long as the process has not exited, the forwarder only tells the client of something. -/
theorem surrounds_told :
    Surrounds (fun w : Worker σ => ∀ code, GatewayEvent.processExited code ∉ w.published) (Told told) where
  tame h := h.forwarder.mono fun _ reports => reports.toTame
  gateway h _ := ⟨h.forwarder, h.answers_eq⟩
  forwarder := by
    intro s g h gateway unexited
    -- the forwarder reports, takes an event that is no exit, or waits
    rcases s.stepForwarder_cases with ⟨a, next, r, s', hf, e, step⟩ | ⟨event, -, taken, step⟩ | step
    · have left := h.forwarder
      rw [hf] at left
      have amid : s.Amid (· = g) (Told told) := ⟨⟨g, gateway, rfl⟩, h⟩
      obtain ⟨same, after⟩ := amid.perform_answers left.1.not_opens left.1.atGateway e
      rw [step]
      refine ⟨⟨left.2 r, ?_⟩, same.trans gateway⟩
      rw [after.rest.answers_eq, left.1.answers, List.append_nil]
    · rw [nextEvent?, gateway] at taken
      have goesOn : ∀ code, event ≠ .processExited code := by
        rintro code rfl
        exact unexited code (List.mem_of_getElem? taken)
      rw [step]
      exact ⟨⟨Session.reports_forward goesOn, h.answers_eq⟩, gateway⟩
    · rw [step]
      exact ⟨h, gateway⟩

/-- Nothing is asked of the engine thread. The debuggee is stopped, the frames of a thread are known if they
were asked for, and these answers were given. -/
abbrev Looked (K : σ → Prop) (thread : UInt32) (maxFrames : Nat) (stack : Except EngineError (List NativeFrame))
    (frames? : Option (List (Registered Frame))) (told : List Message) : System σ → Prop :=
  Amid (Gateway.Resting (Worker.StoppedWith K thread maxFrames stack frames?)) (Told told)

variable {K : σ → Prop} {thread : UInt32} {maxFrames : Nat} {stack : Except EngineError (List NativeFrame)}
  {frames? : Option (List (Registered Frame))}

/-- While the debuggee stands still, the other threads change nothing of it. -/
theorem stable_looked (law : Engine.StandsStill K thread maxFrames stack) :
    Stable (Looked (σ := σ) K thread maxFrames stack frames? told) :=
  stable_amid surrounds_told (fun _ h => h.worker.unexited) fun _ h => h.advance (Worker.idles_stoppedWith law)

end System

/-! ## Requests -/

/-- The body of the response to a request for a stack: a part of it, and the number of its frames. -/
def Session.stackBody (shown : List Json) (total : Nat) : Json :=
  .object [("stackFrames", .arr shown), ("totalFrames", .int total)]

/-- The part of a stack that a request asks for, from the innermost frame on: what begins at a frame, or at the
first one if none is told, and has a number of frames, or goes on to the end if no number is told. -/
def page {α : Type} (start levels : Option Int) (l : List α) : List α :=
  let rest := l.drop (start.getD 0).toNat
  match levels.filter (0 < ·) with
  | some levels => rest.take levels.toNat
  | none => rest

/-- The page of a stack that a request asks for. -/
def Request.page {α : Type} (r : Request) (l : List α) : List α :=
  DebugAdapter.page (r.int? "startFrame") (r.int? "levels") l

/-- The request is for scopes, variables or a value. -/
def Request.Looks (r : Request) : Prop :=
  r.command ∈ ["scopes", "variables", "evaluate"]

/-- The request is for the stack of a thread. -/
structure Request.Lists (r : Request) (thread : UInt32) : Prop where
  command_eq : r.command = "stackTrace"
  thread_eq : (r.int? "threadId").bind word32? = some thread

instance (r : Request) : Decidable r.Looks :=
  inferInstanceAs (Decidable (r.command ∈ ["scopes", "variables", "evaluate"]))

instance (r : Request) (thread : UInt32) : Decidable (r.Lists thread) :=
  decidable_of_iff (r.command = "stackTrace" ∧ (r.int? "threadId").bind word32? = some thread)
    ⟨fun h => ⟨h.1, h.2⟩, fun h => ⟨h.1, h.2⟩⟩

/-- The message is a response to a request. -/
def Message.RespondsTo (m : Message) (r : Request) : Prop :=
  ∃ a, m = .response a ∧ a.requestSeq = r.seq ∧ a.command = r.command

/-- What is answered to a request that came to a result. -/
def Message.Replies (r : Request) (result : Except RequestFailure (Option Json)) (m : Message) : Prop :=
  match result with
  | .ok body => m = .response (.success r body)
  | .error _ => ∃ e, m = .response (.error r e)

/-- What replies to a request responds to it. -/
theorem Message.Replies.respondsTo {r : Request} {result : Except RequestFailure (Option Json)} {m : Message}
    (h : m.Replies r result) : m.RespondsTo r := by
  cases result with
  | ok body => exact ⟨_, h, rfl, rfl⟩
  | error e =>
    obtain ⟨message, same⟩ := h
    exact ⟨_, same, rfl, rfl⟩

/-- The message answers a request. If that is for the stack of the thread, it shows a page of the frames that
are known of it. -/
structure Session.Shows (t : Session) (thread : UInt32) (frames? : Option (List (Registered Frame)))
    (r : Request) (m : Message) : Prop where
  responds : m.RespondsTo r
  page_eq : r.Lists thread → ∃ frames, frames? = some frames ∧
    m = .response (.success r (some (stackBody ((r.page frames).map t.frameJson) frames.length)))

namespace Session

variable {K : σ → Prop} {thread : UInt32} {maxFrames : Nat} {stack : Except EngineError (List NativeFrame)}
  {frames? : Option (List (Registered Frame))} {told : List Message} {t : Session} {r : Request}

/-- The session that is read is the one that is known. -/
theorem Does.bindGetAt {α : Type} {B : System σ → Prop} {f : Session → RequestM α}
    {R : Except RequestFailure α → Session → System σ → Prop} (hf : Does (At t B) (f t).run R) :
    Does (At t B) (ExceptT.lift MonadState.get >>= f).run R := by
  refine Does.bindLift (Q := fun t' u s => t' = t ∧ At t B u s) (.get fun _ _ h => ⟨h.1, h⟩) fun t' => ?_
  refine .const fun same => ?_
  rw [same]
  exact hf

/-- A command that is answered gives its answer. -/
theorem does_command {B : System σ → Prop} {c : Command} {R : Reply → System σ → Prop} (on : t.started = true)
    (called : Does (At t B) (Session.command? c) fun result t' s => t' = t ∧ ∃ r, result = some r ∧ R r s) :
    Does (At t B) (Session.command c).run (Ok fun r => At t (R r)) := by
  have given : Does (At t B) (do orFailWith .noDebuggee (← ExceptT.lift (Session.command? c)) :
      RequestM Reply).run (Ok fun r => At t (R r)) := by
    refine Does.bindLift called fun result => ?_
    -- as the debuggee is there, the command gets a reply
    cases result with
    | none => exact .pure fun _ _ ⟨_, _, given, _⟩ => nomatch given
    | some r =>
      refine .pure fun t' s ⟨same, r', is, known⟩ => ?_
      obtain rfl := Option.some.inj is
      exact ⟨same, known⟩
  refine Does.bindGetAt ?_
  rw [on]
  exact given

variable (law : Engine.StandsStill K thread maxFrames stack) (on : t.started = true)
include law on

/-- A command that is carried out while the debuggee stands still. -/
theorem does_command_told {Q : Reply → Worker σ → Prop} {R : Reply → System σ → Prop} {c : Command}
    (call : Worker.CarriesOut (Worker.StoppedWith K thread maxFrames stack frames?) (fun _ _ => False) Q c)
    (stable : ∀ r, System.Stable (R r))
    (answered : ∀ r s, s.Amid (Gateway.Replied (Q r)) (System.Told told) → R r s)
    (plain : c ≠ .pause ∧ c ≠ .terminate) :
    Does (At t (System.Looked K thread maxFrames stack frames? told)) (Session.command c).run
      (Ok fun r => At t (R r)) :=
  does_command on <| does_command? (T := (· = t)) System.surrounds_told (Worker.idles_stoppedWith law)
    (fun _ h => h.unexited) (fun _ => Worker.OnlyOutput.unexited) call stable answered plain

/-- A command that looks at the debuggee. -/
theorem does_command_look {c : Command} (looks : c.looks = true) :
    Does (At t (System.Looked K thread maxFrames stack frames? told)) (Session.command c).run
      (Ok fun _ => At t (System.Looked (σ := σ) K thread maxFrames stack frames? told)) := by
  refine does_command_told law on (Worker.carriesOut_look law looks) (fun _ => System.stable_looked law)
    (fun _ _ h => h.mono fun _ h => h.toResting) ?_
  constructor
  all_goals
    rintro rfl
    cases looks

/-- Requests for scopes, variables and values. -/
theorem does_look (looks : r.Looks) :
    Does (At t (System.Looked K thread maxFrames stack frames? told)) (dispatch r).run
      fun _ => At t (System.Looked (σ := σ) K thread maxFrames stack frames? told) := by
  let I : Session → System σ → Prop := At t (System.Looked K thread maxFrames stack frames? told)
  -- every step but a command leaves the session and the system as they are
  have done : ∀ {α : Type} (result : Except RequestFailure α),
      Does I (ExceptT.mk (Pure.pure result) : RequestM α).run fun _ => I :=
    fun _ => .pure fun _ _ h => h
  -- a request is cut short by its first failure, which changes nothing either
  have next : ∀ {α β : Type} {m : RequestM α} {f : α → RequestM β}, Does I m.run (fun _ => I) →
      (∀ a, Does I (f a).run fun _ => I) → Does I (m >>= f).run fun _ => I :=
    fun hm hf => hm.bindExcept hf fun _ _ _ h => h
  have commands : ∀ {c : Command}, c.looks = true → Does I (Session.command c).run fun _ => I :=
    fun looks => (does_command_look law on looks).mono (fun _ _ h => h) fun result _ _ h => by
      cases result with
      | ok r => exact h
      | error e => exact h.elim
  have given : ∀ {α : Type} (m : ErrorMessage) (o : Option α), Does I (orFailWith m o).run fun _ => I := by
    intro α m o
    cases o <;> exact done _
  simp only [Request.Looks, List.mem_cons, List.not_mem_nil, or_false] at looks
  -- each of the three requests asks one command
  rcases looks with command | command | command <;> simp only [dispatch, command]
  · refine next (given _ _) fun frame => next (commands rfl) fun reply => ?_
    split <;> exact done _
  · refine next (next (given _ _) fun _ => done _) fun reference => ?_
    split
    · exact done _
    · refine next (commands rfl) fun reply => ?_
      split <;> exact done _
  · refine next (given _ _) fun expression => next (commands rfl) fun reply => ?_
    split <;> exact done _

/-- Requests for the stack of the thread. -/
theorem does_stackTrace (lists : r.Lists thread) :
    Does (At t (System.Looked K thread maxFrames stack frames? told)) (dispatch r).run
      fun result t' s => ∃ frames, (result = .ok (some (stackBody ((r.page frames).map t.frameJson)
          frames.length)) ∧ ∀ known, frames? = some known → known = frames) ∧
        At t (System.Looked (σ := σ) K thread maxFrames stack (some frames) told) t' s := by
  obtain ⟨command, thread_eq⟩ := lists
  obtain ⟨id, named, word⟩ := Option.bind_eq_some_iff.1 thread_eq
  -- the frames are those known then
  let Listed (reply : Reply) (s : System σ) : Prop := ∃ frames, reply = .frames frames ∧
    (∀ known, frames? = some known → known = frames) ∧
      s.Looked K thread maxFrames stack (some frames) told
  have commanded : Does (At t (System.Looked K thread maxFrames stack frames? told))
      (Session.command (.stackTrace thread)).run (Ok fun reply => At t (Listed reply)) := by
    refine does_command_told law on (Worker.carriesOut_stackTrace law) (fun _ => ?_) (fun reply s h => ?_) ?_
    · exact .ofExists fun frames => ((System.stable_looked law).and_const _).and_const _
    rotate_left
    · constructor
      all_goals
        intro same
        cases same
    · -- the answer is on its way to the session, and the worker rests with the frames it listed
      obtain ⟨g, gateway, replied⟩ := h.gateway
      obtain ⟨frames, rfl, known, -⟩ := replied.worker
      refine ⟨frames, rfl, known, h.mono fun g h => (h.mono ?_).toResting⟩
      rintro w ⟨frames', same, -, stopped⟩
      cases same
      exact stopped
  simp only [dispatch, command, stackTrace, named]
  rw [orFailWith, pure_bind]
  simp only [word]
  refine commanded.bindExcept (fun reply => ?_) (fun _ _ _ h => h.elim)
  -- the page is cut from the frames that were listed
  refine Does.mono (Does.ofExists (A := fun frames t' s =>
    (reply = .frames frames ∧ ∀ known, frames? = some known → known = frames) ∧
      At t (System.Looked K thread maxFrames stack (some frames) told) t' s) fun frames => .const ?_)
    ?_ fun _ _ _ h => h
  · rintro ⟨rfl, known⟩
    simp only [pure_bind]
    refine Does.bindGetAt ?_
    exact .ok fun _ _ h => ⟨frames, ⟨rfl, known⟩, h⟩
  · rintro t' s ⟨same, frames, is, known, h⟩
    exact ⟨frames, ⟨is, known⟩, same, h⟩

/-! ## Answers -/

omit law on in
/-- Without events to send, none are sent. -/
theorem run_sendDeferred (quiet : t.deferred = []) : sendDeferred.run t = .done (⟨⟩, t) := by
  have emptied : { t with deferred := [] } = t := by rw [← quiet]
  change (do
    forIn t.deferred PUnit.unit fun e _ => do
      Session.perform (.send (.event e))
      pure (ForInStep.yield PUnit.unit)
    Pure.pure () : SessionM Unit).run { t with deferred := [] } = _
  rw [emptied, quiet]
  rfl

omit on in
/-- A log record is made. -/
theorem does_log (level : LogLevel) (text : String) :
    Does (At t (System.Looked K thread maxFrames stack frames? told)) (Session.log level text)
      fun _ => At t (System.Looked (σ := σ) K thread maxFrames stack frames? told) := by
  refine .perform (fun t' => stable_at (System.stable_looked law) t')
    (fun _ _ _ => ⟨0, System.frees_of_not_waits id 0⟩) fun {_ _ _ s'} h e => ⟨h.1, ?_⟩
  have after : s'.Looked K thread maxFrames stack frames? (told ++ []) :=
    (h.2.perform_answers id rfl e).2
  rwa [List.append_nil] at after

omit on in
/-- A response is sent. -/
theorem does_respond (a : Response) :
    Does (At t (System.Looked K thread maxFrames stack frames? told)) (Session.perform (.send (.response a)))
      fun _ => At t (System.Looked (σ := σ) K thread maxFrames stack frames? (told ++ [.response a])) :=
  .perform (fun t' => stable_at (System.stable_looked law) t')
    (fun _ _ _ => ⟨0, System.frees_of_not_waits id 0⟩) fun h e => ⟨h.1, (h.2.perform_answers id rfl e).2⟩

omit on in
/-- A request that was carried out, or was not, is answered. -/
theorem does_answer (quiet : t.deferred = []) (r : Request) (result : Except RequestFailure (Option Json)) :
    Does (At t (System.Looked K thread maxFrames stack frames? told)) (do
      match result with
      | .ok body =>
        Session.perform (.send (.response (.success r body)))
        Session.sendDeferred
      | .error failure =>
        let message ← failureMessage r failure
        modify fun s => { s with deferred := [] }
        Session.log .debug ("error " ++ toString r.seq ++ ": " ++ message.text)
        Session.perform (.send (.response (.error r message))))
      fun _ t' s => ∃ m, m.Replies r result ∧
        At t (System.Looked (σ := σ) K thread maxFrames stack frames? (told ++ [m])) t' s := by
  -- a success and a failure are both answered with one message
  cases result with
  | ok body =>
    refine (does_respond law (.success r body)).bind fun _ => ?_
    refine ⟨?_, ?_⟩
    · rintro t' s ⟨rfl, h⟩
      rw [run_sendDeferred quiet]
      exact ⟨_, rfl, rfl, h⟩
    · rintro t' s ⟨rfl, -⟩
      rw [run_sendDeferred quiet]
      trivial
  | error failure =>
    -- the events that were kept back are dropped, and there were none
    have emptied : { t with deferred := [] } = t := by rw [← quiet]
    have reported : ∀ message : ErrorMessage,
        Does (At t (System.Looked K thread maxFrames stack frames? told)) (do
          modify fun s => { s with deferred := [] }
          Session.log .debug ("error " ++ toString r.seq ++ ": " ++ message.text)
          Session.perform (.send (.response (.error r message))))
        fun _ => At t (System.Looked (σ := σ) K thread maxFrames stack frames?
          (told ++ [.response (.error r message)])) := by
      intro message
      refine Does.bind (.modify (Q := fun _ => At t _) fun t' s h => ?_) fun _ =>
        (does_log law _ _).bind fun _ => does_respond law _
      exact ⟨h.1 ▸ emptied, h.2⟩
    -- wording a failure logs it at most
    have worded : Does (At t (System.Looked K thread maxFrames stack frames? told)) (failureMessage r failure)
        fun _ => At t (System.Looked (σ := σ) K thread maxFrames stack frames? told) := by
      cases failure with
      | reported message => exact .pure fun _ _ h => h
      | other text => exact (does_log law _ _).bind fun _ => .pure fun _ _ h => h
    refine worded.bind fun message => ?_
    exact (reported message).mono (fun _ _ h => h) fun _ _ _ h => ⟨_, ⟨message, rfl⟩, h⟩

/-- A request for the stack, for scopes, variables or a value is answered. -/
theorem does_handle (quiet : t.deferred = []) {r : Request} (asks : r.Lists thread ∨ r.Looks) :
    Does (At t (System.Looked K thread maxFrames stack frames? told)) (handle r) fun _ t' s =>
      ∃ p : Option (List (Registered Frame)) × Message,
        ((∀ known, frames? = some known → p.1 = some known) ∧ t.Shows thread p.1 r p.2) ∧
          At t (System.Looked (σ := σ) K thread maxFrames stack p.1 (told ++ [p.2])) t' s := by
  refine (does_log law .debug _).bind fun _ => ?_
  -- a request for the stack makes its frames known, and the others leave them
  by_cases lists : r.Lists thread
  · refine (does_stackTrace law on lists).bind fun result => .ofExists fun frames => .const fun h => ?_
    obtain ⟨rfl, known⟩ := h
    refine (does_answer law quiet r (.ok _)).mono (fun _ _ h => h) ?_
    rintro _ t' s ⟨m, replies, h⟩
    have shows : t.Shows thread (some frames) r m := ⟨replies.respondsTo, fun _ => ⟨frames, rfl, replies⟩⟩
    exact ⟨(some frames, m), ⟨fun _ same => by rw [known _ same], shows⟩, h⟩
  · have looks := asks.resolve_left lists
    refine (does_look law on looks).bind fun result => (does_answer law quiet r result).mono (fun _ _ h => h) ?_
    rintro _ t' s ⟨m, replies, h⟩
    have shows : t.Shows thread frames? r m := ⟨replies.respondsTo, fun is => absurd is lists⟩
    exact ⟨(frames?, m), ⟨fun _ same => same, shows⟩, h⟩

/-- Requests for the stack, for scopes, variables and values are answered one after the other, and the frames
shown are the same throughout. -/
theorem does_requests (quiet : t.deferred = []) {requests : List Request}
    (asks : ∀ r ∈ requests, r.Lists thread ∨ r.Looks) :
    Does (At t (System.Looked K thread maxFrames stack frames? told)) (requests.forM handle) fun _ t' s =>
      ∃ p : Option (List (Registered Frame)) × List Message,
        ((∀ known, frames? = some known → p.1 = some known) ∧
          List.Forall₂ (t.Shows thread p.1) requests p.2) ∧
          At t (System.Looked (σ := σ) K thread maxFrames stack p.1 (told ++ p.2)) t' s := by
  -- induction on the requests; the frames that are known, and what was told, go on from one to the next
  induction requests generalizing frames? told with
  | nil =>
    refine .pure fun t' s h => ⟨(frames?, []), ⟨fun _ same => same, .nil⟩, ?_⟩
    rwa [List.append_nil]
  | cons r requests ih =>
    have first : Does (At t (System.Looked K thread maxFrames stack frames? told)) (handle r) _ :=
      does_handle law on quiet (asks r List.mem_cons_self)
    -- the frames that the first request made known are those that the others are shown
    refine Does.bind (m := handle r) first fun _ => .ofExists fun p => .const fun ⟨known, shows⟩ => ?_
    refine (ih fun r mem => asks r (List.mem_cons_of_mem _ mem)).mono (fun _ _ h => h) ?_
    rintro _ t' s ⟨p', ⟨known', rest⟩, h⟩
    refine ⟨(p'.1, p.2 :: p'.2), ⟨fun _ same => known' _ (known _ same), .cons ?_ rest⟩, ?_⟩
    · refine ⟨shows.responds, fun lists => ?_⟩
      obtain ⟨frames, same, shown⟩ := shows.page_eq lists
      exact ⟨frames, known' frames same, shown⟩
    · rwa [List.append_assoc] at h

end Session

end DebugAdapter
