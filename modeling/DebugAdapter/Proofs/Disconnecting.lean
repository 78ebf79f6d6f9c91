import DebugAdapter.Proofs.RequestAnswers
import DebugAdapter.Proofs.SessionEnd

/-!
# Nothing follows the answer to a request to disconnect

Before that request is answered, the session thread has waited for the engine thread to end and for the
forwarder to forward all events. How far it has come is known from its actions alone (`Stage`), and they
are in an order in which the answer comes last (`Session.ending`). What each stage says about the gateway
and the forwarder (`System.Staged`) is kept by the other threads; so when the answer is written, nobody
has anything to write any more.

## Key results

- `Session.follows_serve_ending`: serving a client, actions are in that order
- `System.Staged.perform`, `System.stable_staged`: every step of one of the threads keeps what is known at
  a stage
- `SessionRun.run_ends`: what a client is told at the end
-/

namespace DebugAdapter

/-! ## Stages -/

/-- How far a session has come to its end. -/
inductive Stage
  /-- There may be a gateway at work. -/
  | begun
  /-- The engine thread of the gateway has ended, if there is one. -/
  | ended
  /-- Its events were forwarded as well. -/
  | joined
  /-- A request to disconnect was answered. -/
  | closed
  deriving DecidableEq

/-- The message is the answer to a request to disconnect. -/
def Message.closes : Message → Bool
  | response r => r.command == "disconnect"
  | event _ => false

/-- The action writes the answer to a request to disconnect. -/
def Action.closes : Action → Bool
  | send m => m.closes
  | _ => false

/-- The action drops the subscribers of the gateway. -/
def Action.silences : Action → Bool
  | silence => true
  | _ => false

/-- The stage after an action. -/
def Stage.after (k : Stage) : (a : Action) → a.Result → Stage
  | .openGateway _ _, .ok _ => .begun
  | .awaitEnd, _ => if k = .begun then .ended else k
  | .joinForwarder, _ => .joined
  | .send m, _ => if m.closes then .closed else k
  | _, _ => k

namespace Session

/-- A session is ended in order: the subscribers are dropped when the engine thread has ended, a request
to disconnect is answered when all events were forwarded, and nothing is done after that. -/
def ending : Protocol Stage where
  allows k a := k ≠ .closed ∧ a.stateAfter .terminated = .terminated ∧ (a.silences = true → k ≠ .begun) ∧
    (a.closes = true → k = .joined)
  next := Stage.after

/-- An action that ends nothing is allowed as long as the connection is open. -/
theorem allows_of {k : Stage} {a : Action} (goesOn : k ≠ .closed)
    (lasts : a.stateAfter .terminated = .terminated) (silences : a.silences = false)
    (closes : a.closes = false) : ending.allows k a :=
  ⟨goesOn, lasts, fun on => absurd (silences.symm.trans on) Bool.false_ne_true,
    fun on => absurd (closes.symm.trans on) Bool.false_ne_true⟩

/-- The action is allowed at any stage before the last one, and does not change the stage. -/
def Passing (a : Action) : Prop :=
  ∀ k, k ≠ .closed → ending.Quiet k a

/-- An action that ends nothing and leaves the stage passes. -/
theorem passing_of {a : Action} (lasts : a.stateAfter .terminated = .terminated)
    (silences : a.silences = false) (closes : a.closes = false) (same : ∀ k r, Stage.after k a r = k) :
    Passing a :=
  fun k goesOn => ⟨allows_of goesOn lasts silences closes, same k⟩

/-- Requests to a debuggee leave it where it is. -/
theorem callUse_passing {S : Session → Prop} (keeps : ∀ {t t' : Session}, S t → t.Agree t' → S t') :
    CallUse Passing S where
  read := passing_of rfl rfl rfl fun _ _ => rfl
  advance := fun _ => passing_of rfl rfl rfl fun _ _ => rfl
  continued := fun _ => passing_of rfl rfl rfl fun _ _ => rfl
  note := fun _ => passing_of rfl rfl rfl fun _ _ => rfl
  calls := by
    intro a h
    cases a <;> first | exact False.elim h | exact passing_of rfl rfl rfl fun _ _ => rfl
  keeps := keeps

/-- What is asked of the host passes. -/
theorem passing_onHost (a : Action) (h : a.OnHost) : Passing a := by
  cases a <;> first | exact False.elim h | exact passing_of rfl rfl rfl fun _ _ => rfl

/-- The session is not over for its thread, and if there is no forwarder to wait for, it has been waited
for. -/
structure Tracks (t : Session) (k : Stage) : Prop where
  goesOn : k ≠ .closed
  joined : t.forwarding = false → k = .joined

/-- So it is between two requests, when nothing waits to be sent. -/
def Attends (t : Session) (k : Stage) : Prop :=
  t.deferred = [] ∧ t.Tracks k

/-- There is nothing left for the session thread to do. -/
structure Left (t : Session) (k : Stage) : Prop where
  started : t.started = false
  forwarding : t.forwarding = false
  stage : k = .closed

/-- What is known of a session and its stage is kept by requests to a debuggee and by disposing of the
gateway. -/
structure Steady (R : Session → Stage → Prop) : Prop where
  goesOn : ∀ {t k}, R t k → k ≠ .closed
  agree : ∀ {t t' k}, R t k → t.Agree t' → R t' k
  disposed : ∀ {t k k'}, R t k → k' ≠ .closed → (k = .joined → k' = .joined) → R t k'
  joined : ∀ {t k}, R t k → R { t with forwarding := false } .joined

/-- That a session attends to its requests holds on while it does. -/
theorem steady_attends : Steady Attends where
  goesOn := fun h => h.2.goesOn
  agree := fun h agree => ⟨agree.deferred.trans h.1, h.2.goesOn, fun none =>
    h.2.joined (agree.forwarding ▸ none)⟩
  disposed := fun h goesOn joined => ⟨h.1, goesOn, fun none => joined (h.2.joined none)⟩
  joined := fun h => ⟨h.1, by decide, fun _ => rfl⟩

/-! ## Work of a session that goes on -/

section Steady

variable {R : Session → Stage → Prop} (F : Steady R)
include F

/-- What passes keeps what holds on. -/
theorem Steady.passing {α : Type} {m : SessionM α} (hm : ∀ k, Uses Passing (R · k) m) :
    Follows ending R m fun _ => R :=
  .of_uses hm fun h passing => passing _ (F.goesOn h)

/-- Calls pass, and keep what holds on. -/
theorem Steady.calls {α : Type} {m : SessionM α}
    (hm : ∀ {S : Session → Prop}, CallUse Passing S → Uses Passing S m) :
    Follows ending R m fun _ => R :=
  F.passing fun _ => hm (callUse_passing F.agree)

/-- A disposal keeps what holds on. -/
theorem Steady.dispose : Follows ending R (StateT.lift dispose) fun _ => R := by
  refine .lift fun t k h => ?_
  have goesOn := F.goesOn h
  have quiet : ∀ {a : Action}, a.stateAfter .terminated = .terminated → a.silences = false →
      a.closes = false → ending.allows k a := allows_of goesOn
  refine ⟨quiet rfl rfl rfl, fun before => ?_⟩
  cases before with
  | true => exact h
  | false =>
    -- the engine thread has ended before the subscribers are dropped
    have ended : Stage.after k .awaitEnd () ≠ .begun ∧ Stage.after k .awaitEnd () ≠ .closed ∧
        (k = .joined → Stage.after k .awaitEnd () = .joined) := by
      cases k <;> simp_all [Stage.after]
    refine ⟨quiet rfl rfl rfl, fun _ => ⟨quiet rfl rfl rfl, fun _ => ⟨quiet rfl rfl rfl, fun _ =>
      ⟨quiet rfl rfl rfl, fun _ => ?_⟩⟩⟩⟩
    exact ⟨⟨ended.2.1, rfl, fun _ => ended.1, fun on => absurd on Bool.false_ne_true⟩,
      fun _ => F.disposed h ended.2.1 ended.2.2⟩

/-- When the forwarder is joined, the gateway has ended and all its events are forwarded. -/
theorem Steady.joinForwarder (none : ∀ {t k}, R t k → t.forwarding = false → k = .joined) :
    Follows ending R joinForwarder fun _ t k => R t k ∧ t.forwarding = false ∧ k = .joined := by
  refine Follows.bind (.get (Q := fun t' t k => t' = t ∧ R t k) fun _ _ h => ⟨rfl, h⟩) fun t' => ?_
  split
  · refine Follows.bind (.modify (Q := fun _ t k => k ≠ .closed ∧ R t .joined ∧ t.forwarding = false)
      fun t k h => ⟨F.goesOn h.2, F.joined h.2, rfl⟩) fun _ => ?_
    exact .perform fun t k h => ⟨allows_of h.1 rfl rfl rfl, fun _ => ⟨h.2.1, h.2.2, rfl⟩⟩
  · next off =>
    refine .pure fun t k h => ?_
    obtain ⟨rfl, h⟩ := h
    have off : t'.forwarding = false := (Bool.not_eq_true _).mp off
    exact ⟨h, off, none h off⟩

end Steady

/-- A session that has joined its forwarder attends further. -/
theorem joinForwarder_attends :
    Follows ending Attends joinForwarder fun _ t k => Attends t k ∧ t.forwarding = false ∧ k = .joined :=
  steady_attends.joinForwarder fun h => h.2.joined

/-- With a new gateway there is a forwarder to wait for. -/
theorem follows_openGateway (r : Request) (code : ErrorCode) :
    Follows ending Attends (openGateway r code).run fun _ => Attends := by
  have F := steady_attends
  have opened : ∀ engineOptions options, Follows ending Attends
      (Session.perform (.openGateway engineOptions options)) fun result t k =>
        t.deferred = [] ∧ k ≠ .closed ∧ (result = .ok () ∨ t.Tracks k) := by
    refine fun _ _ => .perform fun t k h => ⟨allows_of h.2.goesOn rfl rfl rfl, fun result => ⟨h.1, ?_⟩⟩
    -- a gateway that is made is at work, and a failure leaves the stage
    cases result with
    | ok u => exact ⟨show Stage.begun ≠ .closed by decide, .inl rfl⟩
    | error e => exact ⟨h.2.goesOn, .inr h.2⟩
  refine Follows.bindLift (.get (Q := fun _ => Attends) fun _ _ h => h) fun s => ?_
  refine Follows.bindLift (F.passing fun _ => .perform (passing_onHost .findStdLibrary trivial)) fun found => ?_
  obtain ⟨stdLibrary, record⟩ := found
  dsimp only
  split
  case' h_1 => refine Follows.bindLift (F.calls fun C => .perform (C.note _)) fun _ => ?_
  all_goals
    refine Follows.bindLift (opened _ _) fun result => ?_
    cases result with
    | error e => exact .pure fun t k h => ⟨h.1, h.2.2.resolve_left (by simp)⟩
    | ok u => exact Follows.liftM (.modify fun t k h => ⟨h.1, h.2.1, fun off => absurd off.symm Bool.false_ne_true⟩)

/-- The end of a start keeps the session attending. -/
theorem follows_finishStart (r : Request) (code : ErrorCode) (reply : Reply) :
    Follows ending Attends (finishStart r code reply).run fun _ => Attends := by
  have F := steady_attends
  unfold finishStart
  split
  · refine Follows.bindLift (F.calls fun C => C.log _ _) fun _ => ?_
    refine Follows.bindLift (.modify (Q := fun _ => Attends) fun _ _ h => ?_) fun _ => ?_
    · exact ⟨h.1, h.2.goesOn, h.2.joined⟩
    · exact F.calls fun C => C.afterStart
  · refine Follows.bindLift F.dispose fun _ => Follows.bindLift joinForwarder_attends fun _ => ?_
    exact .pure fun _ _ h => h.1

/-- A start keeps the session attending. -/
theorem follows_startBy (r : Request) (code : ErrorCode) (c : Command) :
    Follows ending Attends (startBy r code c).run fun _ => Attends :=
  (follows_openGateway r code).bindExcept (fun _ =>
    (steady_attends.calls fun C => C.startCommand c).bindExcept (fun _ => follows_finishStart r code _)
      fun _ _ _ h => h) fun _ _ _ h => h

/-- All requests but those that begin and end the session. -/
theorem follows_dispatch_attends {r : Request} (begins : r.command ≠ "initialize")
    (disconnect : r.command ≠ "disconnect") :
    Follows ending Attends (dispatch r).run fun _ => Attends := by
  have F := steady_attends
  have note : ∀ r, Passing (.note r) :=
    (callUse_passing (S := fun _ => True) fun _ _ => trivial).note
  -- only the requests that start a debuggee open a gateway
  by_cases launch : r.command = "launch"
  · simp only [dispatch, launch]
    rw [launch_eq]
    exact (F.passing fun _ => Uses.requestedLaunch passing_onHost note r).bindExcept
      (fun _ => follows_startBy _ _ _) fun _ _ _ h => h
  · by_cases attach : r.command = "attach"
    · simp only [dispatch, attach]
      rw [attach_eq]
      exact (F.passing fun _ => Uses.requestedAttach passing_onHost note r).bindExcept
        (fun _ => follows_startBy _ _ _) fun _ _ _ h => h
    · exact F.calls fun C => C.dispatch begins launch attach disconnect

/-- Letting go of the engine, all events are forwarded. -/
theorem follows_shutdown : Follows ending Attends shutdown fun _ t k =>
    Attends t k ∧ t.started = false ∧ t.forwarding = false ∧ k = .joined := by
  have bare : Steady fun t k => Attends t k ∧ t.started = false :=
    { goesOn := fun h => steady_attends.goesOn h.1
      agree := fun h agree => ⟨steady_attends.agree h.1 agree, agree.started.trans h.2⟩
      disposed := fun h goesOn joined => ⟨steady_attends.disposed h.1 goesOn joined, h.2⟩
      joined := fun h => ⟨steady_attends.joined h.1, h.2⟩ }
  -- in every case the forwarder is joined last
  have joined : Follows ending (fun t k => Attends t k ∧ t.started = false) joinForwarder fun _ t k =>
      Attends t k ∧ t.started = false ∧ t.forwarding = false ∧ k = .joined :=
    (bare.joinForwarder fun h => h.1.2.joined).mono (fun _ _ h => h)
      fun _ _ _ h => ⟨h.1.1, h.1.2, h.2⟩
  have disposed := bare.dispose.bind fun _ => joined
  refine Follows.bind (.get (Q := fun t' t k => t' = t ∧ Attends t k) fun _ _ h => ⟨rfl, h⟩) fun t' => ?_
  -- a debuggee that was started is terminated and its gateway disposed of first
  split
  · refine Follows.bind (.modify (Q := fun _ t k => Attends t k ∧ t.started = false)
      fun t k h => ⟨⟨h.2.1, h.2.2.goesOn, h.2.2.joined⟩, rfl⟩) fun _ => ?_
    -- whether the debuggee could be terminated is only logged
    refine (bare.calls fun C => C.command? .terminate).bind fun reply => ?_
    split
    · exact (bare.calls fun C => C.log _ _).bind fun _ => disposed
    · exact disposed
    · exact (bare.calls fun C => C.log _ _).bind fun _ => disposed
  · next off =>
    refine joined.mono (fun t k h => ⟨h.2, ?_⟩) fun _ _ _ h => h
    rw [← h.1]
    exact (Bool.not_eq_true _).mp off

/-- A request to disconnect is answered last. -/
theorem follows_handle_disconnect {r : Request} (disconnects : r.command = "disconnect") :
    Follows ending Attends (handle r) fun _ => Left := by
  have passing : ∀ {k}, k ≠ .closed → ∀ record, ending.Quiet k (.note record) :=
    fun h record => (callUse_passing (S := fun _ => True) fun _ _ => trivial).note record _ h
  let Joined := fun (t : Session) (k : Stage) => t.started = false ∧ t.forwarding = false ∧ k = .joined
  have going : ∀ {t k}, Joined t k → k ≠ .closed := by
    rintro t k ⟨-, -, rfl⟩
    decide
  -- the gateway is disposed of and the forwarder joined before there is an answer
  have ended : Follows ending Attends disconnect.run fun _ t k => t.deferred = [] ∧ Joined t k := by
    refine Follows.bindLift (.quiet fun t k h => ⟨allows_of h.2.goesOn rfl rfl rfl, fun _ => rfl⟩) fun _ => ?_
    exact Follows.bindLift follows_shutdown fun _ => .pure fun _ _ h => ⟨h.1.1, h.2⟩
  have dispatched : Follows ending (fun t k => t.deferred = [] ∧ t.Tracks k) (dispatch r).run
      fun result t k => Joined t k ∧ ∀ body, result = .ok body → t.deferred = (eventAfter r).toList := by
    have same : dispatch r = disconnect := by simp only [dispatch, disconnects]
    rw [same]
    refine ended.mono (fun _ _ h => h) fun _ t k h => ⟨h.2, fun _ _ => ?_⟩
    rw [h.1, eventAfter, disconnects]
    rfl
  -- the answer comes behind all else and closes the session
  have answered : ∀ {t k}, Joined t k → ∀ {a : Response}, a.command = r.command →
      ending.allows k (.send (.response a)) ∧ Left t (Stage.after k (.send (.response a)) ()) := by
    intro t k h a command
    have closes : (Message.response a).closes = true := by simp [Message.closes, command, disconnects]
    refine ⟨⟨going h, rfl, fun on => absurd on Bool.false_ne_true, fun _ => h.2.2⟩, h.1, h.2.1, ?_⟩
    simp only [Stage.after, closes, if_true]
  refine (follows_handle id (fun h => passing h.goesOn)
    (fun h => passing (going h)) dispatched ?_ ?_).mono (fun _ _ h => h) fun _ _ _ h => h.2
  · exact fun h m => ⟨(answered h rfl).1, fun _ => (answered h rfl).2⟩
  · intro t k h body
    have none : eventAfter r = none := by simp [eventAfter, disconnects]
    rw [none]
    exact ⟨(answered h rfl).1, fun _ => (answered h rfl).2⟩

/-- Other requests leave the session where it is. -/
theorem follows_handle_attends {r : Request} (goesOn : r.command ≠ "disconnect") :
    Follows ending Attends (handle r) fun _ => Attends := by
  have passing : ∀ {k a}, k ≠ .closed → Passing a → ending.Quiet k a := fun h passing => passing _ h
  have C := callUse_passing (S := fun _ => True) fun _ _ => trivial
  -- an answer to a request that does not disconnect closes nothing
  have unclosing : ∀ {a : Response}, a.command = r.command → Passing (.send (.response a)) := by
    intro a command
    have closes : (Message.response a).closes = false := by simp [Message.closes, command, goesOn]
    exact passing_of rfl rfl closes fun k _ => by simp [Stage.after, closes]
  have dispatched := follows_dispatch (P := ending) (A := Tracks) (r := r)
    (fun h agree => ⟨h.goesOn, fun none => h.joined (agree.forwarding ▸ none)⟩)
    (fun _ h => ⟨h.goesOn, h.joined⟩) (fun h => passing h.goesOn (passing_onHost _ trivial))
    (fun _ h => passing h.goesOn (C.advance _)) fun begins => follows_dispatch_attends begins goesOn
  have kept : ∀ {t : Session} {k a r}, t.Tracks k → Passing a → t.Tracks (ending.next k a r) :=
    fun h passing => by rwa [(passing _ h.goesOn).2]
  -- before, while and after the request is carried out
  refine follows_handle (fun h => ⟨h.goesOn, h.joined⟩)
    (fun h _ => passing h.goesOn (C.note _)) (fun h _ => passing h.goesOn (C.note _)) dispatched ?_ ?_
  · exact fun h m => ⟨(unclosing rfl _ h.goesOn).1, fun _ => kept h (unclosing rfl)⟩
  · intro t k h body
    refine ⟨(unclosing rfl _ h.goesOn).1, fun _ => ?_⟩
    have responded := kept (r := ()) h (unclosing (a := .success r body) rfl)
    -- the event behind the answer passes as well
    cases eventAfter r with
    | none => exact responded
    | some e =>
      have told : Passing (.send (.event e)) := passing_of rfl rfl rfl fun _ _ => rfl
      exact ⟨(told _ responded.goesOn).1, fun _ => kept responded told⟩

/-- Messages are received until a request to disconnect, with whose answer the session is left. -/
theorem follows_receiveAll_ending (messages : List Json) :
    Follows ending Attends (receiveAll messages) fun goesOn t k =>
      if goesOn then Attends t k else Left t k := by
  -- induction on the messages
  induction messages with
  | nil => exact .pure fun _ _ h => h
  | cons m messages ih =>
    cases read : request? m with
    | none =>
      obtain ⟨level, text, received⟩ := receiveAll_cons_none read
      rw [received]
      exact (steady_attends.calls fun C => C.log _ _).bind fun _ => ih
    | some r =>
      rw [receiveAll_cons_some read]
      by_cases disconnects : r.command = "disconnect"
      · refine (follows_handle_disconnect disconnects).bind fun _ => ?_
        rw [if_pos disconnects]
        exact .pure fun _ _ h => h
      · refine (follows_handle_attends disconnects).bind fun _ => ?_
        rw [if_neg disconnects]
        exact ih

/-- Letting go of the engine, the session is ended in order. -/
theorem follows_leave (closed : Bool) : Follows ending Attends (leave closed) fun _ _ _ => True := by
  have shut : Follows ending Attends shutdown fun _ _ _ => True :=
    follows_shutdown.mono (fun _ _ h => h) fun _ _ _ _ => trivial
  unfold leave
  split
  · exact (steady_attends.calls fun C => C.log _ _).bind fun _ => shut
  · exact shut

/-- When a request to disconnect was answered, nothing is done any more. -/
theorem follows_leave_left : Follows ending Left (leave false) fun _ => Left := by
  rintro ⟨config, engineName, environment, convention, sourceMap, started, forwarding, pending,
    configured, deferred⟩ k h
  obtain rfl : started = false := h.started
  obtain rfl : forwarding = false := h.forwarding
  exact h

/-- Serving a client, the session is ended in order. -/
theorem follows_serve_ending (messages : List Json) (closed : Bool) :
    Follows ending Attends (serve messages closed) fun _ _ _ => True := by
  refine (follows_receiveAll_ending messages).bind fun goesOn => ?_
  cases goesOn with
  | true => exact (follows_leave closed).bind fun _ => .pure fun _ _ _ => trivial
  | false => exact follows_leave_left.bind fun _ => .pure fun _ _ _ => trivial

end Session

/-! ## What is known at a stage -/

variable {σ : Type} [Engine σ]

/-- What others do at a gateway publishes nothing, and one action only drops the subscribers. -/
theorem Gateway.run_atGateway (g : Gateway σ) (a : Action) :
    (g.run a.atGateway).worker.published = g.worker.published ∧
      (a.silences = false → (g.run a.atGateway).silenced = g.silenced) := by
  have act : ∀ b : GatewayAction, b ≠ .advance ∧ b ≠ .silence → (g.act b).worker.published =
      g.worker.published ∧ (a.silences = false → (g.act b).silenced = g.silenced) :=
    fun _ other => ⟨(g.act_kept other.1).2, fun _ => g.silenced_act other.2⟩
  cases a with
  | submit c => exact act (.submit c) (by simp)
  | interrupt => exact act .interrupt (by simp)
  | markDisposed => exact act .markDisposed (by simp)
  | closeQueue => exact act .closeQueue (by simp)
  | cancel => exact act .cancel (by simp)
  | silence => exact ⟨rfl, fun on => absurd on.symm Bool.false_ne_true⟩
  | _ => exact ⟨rfl, fun _ => rfl⟩

omit [Engine σ] in
/-- A careful program silences a gateway only once it has ended. -/
theorem Program.Careful.of_silences {isOver closed ended : Prop} {a : Action}
    {next : a.Result → Program Unit} (h : (Program.act a next).Careful isOver closed ended)
    (silences : a.silences = true) : ended := by
  cases a with
  | silence => exact h.1
  | _ => exact absurd silences Bool.false_ne_true

namespace Gateway

/-- What is known of a gateway at a stage, and of what its forwarder is left to do. -/
structure Staged (k : Stage) (isOver : Prop) (forwarder : Program Unit) (g : Gateway σ) : Prop where
  careful : forwarder.Careful isOver (g.accepting = false) (g.phase = .finished)
  finished_of_silenced : g.silenced = true → g.phase = .finished
  finished : k ≠ .begun → g.phase = .finished

variable {k : Stage} {isOver isOver' : Prop} {forwarder : Program Unit} {g g' : Gateway σ}

omit [Engine σ] in
/-- What is known of a gateway at a stage is known later. -/
theorem Staged.later (h : g.Staged k isOver forwarder) (later : g.Later g') (lasts : isOver → isOver')
    (silenced : g'.silenced = true → g'.phase = .finished) : g'.Staged k isOver' forwarder where
  careful := h.careful.mono lasts later.closed later.finished
  finished_of_silenced := silenced
  finished := fun on => later.finished (h.finished on)

end Gateway

namespace System

/-- What is known of a system at a stage. -/
structure Staged (k : Stage) (s : System σ) : Prop where
  idle : s.gateway = none → s.forwarder = .done ()
  gateway : ∀ {g}, s.gateway = some g → g.Staged k (s.state = .terminated) s.forwarder
  unclosing : s.forwarder.All (·.closes = false) fun _ => True
  joined : k = .joined ∨ k = .closed → s.forwarder = .done () ∧ s.nextEvent? = none
  unclosed : k ≠ .closed → ∀ m ∈ s.outbox.messages, m.closes = false
  last : s.outbox.messages.Pairwise fun m _ => m.closes = false

variable {k : Stage} {s s' : System σ} {a : Action} {r : a.Result}

/-! ### Actions of the session thread -/

omit [Engine σ] in
/-- What is forwarded next does not change as long as nothing is published. -/
private theorem nextEvent?_congr {f : Gateway σ → Gateway σ} (gateway : s'.gateway = s.gateway.map f)
    (forwarded : s'.forwarded = s.forwarded)
    (kept : ∀ {g}, s.gateway = some g → (f g).worker.published = g.worker.published) :
    s'.nextEvent? = s.nextEvent? := by
  rw [nextEvent?, nextEvent?, gateway, forwarded]
  cases hg : s.gateway with
  | none => rfl
  | some g => simp only [Option.map_some, Option.bind_some, kept hg]

/-- Before the last stage, a message may be written. -/
private theorem Staged.last_perform (h : s.Staged k) (goesOn : k ≠ .closed)
    (e : s.perform a = some (r, s')) : s'.outbox.messages.Pairwise fun m _ => m.closes = false := by
  rw [perform_messages e, List.pairwise_append]
  exact ⟨h.last, a.pairwise_writes _ _, fun m hm _ _ => h.unclosed goesOn m hm⟩

/-- An action that does not close leaves the connection open. -/
private theorem Staged.unclosed_perform (h : s.Staged k) (goesOn : k ≠ .closed)
    (e : s.perform a = some (r, s')) (quiet : a.closes = false) :
    ∀ m ∈ s'.outbox.messages, m.closes = false := by
  intro m hm
  rw [perform_messages e] at hm
  rcases List.mem_append.1 hm with hm | hm
  · exact h.unclosed goesOn m hm
  · rcases a.of_mem_writes hm with rfl | ⟨r, -, rfl⟩
    · exact quiet
    · rfl

/-- An action that does not change the stage. -/
private theorem Staged.quiet (h : s.Staged k) (e : s.perform a = some (r, s')) (on : ¬a.Opens)
    (lasts : a.stateAfter .terminated = .terminated) (silence : a.silences = true → k ≠ .begun)
    (goesOn : k ≠ .closed) (quiet : a.closes = false) : s'.Staged k := by
  obtain ⟨gateway, forwarder, forwarded⟩ := perform_frame e on
  have isOver : s.state = .terminated → s'.state = .terminated := by
    intro state
    rw [(perform_shown e).1, state, lasts]
  exact
  { idle := by
      intro none
      rw [gateway, Option.map_eq_none_iff] at none
      rw [forwarder, h.idle none]
    gateway := by
      intro g' hg'
      rw [gateway, Option.map_eq_some_iff] at hg'
      obtain ⟨g, hg, rfl⟩ := hg'
      have known := h.gateway hg
      rw [forwarder]
      -- a gateway is silenced by the action only if the engine thread has finished
      refine known.later (g.later_run _) isOver fun silenced => (g.later_run _).finished ?_
      cases last : a.silences with
      | true => exact known.finished (silence last)
      | false => exact known.finished_of_silenced ((g.run_atGateway a).2 last ▸ silenced)
    unclosing := forwarder ▸ h.unclosing
    -- behind the last event there is still none
    joined := by
      intro hk
      obtain ⟨done, none⟩ := h.joined hk
      rw [forwarder, nextEvent?_congr gateway forwarded fun {g} _ => (g.run_atGateway a).1]
      exact ⟨done, none⟩
    unclosed := fun _ => h.unclosed_perform goesOn e quiet
    last := h.last_perform goesOn e }

omit [Engine σ] in
/-- The engine thread has ended. -/
private theorem Staged.ended (h : s.Staged k) (finished : ∀ {g}, s.gateway = some g → g.phase = .finished) :
    s.Staged (if k = .begun then .ended else k) := by
  split
  · next begun =>
    exact
    { h with
      gateway := fun hg => { h.gateway hg with finished := fun _ => finished hg }
      joined := fun last => absurd last (by decide)
      unclosed := fun _ => h.unclosed (by rw [begun]; decide) }
  · exact h

omit [Engine σ] in
/-- The forwarder has ended. -/
private theorem Staged.join (h : s.Staged k) (goesOn : k ≠ .closed) (ended : s.forwarderEnded = true) :
    s.Staged .joined := by
  obtain ⟨done, none, silenced⟩ := of_forwarderEnded ended
  exact
  { h with
    gateway := fun hg =>
      { h.gateway hg with finished := fun _ => (h.gateway hg).finished_of_silenced (silenced hg) }
    joined := fun _ => ⟨done, none⟩
    unclosed := fun _ => h.unclosed goesOn }

omit [Engine σ] in
/-- A request to disconnect is answered. -/
private theorem Staged.close (h : s.Staged .joined) (m : Message) : (s.send m).Staged .closed where
  idle := h.idle
  gateway := fun hg => { h.gateway hg with finished := fun _ => (h.gateway hg).finished (by decide) }
  unclosing := h.unclosing
  joined := fun _ => h.joined (.inl rfl)
  unclosed := fun on => absurd rfl on
  last := by
    rw [System.send, Outbox.messages_send, List.pairwise_append]
    exact ⟨h.last, List.pairwise_singleton _ m, fun m hm _ _ => h.unclosed (by decide) m hm⟩

/-- An engine and a gateway on it are made. -/
private theorem Staged.openGateway (h : s.Staged k) (goesOn : k ≠ .closed) {engineOptions : EngineOptions}
    {options : GatewayOptions} {r : Except GatewayError Unit}
    (e : s.perform (.openGateway engineOptions options) = some (r, s')) :
    s'.Staged (k.after (.openGateway engineOptions options) r) := by
  simp only [System.perform, System.openGateway, Option.some.injEq] at e
  -- the engine is made, or not
  split at e
  · next failure native _ =>
    cases e
    -- the engine could not be made, and a gateway that there was is left as it was
    have next : (s.onGateway (Gateway.setEngine native)).nextEvent? = s.nextEvent? :=
      nextEvent?_congr rfl rfl fun _ => rfl
    exact
    { idle := fun none => h.idle (Option.map_eq_none_iff.1 none)
      gateway := by
        intro g' hg'
        obtain ⟨g, hg, rfl⟩ := Option.map_eq_some_iff.1 hg'
        exact (h.gateway hg).later ⟨id, id, List.prefix_rfl, List.prefix_rfl, id⟩ id
          (h.gateway hg).finished_of_silenced
      unclosing := h.unclosing
      joined := fun hk => ⟨(h.joined hk).1, next.trans (h.joined hk).2⟩
      unclosed := h.unclosed
      last := h.last }
  · next g native created =>
    cases e
    -- the new gateway is neither silenced nor joined
    obtain ⟨engine, rfl⟩ := Gateway.create_ok created
    exact
    { idle := fun none => absurd none (Option.some_ne_none _)
      gateway := by
        intro g hg
        obtain rfl := Option.some.inj hg
        exact ⟨trivial, fun silenced => absurd silenced Bool.false_ne_true, fun begun => absurd rfl begun⟩
      unclosing := trivial
      joined := fun last =>
        absurd (show Stage.begun = .joined ∨ Stage.begun = .closed from last) (by decide)
      unclosed := fun _ => h.unclosed goesOn
      last := h.last }

/-- What the protocol allows leads to the stage it says. -/
theorem Staged.perform (h : s.Staged k) (e : s.perform a = some (r, s'))
    (allowed : Session.ending.allows k a) : s'.Staged (k.after a r) := by
  obtain ⟨goesOn, lasts, silence, closes⟩ := allowed
  -- four actions lead to another stage, and all the others pass
  cases a with
  | openGateway engineOptions options => exact h.openGateway goesOn e
  | awaitEnd =>
    obtain ⟨rfl, finished⟩ := perform_awaitEnd e
    exact h.ended finished
  | joinForwarder =>
    obtain ⟨rfl, ended⟩ := perform_joinForwarder e
    exact h.join goesOn ended
  | send m =>
    cases hm : m.closes with
    -- the last response closes the session
    | true =>
      obtain rfl := closes hm
      cases e
      simp only [Stage.after, hm, if_true]
      exact h.close m
    | false =>
      have same : k.after (.send m) r = k := by simp [Stage.after, hm]
      rw [same]
      exact h.quiet e id lasts silence goesOn hm
  | _ => exact h.quiet e id lasts silence goesOn rfl

/-! ### The other threads -/

omit [Engine σ] in
/-- The forwarder has something to do before the last stages only. -/
private theorem Staged.before (h : s.Staged k) (busy : s.forwarder ≠ .done () ∨ s.nextEvent? ≠ none) :
    k ≠ .joined ∧ k ≠ .closed := by
  refine not_or.1 fun last => ?_
  obtain ⟨done, none⟩ := h.joined last
  exact busy.elim (absurd done) (absurd none)

/-- An action of the forwarder. -/
private theorem Staged.performed (h : s.Staged k) {next : a.Result → Program Unit}
    (hf : s.forwarder = .act a next) (e : s.perform a = some (r, s')) :
    { s' with forwarder := next r }.Staged k := by
  obtain ⟨unjoined, goesOn⟩ := h.before (.inl (by simp [hf]))
  -- a forwarder that is at work has a gateway, and does not make one
  obtain ⟨g, hg⟩ : ∃ g, s.gateway = some g := by
    cases hg : s.gateway with
    | some g => exact ⟨g, rfl⟩
    | none => exact absurd (h.idle hg) (by simp [hf])
  have known := h.gateway hg
  have careful := known.careful
  have unclosing := h.unclosing
  rw [hf] at careful unclosing
  have gateway := (perform_frame e careful.not_opens).1
  rw [hg] at gateway
  -- the gateway is later in its run, and what was known of it lasts
  have later := g.later_run a.atGateway
  have staged : (g.run a.atGateway).Staged k (s'.state = .terminated) (next r) :=
    { careful := careful.after hg e
      finished_of_silenced := by
        intro silenced
        refine later.finished ?_
        cases last : a.silences with
        | true => exact careful.of_silences last
        | false => exact known.finished_of_silenced ((g.run_atGateway a).2 last ▸ silenced)
      finished := fun on => later.finished (known.finished on) }
  have unclosed := h.unclosed_perform goesOn e unclosing.1
  have last := h.last_perform goesOn e
  exact
  { idle := fun none => absurd (gateway.symm.trans none) (Option.some_ne_none _)
    gateway := fun hg' => Option.some.inj (gateway.symm.trans hg') ▸ staged
    unclosing := unclosing.2 r
    joined := fun last => absurd last (not_or.2 ⟨unjoined, goesOn⟩)
    unclosed := fun _ => unclosed
    last }

omit [Engine σ] in
/-- An event is taken by the forwarder. -/
private theorem Staged.take (h : s.Staged k) {event : GatewayEvent} (next : s.nextEvent? = some event) :
    { s with forwarded := s.forwarded + 1, forwarder := Session.forward event }.Staged k := by
  -- as there is an event to forward, the forwarder was not joined
  obtain ⟨unjoined, goesOn⟩ := h.before (.inr (by simp [next]))
  exact
  { idle := by
      intro off
      rw [nextEvent?, show s.gateway = none from off] at next
      exact absurd next.symm (Option.some_ne_none _)
    gateway := fun hg =>
      { h.gateway hg with
        careful := (Session.careful_forward event).mono False.elim False.elim False.elim }
    unclosing := by
      refine Session.all_forward (P := (·.closes = false)) rfl rfl (fun _ _ _ => rfl) (fun a disposes => ?_) event
      cases a <;> first | rfl | exact False.elim disposes
    joined := fun last => absurd last (not_or.2 ⟨unjoined, goesOn⟩)
    unclosed := h.unclosed
    last := h.last }

/-- The other threads leave the stage as it is. -/
theorem stable_staged (k : Stage) : Stable (Staged (σ := σ) k) where
  forwarder := by
    intro s h
    -- the forwarder acts, takes an event, or waits
    rcases s.stepForwarder_cases with ⟨a, next, r, s', hf, e, step⟩ | ⟨event, -, next, step⟩ | step
    · rw [step]
      exact h.performed hf e
    · rw [step]
      exact h.take next
    · rwa [step]
  engine := by
    intro s h
    -- once the forwarder was joined, the engine thread has finished, and a step of it changes nothing
    have unpublished : k = .joined ∨ k = .closed → ∀ {g}, s.gateway = some g → g.advance = g := by
      intro last g hg
      refine Gateway.advance_of_finished ((h.gateway hg).finished ?_)
      rintro rfl
      exact absurd last (by decide)
    exact
    { idle := fun none => h.idle (Option.map_eq_none_iff.1 none)
      gateway := by
        intro g' hg'
        obtain ⟨g, hg, rfl⟩ := Option.map_eq_some_iff.1 hg'
        refine (h.gateway hg).later g.later_advance id fun silenced => ?_
        exact g.later_advance.finished ((h.gateway hg).finished_of_silenced (g.silenced_advance ▸ silenced))
      -- the engine thread does not touch what is written or forwarded
      unclosing := h.unclosing
      joined := by
        intro last
        have same : s.stepEngine.nextEvent? = s.nextEvent? :=
          nextEvent?_congr rfl rfl fun hg => by rw [unpublished last hg]
        exact ⟨(h.joined last).1, same.trans (h.joined last).2⟩
      unclosed := h.unclosed
      last := h.last }

end System

/-! ## Sessions -/

namespace SessionRun

/-- However the threads of a session are scheduled, a session that is over stays so, whatever is requested
and whatever the gateway publishes. Its client is told that it is over at most once, and is told of no
stop after that. After the answer to a request to disconnect nothing is written. -/
theorem run_ends (provider : EngineProvider σ) (host : Host) (console : Option LogFilter)
    (native : σ) (config : AdapterConfig) (engineName : String) (environment : Environment)
    (messages : List Json) (closed : Bool) (schedule : List SessionThread) :
    let new := SessionRun.new provider host console native config engineName environment messages closed
    let s := (new.run schedule).system
    (s.state = .terminated → ∀ later, (new.run (schedule ++ later)).system.state = .terminated) ∧
    s.outbox.told "terminated" ≤ 1 ∧
    s.outbox.messages.Pairwise fun m m' =>
      (m.tells "terminated" = true → m'.tells "stopped" = false) ∧ m.closes = false := by
  intro new s
  have use : Session.RequestUse (Action.Lasting endNames) (Session.Sendable (Action.Lasting endNames)) :=
    Session.requestUse_lasting (by decide) (by decide)
  have lasting := use.serve messages closed { config, engineName, environment } fun _ waiting =>
    absurd waiting List.not_mem_nil
  -- that the session ends once is seen from its messages, and that nothing follows from the stage it is in
  have concluding : new.system.Concluding := ⟨⟨false, rfl, Nat.zero_le _⟩, trivial, fun _ => trivial, .nil⟩
  obtain ⟨⟨concluding, tame⟩, lasting⟩ := concluding_run concluding trivial lasting schedule
  -- that nothing follows the last response is seen from the stages of the ending
  have staged : new.system.Staged .joined :=
    { idle := fun _ => rfl
      gateway := fun hg => absurd hg.symm (Option.some_ne_none _)
      unclosing := trivial
      joined := fun _ => ⟨rfl, rfl⟩
      unclosed := fun _ _ written => absurd written List.not_mem_nil
      last := .nil }
  have follows : new.program.Follows Session.ending (fun _ _ => True) .joined :=
    Session.follows_serve_ending messages closed _ _ ⟨rfl, by decide, fun _ => rfl⟩
  obtain ⟨k, staged, -⟩ := follows_run System.stable_staged (fun allowed => fun h e => h.perform e allowed)
    ⟨staged, follows⟩ schedule
  -- a run goes on where it ended, and there the session is over
  refine ⟨fun isOver later => ?_, concluding.told_le, (concluding.last.and staged.last).imp fun h => ?_⟩
  · rw [run_append]
    exact ended_run ⟨tame, isOver⟩ lasting later
  · exact ⟨fun told => h.1 told "stopped" (by decide), h.2⟩

/-- A client wants to attach to a process, and disconnects. -/
def attachBriefly : List Json :=
  [.object [("seq", .int 1), ("type", .str "request"), ("command", .str "attach"),
      ("arguments", .object [("processId", .int 7)])],
    .object [("seq", .int 2), ("type", .str "request"), ("command", .str "disconnect")]]

/-- The session of that client, with an engine that cannot attach to the process. -/
def refusing : SessionRun Scripted.World (Bool × Session) :=
  .new Scripted.provider { processes := [⟨7, none⟩] } none
    { failures := [("attach_process", .status .fail)] } {} "fake" [] attachBriefly false

/-- All threads make a step, again and again. -/
def turns (n : Nat) : List SessionThread :=
  (List.replicate n [.requests, .engine, .forwarder]).flatten

/-- The client is told of the end before its request is answered, and its request to disconnect is
answered last. -/
theorem run_ends_refusing : (refusing.run (turns 22)).program.isDone = true ∧
    ((refusing.run (turns 22)).system.outbox.messages.map fun m => (m.tells "terminated", m.closes)) =
      [(true, false), (false, false), (false, true)] ∧
    ∀ later, (refusing.run (turns 12 ++ later)).system.state = .terminated := by
  refine ⟨by decide +kernel, by decide +kernel, ?_⟩
  have isOver : (refusing.run (turns 12)).system.state = .terminated := by decide +kernel
  exact (run_ends Scripted.provider { processes := [⟨7, none⟩] } none
    { failures := [("attach_process", .status .fail)] } {} "fake" [] attachBriefly false (turns 12)).1 isOver

end SessionRun

end DebugAdapter
