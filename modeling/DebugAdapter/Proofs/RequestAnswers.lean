import DebugAdapter.Proofs.SessionWire
import DebugAdapter.Scripted.Engine

/-!
# Answers

Every request is answered once, in the order in which the requests came, up to the first one to disconnect;
what comes after that is not looked at. A request to begin the session that was carried out is followed by
an event, and one that failed is not. So of the messages that a session thread writes, the answers are
given by the requests but for what they say, and that is so whatever its actions give, whatever the other
threads do meanwhile, and at any time (`PartlyAnsweredBy`).

## Key results

- `Session.follows_handle_answering`: a request is answered when those before it were
- `SessionRun.run_answers`: what a client reads
-/

namespace DebugAdapter

/-- The event that follows the response to a request that began a session. -/
def Event.initialized : Event :=
  .ofJson "initialized" .null

/-- The message is a response, or the event that follows one. -/
def Message.isAnswer : Message → Bool
  | response _ => true
  | event e => e.name == "initialized"

/-- A response, and the event that follows it. -/
def Response.withEvent (a : Response) : List Message :=
  .response a :: if a.command = "initialize" ∧ a.failure.isNone then [.event .initialized] else []

/-- The messages are one response to each request, in order, with the events that follow them. -/
def AnsweredBy (requests : List Request) (ms : List Message) : Prop :=
  ∃ answers : List Response,
    answers.map (fun a => (a.requestSeq, a.command)) = requests.map (fun r => (r.seq, r.command)) ∧
    ms = answers.flatMap Response.withEvent

/-- The messages answer a first part of the requests; the event that follows the last response may still be
missing. -/
def PartlyAnsweredBy (requests : List Request) (ms : List Message) : Prop :=
  ∃ before, before <+: requests ∧ (AnsweredBy before ms ∨ AnsweredBy before (ms ++ [.event .initialized]))

/-- No requests need no answers. -/
theorem AnsweredBy.nil : AnsweredBy [] [] :=
  ⟨[], rfl, rfl⟩

/-- One more answer answers one more request. -/
theorem AnsweredBy.concat {before : List Request} {ms : List Message} (h : AnsweredBy before ms)
    {r : Request} {a : Response} (seq : a.requestSeq = r.seq) (command : a.command = r.command) :
    AnsweredBy (before ++ [r]) (ms ++ a.withEvent) := by
  obtain ⟨answers, same, rfl⟩ := h
  refine ⟨answers ++ [a], ?_, ?_⟩
  · rw [List.map_append, List.map_append, same, List.map_singleton, List.map_singleton, seq, command]
  · rw [List.flatMap_append, List.flatMap_singleton]

/-- What an action writes of answers. -/
def Action.answers : Action → List Message
  | send m => if m.isAnswer then [m] else []
  | _ => []

namespace Session

/-! ## Requests to be answered -/

/-- The request that a message is. -/
def request? (m : Json) : Option Request :=
  (Request.ofJson? m).filter (·.type = "request")

/-- The requests among messages, up to the first one to disconnect. -/
def requests (messages : List Json) : List Request :=
  let all := messages.filterMap request?
  all.take (all.findIdx (·.command == "disconnect") + 1)

/-- One of the messages is a request to disconnect. -/
def disconnects (messages : List Json) : Bool :=
  (messages.filterMap request?).any (·.command == "disconnect")

/-- A message that is no request is left out. -/
theorem requests_cons_none {m : Json} (none : request? m = none) (rest : List Json) :
    requests (m :: rest) = requests rest ∧ disconnects (m :: rest) = disconnects rest := by
  simp [requests, disconnects, none]

/-- A request counts, and the ones behind it do unless it disconnects. -/
theorem requests_cons_some {m : Json} {r : Request} (some : request? m = some r) (rest : List Json) :
    requests (m :: rest) = r :: (if r.command = "disconnect" then [] else requests rest) ∧
    disconnects (m :: rest) = (r.command == "disconnect" || disconnects rest) := by
  by_cases last : r.command = "disconnect"
  · simp [requests, disconnects, some, List.findIdx_cons, last]
  · have other : (r.command == "disconnect") = false := beq_eq_false_iff_ne.2 last
    simp [requests, disconnects, some, List.findIdx_cons, last, other]

/-- What is no request is noted at most. -/
theorem receiveAll_cons_none {m : Json} (none : request? m = none) :
    ∃ level text, ∀ rest, receiveAll (m :: rest) = (do log level text; receiveAll rest) := by
  have received : ∃ level text, receive m = (do log level text; return true) := by
    unfold receive
    cases read : Request.ofJson? m with
    | none => exact ⟨_, _, rfl⟩
    | some r =>
      have other : r.type ≠ "request" := by simpa [request?, read] using none
      exact ⟨_, _, if_pos other⟩
  obtain ⟨level, text, received⟩ := received
  refine ⟨level, text, fun rest => ?_⟩
  rw [receiveAll, received]
  simp only [bind_assoc, pure_bind, if_true]

/-- A request is handled, and the messages behind it are received unless it disconnects. -/
theorem receiveAll_cons_some {m : Json} {r : Request} (some : request? m = some r)
    (rest : List Json) : receiveAll (m :: rest) = (do
      handle r
      if r.command = "disconnect" then return false else receiveAll rest) := by
  obtain ⟨read, type⟩ := Option.filter_eq_some_iff.1 some
  have received : receive m = (do handle r; return r.command ≠ "disconnect") := by
    unfold receive
    rw [read]
    exact if_neg fun other => other (of_decide_eq_true type)
  rw [receiveAll, received]
  by_cases last : r.command = "disconnect" <;> simp [last]

/-- What comes after a request to disconnect is not looked at. -/
theorem receiveAll_append {messages : List Json} (ends : disconnects messages = true)
    (later : List Json) : receiveAll (messages ++ later) = receiveAll messages := by
  -- induction on the messages up to the request to disconnect
  induction messages with
  | nil => exact nomatch ends
  | cons m rest ih =>
    rw [List.cons_append]
    cases read : request? m with
    | none =>
      obtain ⟨level, text, received⟩ := receiveAll_cons_none read
      rw [received, received, ih ((requests_cons_none read rest).2 ▸ ends)]
    | some r =>
      rw [receiveAll_cons_some read, receiveAll_cons_some read]
      by_cases last : r.command = "disconnect"
      · simp only [if_pos last]
      · rw [(requests_cons_some read rest).2, beq_eq_false_iff_ne.2 last, Bool.false_or] at ends
        rw [if_neg last, if_neg last, ih ends]

/-! ## Answering one request after the other -/

/-- Requests are answered in order. What is known are the answers so far. -/
def answering (all : List Request) : Protocol (List Message) where
  allows ms a := PartlyAnsweredBy all (ms ++ a.answers)
  next ms a _ := ms ++ a.answers

variable {all before : List Request} {ms : List Message}

/-- What answers nothing is allowed at any time. -/
theorem quiet_answering (h : PartlyAnsweredBy all ms) {a : Action} (none : a.answers = []) :
    (answering all).Quiet ms a := by
  have same : ms ++ a.answers = ms := by rw [none, List.append_nil]
  exact ⟨show PartlyAnsweredBy all (ms ++ a.answers) from same.symm ▸ h, fun _ => same⟩

/-- No request is answered before it was carried out. -/
theorem startUse_unanswering {B : Prop} : StartUse (·.answers = []) fun t => t.deferred = [] ∧ B where
  read := rfl
  advance := fun _ => rfl
  continued := fun _ => rfl
  note := fun _ => rfl
  calls := by
    intro a h
    cases a <;> first | rfl | exact False.elim h
  keeps := fun h agree => ⟨agree.deferred.trans h.1, h.2⟩
  host := by
    intro a h
    cases a <;> first | rfl | exact False.elim h
  opens := by
    intro a h
    cases a <;> first | rfl | exact False.elim h
  disposes := by
    intro a h
    cases a <;> first | rfl | exact False.elim h
  finish := rfl
  starts := fun h same => ⟨same.trans h.1, h.2⟩

/-- A request is answered when those before it were. -/
theorem follows_handle_answering {r : Request} (part : before ++ [r] <+: all) :
    Follows (answering all) (fun t ms => t.deferred = [] ∧ AnsweredBy before ms) (handle r)
      fun _ t ms => t.deferred = [] ∧ AnsweredBy (before ++ [r]) ms := by
  have earlier : before <+: all := (List.prefix_append _ _).trans part
  -- an action that answers nothing leaves what was answered
  have quiet : ∀ {ms a}, AnsweredBy before ms → a.answers = [] → (answering all).Quiet ms a :=
    fun h none => quiet_answering ⟨before, earlier, .inl h⟩ none
  have dispatched := follows_dispatch (A := fun _ ms => AnsweredBy before ms) (r := r) (fun h _ => h)
    (fun _ h => h) (fun h => quiet h rfl) (fun _ h => quiet h rfl)
    fun begins => .of_uses (fun _ => startUse_unanswering.dispatch begins) fun h => quiet h.2
  -- an error is one answer, and a success may have an event behind it
  refine follows_handle id (fun h _ => quiet h rfl) (fun h _ => quiet h rfl) dispatched ?_ ?_
  · intro t ms h m
    have answered : AnsweredBy (before ++ [r]) (ms ++ (Response.error r m).withEvent) := h.concat rfl rfl
    have alone : (Response.error r m).withEvent = [.response (.error r m)] := by
      simp [Response.withEvent, Response.error]
    rw [alone] at answered
    exact ⟨⟨_, part, .inl answered⟩, fun _ => answered⟩
  · intro t ms h body
    have answered : AnsweredBy (before ++ [r]) (ms ++ (Response.success r body).withEvent) :=
      h.concat rfl rfl
    by_cases begins : r.command = "initialize"
    · -- the answer to the first request is followed by an event, and so it is not the last message
      have followed : (Response.success r body).withEvent =
          [.response (.success r body), .event .initialized] := by
        simp [Response.withEvent, Response.success, begins]
      rw [followed, List.append_cons ms] at answered
      refine ⟨⟨_, part, .inr answered⟩, fun _ => ?_⟩
      rw [eventAfter, if_pos begins]
      exact ⟨⟨_, part, .inl answered⟩, fun _ => answered⟩
    · have alone : (Response.success r body).withEvent = [.response (.success r body)] := by
        simp [Response.withEvent, Response.success, begins]
      rw [alone] at answered
      refine ⟨⟨_, part, .inl answered⟩, fun _ => ?_⟩
      rw [eventAfter, if_neg begins]
      exact answered

/-- All requests are answered, up to one to disconnect. -/
theorem follows_receiveAll (messages : List Json) (rest : all = before ++ requests messages) :
    Follows (answering all) (fun t ms => t.deferred = [] ∧ AnsweredBy before ms) (receiveAll messages)
      fun goesOn t ms => (t.deferred = [] ∧ AnsweredBy all ms) ∧ goesOn = !disconnects messages := by
  -- along the messages; `before` are the requests that have been answered so far
  induction messages generalizing before with
  | nil =>
    obtain rfl : all = before := rest.trans (List.append_nil _)
    exact .pure fun _ _ h => ⟨h, rfl⟩
  | cons m messages ih =>
    cases read : request? m with
    -- what is no request is not answered
    | none =>
      obtain ⟨level, text, received⟩ := receiveAll_cons_none read
      obtain ⟨same, goesOn⟩ := requests_cons_none read messages
      rw [same] at rest
      rw [received, goesOn]
      have part : before <+: all := ⟨_, rest.symm⟩
      refine Follows.bind (.quiet fun t ms h => ?_) fun _ => ih rest
      exact quiet_answering ⟨before, part, .inl h.2⟩ rfl
    | some r =>
      obtain ⟨same, goesOn⟩ := requests_cons_some read messages
      rw [same, List.append_cons] at rest
      rw [receiveAll_cons_some read, goesOn]
      refine (follows_handle_answering ⟨_, rest.symm⟩).bind fun _ => ?_
      -- after a request to disconnect nothing more is received, so `before` and this one are all there are
      by_cases last : r.command = "disconnect"
      · rw [if_pos last, List.append_nil] at rest
        rw [if_pos last, last, ← rest]
        exact .pure fun _ _ h => ⟨h, rfl⟩
      · rw [if_neg last] at rest
        rw [if_neg last, beq_eq_false_iff_ne.2 last, Bool.false_or]
        exact ih rest

/-- Serving a client, all requests are answered. -/
theorem follows_serve (messages : List Json) (closed : Bool) :
    Follows (answering (requests messages)) (fun t ms => t.deferred = [] ∧ AnsweredBy [] ms)
      (serve messages closed)
      fun goesOn _ ms => AnsweredBy (requests messages) ms ∧ goesOn = !disconnects messages := by
  refine (follows_receiveAll messages (List.nil_append _).symm).bind fun goesOn => ?_
  let Done := fun (t : Session) ms =>
    t.deferred = [] ∧ AnsweredBy (requests messages) ms ∧ goesOn = !disconnects messages
  have leave : Follows (answering (requests messages)) Done (leave (goesOn && closed)) fun _ => Done :=
    .of_uses (fun _ => startUse_unanswering.leave _) fun h =>
      quiet_answering ⟨_, List.prefix_rfl, .inl h.2.1⟩
  exact (leave.bind fun _ => .pure fun _ _ h => h.2).mono (fun _ _ h => ⟨h.1.1, h.1.2, h.2⟩)
    fun _ _ _ h => h

end Session

/-! ## Sessions -/

namespace System

variable {σ : Type} [Engine σ]

/-- What was written of answers are the answers so far. -/
structure Answering (all : List Request) (ms : List Message) (s : System σ) : Prop where
  allowed : PartlyAnsweredBy all ms
  written : s.outbox.messages.filter Message.isAnswer = ms
  forwarder : s.forwarder.All (·.answers = []) fun _ => True

/-- Of what an action writes, its answer is what it writes of answers. -/
theorem filter_writes (a : Action) (console : Option LogFilter) :
    (a.writes console).filter Message.isAnswer = a.answers := by
  cases a with
  | send m => cases h : m.isAnswer <;> simp [Action.writes, Action.answers, h]
  | note r =>
    have shown : (Message.event r.toEvent).isAnswer = false := rfl
    simp only [Action.writes, Action.answers]
    split <;> simp [shown]
  | _ => rfl

variable {all : List Request} {ms : List Message} {s s' : System σ}

/-- What the protocol allows is written as it says. -/
theorem Answering.perform (h : s.Answering all ms) {a : Action} {r : a.Result}
    (e : s.perform a = some (r, s')) (allowed : (Session.answering all).allows ms a) :
    s'.Answering all ((Session.answering all).next ms a r) where
  allowed := allowed
  written := by
    rw [perform_messages e, List.filter_append, h.written, filter_writes]
    rfl
  forwarder := by
    rcases perform_forwarder e with same | anew
    · exact same ▸ h.forwarder
    · rw [anew]
      trivial

/-- The forwarder answers nothing. -/
theorem stable_answering (all : List Request) (ms : List Message) :
    Stable (Answering (σ := σ) all ms) where
  forwarder := by
    intro s h
    -- the forwarder writes events, and none of them answers a request
    rcases s.stepForwarder_cases with ⟨a, next, r, s', hf, e, step⟩ | ⟨event, hf, -, step⟩ | step
    · have rest := h.forwarder
      rw [hf] at rest
      rw [step]
      refine ⟨h.allowed, ?_, rest.2 r⟩
      rw [perform_messages e, List.filter_append, h.written, filter_writes, rest.1, List.append_nil]
    · rw [step]
      have unanswering := Session.all_forward (P := (·.answers = [])) rfl rfl (fun name hn body => ?_) ?_ event
      · exact ⟨h.allowed, h.written, unanswering⟩
      · have other : name ≠ "initialized" := by
          rintro rfl
          revert hn
          decide
        exact if_neg (by simpa [Message.isAnswer, Event.ofJson] using other)
      · intro a disposes
        cases a <;> first | rfl | exact False.elim disposes
    · rwa [step]
  engine := fun h => ⟨h.allowed, h.written, h.forwarder⟩

end System

namespace SessionRun

variable {σ : Type} [Engine σ]

/-- Whatever the actions of a session thread give, it answers all requests up to the first one to
disconnect, and it goes on after its last message if there is none. While the threads of a session make
steps in any order, the messages are on the wire under the numbers from one on; those that are answers
answer some of the requests, and all of them when the session thread is done. Messages that come after a
request to disconnect are not looked at. -/
theorem run_answers (provider : EngineProvider σ) (host : Host) (console : Option LogFilter)
    (native : σ) (config : AdapterConfig) (engineName : String) (environment : Environment)
    (messages : List Json) (closed : Bool) :
    let new := SessionRun.new provider host console native config engineName environment messages closed
    (∀ give, AnsweredBy (Session.requests messages) ((new.program.play give []).1.flatMap Action.answers) ∧
      (new.program.play give []).2.1 = !Session.disconnects messages) ∧
    (∀ schedule, let r := new.run schedule
      let answers := r.system.outbox.messages.filter Message.isAnswer
      r.system.outbox.Numbered ∧ PartlyAnsweredBy (Session.requests messages) answers ∧
      ∀ goesOn t, r.program = .done (goesOn, t) →
        AnsweredBy (Session.requests messages) answers ∧ goesOn = !Session.disconnects messages) ∧
    (Session.disconnects messages = true → ∀ later,
      Session.serve (messages ++ later) closed = Session.serve messages closed) := by
  intro new
  let all := Session.requests messages
  have none : PartlyAnsweredBy all [] := ⟨[], List.nil_prefix, .inl .nil⟩
  -- what the session thread does, whatever its actions give, serves all the statements
  have follows : new.program.Follows (Session.answering all)
      (fun r ms => AnsweredBy all ms ∧ r.1 = !Session.disconnects messages) [] :=
    Session.follows_serve messages closed _ _ ⟨rfl, .nil⟩
  refine ⟨fun give => ?_, fun schedule => ⟨?_, ?_⟩, fun ends later => ?_⟩
  · obtain ⟨ms, rfl, answered⟩ := follows.play (R := fun ms past => past.flatMap Action.answers = ms)
      (fun _ h r => by rw [List.flatMap_append, h, List.flatMap_singleton]; rfl) [] rfl give
    exact answered
  · exact wire_run (r := new) rfl schedule
  · -- and what other threads write is no answer
    obtain ⟨ms, answering, rest⟩ := follows_run (r := new) (System.stable_answering all)
      (fun allowed => fun h e => h.perform e allowed) ⟨⟨none, rfl, trivial⟩, follows⟩ schedule
    rw [answering.written]
    refine ⟨answering.allowed, fun goesOn t done => ?_⟩
    rw [done] at rest
    exact rest
  · rw [Session.serve, Session.receiveAll_append ends]
    rfl

/-- A client begins a session, sends what is no request, and ends the session; what it sends then is not
looked at. -/
def briefly : List Json :=
  [.object [("seq", .int 1), ("type", .str "request"), ("command", .str "initialize")], .null,
    .object [("seq", .int 2), ("type", .str "event"), ("command", .str "threads")],
    .object [("seq", .int 3), ("type", .str "request"), ("command", .str "disconnect")],
    .object [("seq", .int 4), ("type", .str "request"), ("command", .str "threads")]]

/-- The session of that client, when its thread has made steps. -/
def brief (steps : Nat) : SessionRun Scripted.World (Bool × Session) :=
  (SessionRun.new Scripted.provider {} none {} {} "fake" [] briefly false).run
    (List.replicate steps .requests)

/-- Two of the five messages are answered. -/
theorem run_answers_brief : (brief 20).program.isDone = true ∧
    (Session.requests briefly).map (fun r => (r.seq, r.command)) = [(1, "initialize"), (3, "disconnect")] ∧
    AnsweredBy (Session.requests briefly) ((brief 20).system.outbox.messages.filter Message.isAnswer) := by
  have isDone : (brief 20).program.isDone = true := by decide +kernel
  have requests : (Session.requests briefly).map (fun r => (r.seq, r.command)) =
      [(1, "initialize"), (3, "disconnect")] := by decide +kernel
  obtain ⟨⟨goesOn, t⟩, done⟩ : ∃ result, (brief 20).program = .done result := by
    generalize (brief 20).program = p at isDone
    cases p with
    | done result => exact ⟨result, rfl⟩
    | act a next => exact nomatch isDone
  have answers := (run_answers Scripted.provider {} none {} {} "fake" [] briefly false).2.1
    (List.replicate 20 .requests)
  exact ⟨isDone, requests, (answers.2.2 goesOn t done).1⟩

end SessionRun

end DebugAdapter
