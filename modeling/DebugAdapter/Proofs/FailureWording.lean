import DebugAdapter.Proofs.MessageTexts
import DebugAdapter.Proofs.RequestAnswers

/-!
# How failures are worded

Whatever goes wrong with a request, the client is told in a response. Its text is made of fixed words, of
texts of the request, and of what the engine and the machine told meanwhile (`Wording`); these come in as they
are. To see it, each piece of work on a request is followed to its failures (`Session.Explains`), and what
was told on the way is kept in mind until the response is written (`wording`).

With the parts that a template has (`Text.Cut`) this is all that is to be said of expansions.

## Key results

- `Session.Explains.command`, `Session.Explains.finishStart`: what is told becomes what is worded
- `Session.Explains.dispatch`: the failure of every request can be worded
- `Session.follows_serve_worded`: the responses of a session
- `expand_once`: expansions are made in one pass, and the failures that a client is told show texts as they are
-/

namespace DebugAdapter

/-! ## What failures are told and how they are worded -/

/-- The text in which a reply reports a failure. -/
def Reply.failure? : Reply → Option String
  | .launched (.error e) => some e.message
  | .executed (.error e) => some e.message
  | .variableSet (.error e) | .evaluated (.error e) => some e.message
  | _ => none

/-- The texts of failures that an action gives. -/
def Action.failures : (a : Action) → a.Result → List String
  | openGateway .., .error e => [e.message]
  | await _, some reply => reply.failure?.toList
  | _, _ => []

/-- The action answers a request. -/
def Action.responds : Action → Bool
  | send (.response _) => true
  | _ => false

/-- Why a request failed for which there is no message of its own: what was told, or what is wrong with an
argument. -/
inductive Reason (r : Request) (told : List String) : String → Prop
  | told {text : String} : text ∈ told → Reason r told text
  | badThread {thread : Int} : r.int? "threadId" = some thread →
      Reason r told ("invalid thread id " ++ toString thread)
  | notFound {name : String} : r.text? "name" = some name →
      Reason r told ("variable `" ++ name ++ "` not found")

/-- The arguments that a request may lack. -/
def argumentNames : List String :=
  ["expression", "frameId", "name", "processId", "source.path", "target", "threadId", "value",
    "variablesReference"]

/-- How the failure of a request is worded, with the texts of the request and those that were told as they
are. -/
inductive Wording (engineName : String) (r : Request) (told : List String) : String → Prop
  | missing {argument : String} : argument ∈ argumentNames →
      Wording engineName r told ("Missing argument '" ++ argument ++ "'.")
  | noDebuggee : Wording engineName r told "No debuggee is running."
  | alreadyStarted : Wording engineName r told "Debuggee is already started."
  | noSource : Wording engineName r told "Source not supported"
  | unrecognized : Wording engineName r told ("unrecognized request: " ++ r.command)
  | badPathFormat {format : String} : r.text? "pathFormat" = some format →
      Wording engineName r told ("initialize: bad value '" ++ format ++ "' for pathFormat")
  | noEngine : Wording engineName r told
      ("Engine '" ++ engineName ++ "' is not supported on '" ++ "linux" ++ "' platform.")
  | noTarget {target : String} : (r.text? "target" <|> r.text? "program") = some target →
      Wording engineName r told ("Could not launch '" ++ target ++ "' as it does not exist.")
  | noProcess {pid : Int} : r.int? "processId" = some pid → Wording engineName r told
      ("Could not attach to process " ++ toString pid ++ ": " ++ "process with pid " ++
        toString ((word32? pid).getD 0).toNat ++ " not found")
  | notStarted {text : String} : text ∈ told → Wording engineName r told text
  | noAnswer : Wording engineName r told "engine thread did not respond"
  | failed {reason : String} : Reason r told reason → Wording engineName r told
      ("error while processing request '" ++ r.command ++ "' (exception: " ++ reason ++ ")")

/-- Responses to requests are worded like that if they report a failure. What is known are the failures that
were told since the last response. -/
def wording (engineName : String) (requests : Request → Prop) : Protocol (List String) where
  allows told a := ∀ response text, a = .send (.response response) → response.failure = some text →
    ∃ r, requests r ∧ response.requestSeq = r.seq ∧ response.command = r.command ∧
      Wording engineName r told text
  next told a result := if a.responds then [] else told ++ a.failures result

/-- The action tells no failure and answers no request. -/
def Action.Mute (a : Action) : Prop :=
  a.responds = false ∧ ∀ result, a.failures result = []

/-- What is asked of the host tells of no failure that is worded. -/
theorem Action.mute_of_onHost {a : Action} (h : a.OnHost) : a.Mute := by
  cases a <;> first | exact h.elim | exact ⟨rfl, fun _ => rfl⟩

/-- A disposal tells of no failure. -/
theorem Action.mute_of_disposes {a : Action} (h : a.Disposes) : a.Mute := by
  cases a <;> first | exact h.elim | exact ⟨rfl, fun _ => rfl⟩

/-- What is mute is allowed at any time, and adds nothing to what was told. -/
theorem Action.Mute.quiet {a : Action} (h : a.Mute) {engineName : String} {requests : Request → Prop}
    (told : List String) : (wording engineName requests).Quiet told a := by
  refine ⟨?_, fun result => ?_⟩
  · rintro response text rfl
    cases h.1
  · show (if a.responds then [] else told ++ a.failures result) = told
    simp [h.1, h.2 result]

namespace Session

/-! ## Work on a request -/

/-- The failure of a request is worded, or there is a reason to word. -/
def WordedFailure (engineName : String) (r : Request) (told : List String) : RequestFailure → Prop
  | .reported m => Wording engineName r told m.text
  | .other text => Reason r told text

/-- What work on a request leads to: a result as `Q` says, or a failure that can be worded. -/
def Outcome {α : Type} (engineName : String) (r : Request) (Q : α → List String → Prop) :
    Except RequestFailure α → List String → Prop
  | .ok a, told => Q a told
  | .error e, told => WordedFailure engineName r told e

variable {α β : Type} {requests : Request → Prop} {engineName : String} {r : Request}
variable {B B' : List String → Prop}

/-- The engine has its name, and `B` is known of the failures that were told. -/
abbrev Knows (engineName : String) (B : List String → Prop) (t : Session) (told : List String) : Prop :=
  t.engineName = engineName ∧ B told

/-- A mute action tells nothing new. -/
theorem follows_mute {a : Action} (mute : a.Mute) :
    Follows (wording engineName requests) (Knows engineName B) (perform a) fun _ => Knows engineName B :=
  .quiet fun _ told _ => mute.quiet told

/-- Mute actions tell nothing new. -/
theorem follows_mutes {p : Program α} {Q : α → Prop} (mutes : p.All Action.Mute Q) :
    Follows (wording engineName requests) (Knows engineName B) (StateT.lift p)
      fun x t told => Q x ∧ Knows engineName B t told := by
  refine .lift fun t told known => ?_
  refine (mutes.follows fun mute => mute.quiet told).mono fun x told' h => ?_
  rw [h.2]
  exact ⟨h.1, known⟩

/-- Work on a request answers none, and if it fails that can be worded by the failures told so far. `B` is
known of them before. -/
def Explains (requests : Request → Prop) (engineName : String) (r : Request) (B : List String → Prop)
    (m : RequestM α) (Q : α → List String → Prop) : Prop :=
  Follows (wording engineName requests) (Knows engineName B) m.run fun result =>
    Knows engineName (Outcome engineName r Q result)

namespace Explains

variable {Q : α → List String → Prop} {R : β → List String → Prop}

/-- A request that returns a value fails with nothing to explain. -/
theorem ok {a : α} (h : ∀ told, B told → Q a told) :
    Explains requests engineName r B (pure a : RequestM α) Q :=
  Follows.pure fun _ told known => ⟨known.1, h told known.2⟩

/-- A failure is explained by its wording. -/
theorem fail {e : RequestFailure} (h : ∀ told, B told → WordedFailure engineName r told e) :
    Explains requests engineName r B (throw e : RequestM α) Q :=
  Follows.pure fun _ told known => ⟨known.1, h told known.2⟩

/-- A failure with a message is explained by the wording of the message. -/
theorem failWith {m : ErrorMessage} (h : ∀ told, B told → Wording engineName r told m.text) :
    Explains requests engineName r B (Session.failWith m : RequestM α) Q :=
  fail h

/-- A missing value is explained by the wording of its message. -/
theorem orFail {m : ErrorMessage} {o : Option α}
    (worded : o = none → ∀ told, Wording engineName r told m.text)
    (h : ∀ a, o = some a → ∀ told, B told → Q a told) :
    Explains requests engineName r B (orFailWith m o) Q := by
  cases o with
  | none => exact failWith fun told _ => worded rfl told
  | some a => exact ok (h a rfl)

/-- Two steps in a row explain what the second explains after the first. -/
theorem bind {m : RequestM α} {f : α → RequestM β} (hm : Explains requests engineName r B m Q)
    (hf : ∀ a, Explains requests engineName r (Q a) (f a) R) :
    Explains requests engineName r B (m >>= f) R :=
  Follows.bindExcept hm hf fun _ _ _ h => h

/-- More may be assumed, and less claimed. -/
theorem mono {Q' : α → List String → Prop} {m : RequestM α} (hm : Explains requests engineName r B m Q)
    (before : ∀ told, B' told → B told) (after : ∀ a told, Q a told → Q' a told) :
    Explains requests engineName r B' m Q' := by
  refine Follows.mono hm (fun t told h => ⟨h.1, before told h.2⟩) fun result t told h => ⟨h.1, ?_⟩
  cases result with
  | ok a => exact after a told h.2
  | error e => exact h.2

/-- What is known apart from the failures. -/
theorem assume {p : Prop} {m : RequestM α} (h : p → Explains requests engineName r B m Q) :
    Explains requests engineName r (fun told => p ∧ B told) m Q :=
  fun t told known => h known.2.1 t told ⟨known.1, known.2.2⟩

/-- The session that is read has the name of its engine. -/
theorem bindGet {f : Session → RequestM β}
    (hf : ∀ s : Session, s.engineName = engineName → Explains requests engineName r B (f s) R) :
    Explains requests engineName r B (getThe Session >>= f) R :=
  fun t told known => hf t known.1 t told known

/-- A change of the session that keeps the name of its engine needs no explanation. -/
theorem bindModify {g : Session → Session} {f : PUnit → RequestM β}
    (keeps : ∀ t, (g t).engineName = t.engineName) (hf : Explains requests engineName r B (f ⟨⟩) R) :
    Explains requests engineName r B (modifyThe Session g >>= f) R :=
  fun t told known => hf (g t) told ⟨(keeps t).trans known.1, known.2⟩

/-- A mute action needs no explanation. -/
theorem bindMute {a : Action} {f : a.Result → RequestM β} (mute : a.Mute)
    (hf : ∀ x, Explains requests engineName r B (f x) R) :
    Explains requests engineName r B (act a >>= f) R :=
  Follows.bindLift (follows_mute mute) hf

/-- A program of mute actions needs no explanation. -/
theorem bindMutes {p : Program α} {Q : α → Prop} {f : α → RequestM β} (mutes : p.All Action.Mute Q)
    (hf : ∀ x, Q x → Explains requests engineName r B (f x) R) :
    Explains requests engineName r B (ExceptT.lift (StateT.lift p) >>= f) R :=
  Follows.bindLift (follows_mutes mutes) fun x t told known => hf x known.1 t told known.2

/-- A record in the log needs no explanation. -/
theorem bindLog {level : LogLevel} {message : String} {f : Unit → RequestM β}
    (hf : Explains requests engineName r B (f ⟨⟩) R) :
    Explains requests engineName r B (ExceptT.lift (log level message) >>= f) R :=
  bindMute (a := .note _) ⟨rfl, fun _ => rfl⟩ fun _ => hf

/-- A loop explains what its steps explain. -/
theorem forIn {γ : Type} {f : γ → β → RequestM (ForInStep β)}
    (hf : ∀ a b, Explains requests engineName r B (f a b) fun _ => B) (l : List γ) (b : β) :
    Explains requests engineName r B (ForIn.forIn l b f) fun _ => B := by
  induction l generalizing b with
  | nil => exact ok fun _ known => known
  | cons a l ih =>
    rw [List.forIn_cons]
    refine (hf a b).bind fun step => ?_
    cases step with
    | done b => exact ok fun _ known => known
    | yield b => exact ih b

end Explains

/-! ## Commands -/

/-- The failure that a reply reports was told, or is that of a command that gets no answer. -/
def Tells (c : Command) (reply : Reply) (told : List String) : Prop :=
  ∀ text, reply.failure? = some text → text ∈ told ∨ c.defaultReply.failure? = some text

/-- If a command that gets no answer does not count as failed, each failure was told. -/
theorem Tells.told {c : Command} {reply : Reply} {told : List String} (known : Tells c reply told)
    (answers : c.defaultReply.failure? = none) {text : String} (failed : reply.failure? = some text) :
    text ∈ told := by
  obtain there | default := known text failed
  · exact there
  · rw [answers] at default
    cases default

/-- A command gives a reply that was told, or the one that stands for a missing reply. -/
theorem follows_command? (c : Command) :
    Follows (wording engineName requests) (Knows engineName B) (command? c) fun reply? =>
      Knows engineName fun told => ∀ reply, reply? = some reply → Tells c reply told := by
  refine (follows_mute ⟨rfl, fun _ => rfl⟩).bind fun ticket => ?_
  cases ticket with
  -- a gateway that is closed gives out no ticket
  | none => exact .pure fun _ _ h => ⟨h.1, nofun⟩
  | some ticket =>
    dsimp only
    split
    case' isTrue => refine (follows_mute ⟨rfl, fun _ => rfl⟩).bind fun _ => ?_
    all_goals
      refine Follows.bind (Q := fun answer => Knows engineName (Tells c (answer.getD c.defaultReply)))
        (.perform fun t told h => ⟨nofun, fun answer => ⟨h.1, ?_⟩⟩) fun answer =>
          .pure fun _ _ h => ⟨h.1, ?_⟩
      · -- an answer is told, and without one the command has a reply of its own
        intro text failed
        cases answer with
        | none => exact .inr failed
        | some reply =>
          left
          show text ∈ told ++ reply.failure?.toList
          have failed : reply.failure? = some text := failed
          simp [failed]
      · -- what was told of the answer is told of the reply
        rintro reply ⟨⟩
        exact h.2

/-- Waiting for the forwarder tells of no failure. -/
theorem follows_joinForwarder : Follows (wording engineName requests) (Knows engineName B) joinForwarder
    fun _ => Knows engineName B := by
  refine Follows.bind (.get (Q := fun _ => Knows engineName B) fun _ _ h => h) fun s => ?_
  split
  · exact Follows.bind (.modify (Q := fun _ => Knows engineName B) fun _ _ h => h) fun _ =>
      follows_mute ⟨rfl, fun _ => rfl⟩
  · exact .pure fun _ _ h => h

/-- To let go of a debuggee is no answer. -/
theorem follows_shutdown_worded : Follows (wording engineName requests) (Knows engineName B) shutdown
    fun _ => Knows engineName fun _ => True := by
  refine Follows.bind (.get (Q := fun _ => Knows engineName B) fun _ _ h => h) fun s => ?_
  -- a debuggee that was started is terminated first
  split
  · refine Follows.bind (.modify (Q := fun _ => Knows engineName B) fun _ _ h => h) fun _ => ?_
    have asked : Follows (wording engineName requests) (Knows engineName B) (command? .terminate)
        fun _ => Knows engineName fun _ => True :=
      (follows_command? _).mono (fun _ _ h => h) fun _ _ _ h => ⟨h.1, trivial⟩
    refine asked.bind fun reply? => ?_
    split
    case' h_1 => refine (follows_mute ⟨rfl, fun _ => rfl⟩).bind fun _ => ?_
    case' h_3 => refine (follows_mute ⟨rfl, fun _ => rfl⟩).bind fun _ => ?_
    all_goals
      exact ((follows_mutes (all_dispose fun _ => Action.mute_of_disposes)).mono (fun _ _ h => h)
        fun _ _ _ h => h.2).bind fun _ => follows_joinForwarder
  · exact follows_joinForwarder.mono (fun _ _ h => h) fun _ _ _ h => ⟨h.1, trivial⟩

namespace Explains

variable {Q : α → List String → Prop} {R : β → List String → Prop}

/-- After a command, its reply may be relied on. -/
theorem bindCommand? {c : Command} {f : Option Reply → RequestM β}
    (hf : ∀ reply?, Explains requests engineName r
      (fun told => ∀ reply, reply? = some reply → Tells c reply told) (f reply?) R) :
    Explains requests engineName r B (ExceptT.lift (command? c) >>= f) R :=
  Follows.bindLift (follows_command? c) hf

/-- That there is no debuggee is one of the wordings. -/
theorem wording_noDebuggee (told : List String) :
    Wording engineName r told ErrorMessage.noDebuggee.text := by
  rw [ErrorMessage.noDebuggee, ErrorMessage.text_plain _ (by decide)]
  exact .noDebuggee

/-- An argument is there, or is told to be missing. -/
theorem argument {name : String} (known : name ∈ argumentNames) (o : Option α) :
    Explains requests engineName r B (orFailWith (.missingArgument name) o) fun a told =>
      o = some a ∧ B told := by
  refine orFail (fun _ told => ?_) fun a given told known => ⟨given, known⟩
  rw [ErrorMessage.text_missingArgument]
  exact .missing known

/-- There is a debuggee, and it answers, or the request fails. -/
theorem command (c : Command) : Explains requests engineName r B (Session.command c) (Tells c) := by
  refine bindGet fun s _ => ?_
  split
  case' isTrue =>
    refine bind (Q := fun _ => B) (failWith fun told _ => wording_noDebuggee told) fun _ => ?_
  all_goals
    refine bindCommand? fun reply? => ?_
    cases reply? with
    | none => exact failWith fun told _ => wording_noDebuggee told
    | some reply => exact ok fun told known => known reply rfl

/-! ## Requests -/

/-- Asking for the threads fails only with a wording. -/
theorem debuggeeThreads : Explains requests engineName r B Session.debuggeeThreads fun _ _ => True := by
  refine (command _).bind fun reply => ?_
  split <;> exact ok fun _ _ => trivial

/-- Setting the breakpoints of a file fails only with a wording. -/
theorem setDebuggeeBreakpoints (path : String) (lines : List UInt32) :
    Explains requests engineName r B (Session.setDebuggeeBreakpoints path lines) fun _ _ => True := by
  refine bindGet fun s _ => (command _).bind fun reply => ?_
  split <;> exact ok fun _ _ => trivial

/-- Going on to a state needs no explanation. -/
theorem advanceTo (target : SessionState) :
    Explains requests engineName r B (Session.advanceTo target) fun _ => B :=
  bindMute ⟨rfl, fun _ => rfl⟩ fun _ => ok fun _ known => known

/-- That the debuggee was not resumed is told as it is. -/
theorem reason_of_executionFailure? {c : Command} (answers : c.defaultReply.failure? = none) {reply : Reply}
    {told : List String} (known : Tells c reply told) {e : ExecutionFailure}
    (failed : executionFailure? reply = some e) : Reason r told e.message := by
  have reports : reply.failure? = some e.message := by
    unfold executionFailure? at failed
    split at failed <;> cases failed
    rfl
  exact .told (known.told answers reports)

/-- Running the debuggee fails with what the engine told, or because there is no debuggee. -/
theorem runDebuggee {c : Command} (answers : c.defaultReply.failure? = none) :
    Explains requests engineName r B (Session.runDebuggee c) fun _ _ => True := by
  refine bindGet fun s _ => ?_
  -- there may be no debuggee, before the command or when its reply is due
  split
  case' isTrue =>
    refine bind (Q := fun _ => B) (failWith fun told _ => wording_noDebuggee told) fun _ => ?_
  all_goals
    refine bindMute ⟨rfl, fun _ => rfl⟩ fun previous => (advanceTo _).bind fun _ => ?_
    refine bindCommand? fun reply? => ?_
    cases reply? with
    | none => exact (advanceTo _).bind fun _ => failWith fun told _ => wording_noDebuggee told
    | some reply =>
      dsimp only
      cases failed : executionFailure? reply with
      | none => exact ok fun _ _ => trivial
      | some e =>
        exact (advanceTo _).bind fun _ => fail fun told known =>
          reason_of_executionFailure? answers (known reply rfl) failed

/-- The first continuation fails only with a wording. -/
theorem continueAfterConfiguration :
    Explains requests engineName r B Session.continueAfterConfiguration fun _ _ => True := by
  refine debuggeeThreads.bind fun threads => ?_
  split
  · exact bindMute ⟨rfl, fun _ => rfl⟩ fun _ => runDebuggee rfl
  · exact runDebuggee rfl

/-- Setting the breakpoints that waited fails only with a wording. -/
theorem applyPendingBreakpoints :
    Explains requests engineName r B Session.applyPendingBreakpoints fun _ _ => True := by
  refine bindGet fun s _ => bindModify (fun _ => rfl) ?_
  refine bind (Q := fun _ _ => True) (mono (forIn (B := fun _ => True) (fun p _ => ?_) _ _)
    (fun _ _ => trivial) fun _ _ h => h) fun _ => ok fun _ _ => trivial
  exact bindGet fun s _ => (setDebuggeeBreakpoints _ _).bind fun verified =>
    bindLog (ok fun _ _ => trivial)

/-- A reply that no debuggee was started is worded as it was told. -/
theorem finishStart {c : Command} (starts : c.defaultReply = .launched (.error .noAnswer)) (code : ErrorCode)
    (reply : Reply) : Explains requests engineName r (Tells c reply) (Session.finishStart r code reply)
      fun _ _ => True := by
  unfold Session.finishStart
  split
  · refine bindLog (bindModify (fun _ => rfl) ((advanceTo _).bind fun _ => ?_))
    refine applyPendingBreakpoints.bind fun _ => bindGet fun s _ => ?_
    split
    · exact continueAfterConfiguration.bind fun _ => ok fun _ _ => trivial
    · exact ok fun _ _ => trivial
  · split
    all_goals
      refine bindMutes (all_dispose fun _ => Action.mute_of_disposes) fun _ _ =>
        Follows.bindLift follows_joinForwarder fun _ => failWith fun told known => ?_
      rw [ErrorMessage.text_plainError]
    · -- the failure was told, or the gateway gave no answer at all
      obtain there | default := known _ rfl
      · exact .notStarted there
      · rw [starts] at default
        have same : LaunchFailure.noAnswer.message = _ := Option.some.inj default
        rw [← same]
        exact .noAnswer
    · exact .noAnswer

/-- If a gateway cannot be made, that is told. -/
theorem bindOpened {engineOptions : EngineOptions} {options : GatewayOptions}
    {f : Except GatewayError Unit → RequestM β}
    (hf : ∀ result, Explains requests engineName r
      (fun told => ∀ e, result = .error e → e.message ∈ told) (f result) R) :
    Explains requests engineName r B (act (.openGateway engineOptions options) >>= f) R := by
  refine Follows.bindLift (.perform fun t told known => ⟨nofun, fun result => ⟨known.1, ?_⟩⟩) hf
  rintro e rfl
  show e.message ∈ told ++ [e.message]
  simp

/-- Opening a gateway fails with what the engine told. -/
theorem openGateway (code : ErrorCode) :
    Explains requests engineName r B (Session.openGateway r code) fun _ _ => True := by
  refine bindGet fun s _ => bindMute ⟨rfl, fun _ => rfl⟩ fun found => ?_
  dsimp only
  -- whether there is a record to make or not, the gateway is made next
  split
  case' h_1 => refine bindMute ⟨rfl, fun _ => rfl⟩ fun _ => ?_
  all_goals
    refine bindOpened fun result => ?_
    cases result with
    | error e =>
      refine failWith fun told known => ?_
      rw [ErrorMessage.text_plainError]
      exact .notStarted (known e rfl)
    | ok a => exact fun t told known => ⟨known.1, trivial⟩

/-- A start fails with what the engine told. -/
theorem startBy {c : Command} (starts : c.defaultReply = .launched (.error .noAnswer)) (code : ErrorCode) :
    Explains requests engineName r B (Session.startBy r code c) fun _ _ => True := by
  refine (openGateway code).bind fun _ => bind (Q := Tells c) ?_ (finishStart starts code)
  refine bindCommand? fun reply? => orFail (fun _ => wording_noDebuggee) ?_
  rintro reply rfl told known
  exact known reply rfl

/-- A second start fails with its own wording. -/
theorem ensureNotStarted (code : ErrorCode) :
    Explains requests engineName r B (Session.ensureNotStarted code) fun _ => B := by
  refine bindGet fun s _ => ?_
  split
  · refine failWith fun told _ => ?_
    rw [ErrorMessage.text_plain _ (by decide)]
    exact .alreadyStarted
  · exact ok fun _ known => known

/-- A launch without its target fails with the name of the target. -/
theorem requestedLaunch : Explains requests engineName r B (Session.requestedLaunch r) fun _ _ => True := by
  refine (ensureNotStarted _).bind fun _ => (argument (by decide) _).bind fun program => assume fun named => ?_
  have given := (Option.filter_eq_some_iff.1 named).1
  have found (directory : Option String) :
      (LaunchRequest.find program (r.texts "args") directory).All Action.Mute fun _ => True :=
    (all_findTarget (fun _ => Action.mute_of_onHost) _ _).bind fun _ h => h
  dsimp only
  -- a directory that is there is entered first
  split
  case' h_1 =>
    refine bindMute ⟨rfl, fun _ => rfl⟩ fun there => ?_
    split
  case' h_1.isTrue => refine bindMute ⟨rfl, fun _ => rfl⟩ fun _ => ?_
  all_goals
    refine bindMutes (found _) fun found _ => bind (orFail (fun _ told => ?_) fun _ _ _ known => known)
      fun request => bindLog (ok fun _ _ => trivial)
    rw [ErrorMessage.text_targetDoesNotExist]
    exact .noTarget given

/-- An attachment without its process fails with the number of the process. -/
theorem requestedAttach : Explains requests engineName r B (Session.requestedAttach r) fun _ _ => True := by
  refine (ensureNotStarted _).bind fun _ => (argument (by decide) _).bind fun pid => assume fun given => ?_
  -- a process that is not found has the number that was asked for
  have found : (findProcess pid).All Action.Mute fun found => ∀ id, found = .error id →
      id = (word32? pid).getD 0 := by
    unfold findProcess
    cases word32? pid with
    | none =>
      rintro id ⟨⟩
      rfl
    | some id =>
      refine (Program.all_perform ⟨rfl, fun _ => rfl⟩).bind fun image _ => ?_
      cases image with
      | none =>
        rintro id ⟨⟩
        rfl
      | some image => exact nofun
  refine bindMutes found fun found number => ?_
  cases found with
  -- the text ends with the number that was asked for
  | error id =>
    dsimp only
    refine failWith fun told _ => ?_
    have worded : Wording engineName r told _ := .noProcess given
    rw [ErrorMessage.text_attachFailed, number id rfl]
    have wording : processNotFound ((word32? pid).getD 0) =
      "process with pid " ++ toString ((word32? pid).getD 0).toNat ++ " not found" := rfl
    simpa only [wording, String.append_assoc] using worded
  | ok request => exact bindLog (ok fun _ _ => trivial)

/-- The request to launch fails only with a wording. -/
theorem launch : Explains requests engineName r B (Session.launch r) fun _ _ => True := by
  rw [launch_eq]
  exact requestedLaunch.bind fun _ => startBy rfl _

/-- The request to attach fails only with a wording. -/
theorem attach : Explains requests engineName r B (Session.attach r) fun _ _ => True := by
  rw [attach_eq]
  exact requestedAttach.bind fun _ => startBy rfl _

/-- The request to initialize fails for a wrong format or a wrong platform. -/
theorem beginSession : Explains requests engineName r B (Session.beginSession r) fun _ _ => True := by
  refine bindGet fun s named => ?_
  obtain rfl := named
  dsimp only
  -- a format that is not known fails the request, and the platform may as well
  split
  case' h_1 format given =>
    refine bind (Q := fun _ => B) (orFail (fun _ told => ?_) fun _ _ _ known => known) fun _ => ?_
    · rw [ErrorMessage.text_badPathFormat]
      exact .badPathFormat given
  all_goals
    refine bindModify (fun _ => rfl) (bindMute ⟨rfl, fun _ => rfl⟩ fun supported => ?_)
    split
    case' isTrue =>
      refine bind (Q := fun _ => B) (failWith fun told _ => ?_) fun _ => ?_
      · rw [ErrorMessage.text_platformNotSupported]
        exact .noEngine
    all_goals exact (advanceTo _).bind fun _ => bindModify (fun _ => rfl) (ok fun _ _ => trivial)

/-- The request to disconnect fails only with a wording. -/
theorem disconnect : Explains requests engineName r B Session.disconnect fun _ _ => True := by
  refine bindMute ⟨rfl, fun _ => rfl⟩ fun _ => Follows.bindLift follows_shutdown_worded fun _ => ?_
  exact ok (B := fun _ => True) fun _ _ => trivial

/-- The request to set breakpoints fails only with a wording. -/
theorem setBreakpoints : Explains requests engineName r B (Session.setBreakpoints r) fun _ _ => True := by
  refine (argument (by decide) _).bind fun path => ?_
  -- a path that cannot be converted is only noted
  have named {B : List String → Prop} :
      Explains requests engineName r B (debuggerPath path) fun _ _ => True := by
    refine bindGet fun s _ => ?_
    dsimp only
    split
    · exact bindMute ⟨rfl, fun _ => rfl⟩ fun _ => ok fun _ _ => trivial
    · exact ok fun _ _ => trivial
  have set (path : Option String) (lines : List UInt32) :
      Explains requests engineName r (fun _ => True) (setFileBreakpoints path lines) fun _ _ => True := by
    refine bindGet fun s _ => ?_
    split
    · exact ok fun _ _ => trivial
    · exact bindModify (fun _ => rfl) (ok fun _ _ => trivial)
    · exact setDebuggeeBreakpoints _ _
  exact named.bind fun path => bindGet fun s _ => (set _ _).bind fun verified => ok fun _ _ => trivial

/-- The end of the configuration fails only with a wording. -/
theorem finishConfiguration :
    Explains requests engineName r B Session.finishConfiguration fun _ _ => True := by
  refine bindModify (fun _ => rfl) (bindGet fun s _ => ?_)
  split
  · refine bindMute ⟨rfl, fun _ => rfl⟩ fun state => ?_
    split
    · exact continueAfterConfiguration.bind fun _ => ok fun _ _ => trivial
    · exact ok fun _ _ => trivial
  · exact ok fun _ _ => trivial

/-- The request to continue fails only with a wording. -/
theorem resume : Explains requests engineName r B Session.resume fun _ _ => True :=
  (runDebuggee rfl).bind fun _ => ok fun _ _ => trivial

/-- The requests to step fail only with a wording. -/
theorem step (kind : StepKind) : Explains requests engineName r B (Session.step r kind) fun _ _ => True :=
  (runDebuggee rfl).bind fun _ => ok fun _ _ => trivial

/-- The request to pause fails only with a wording. -/
theorem pause : Explains requests engineName r B Session.pause fun _ _ => True := by
  refine (command _).bind fun reply => ?_
  split
  · rename_i e failed
    exact fail fun told known => reason_of_executionFailure? rfl known failed
  · exact ok fun _ _ => trivial

/-- The request for a stack trace fails for a wrong thread, or with a wording. -/
theorem stackTrace : Explains requests engineName r B (Session.stackTrace r) fun _ _ => True := by
  refine (argument (by decide) _).bind fun thread => assume fun given => ?_
  split
  · rename_i id _
    refine (command _).bind fun reply => ?_
    have listed (frames : List (Registered Frame)) : Explains requests engineName r
        (Tells (.stackTrace id) reply) (pure frames) fun _ _ => True := ok fun _ _ => trivial
    cases reply <;> exact (listed _).bind fun frames => bindGet fun s _ => ok fun _ _ => trivial
  · exact fail fun told _ => .badThread given

/-- The request for scopes fails only with a wording. -/
theorem scopes : Explains requests engineName r B (Session.scopes r) fun _ _ => True := by
  refine (argument (by decide) _).bind fun frame => (command _).bind fun reply => ?_
  cases reply <;> exact ok fun _ _ => trivial

/-- A missing reference is worded as a missing argument. -/
theorem variablesReference :
    Explains requests engineName r B (Session.variablesReference r) fun _ => B := by
  refine bind (Q := fun _ => B) (orFail (fun _ told => ?_) fun _ _ _ known => known) fun _ =>
    ok fun _ known => known
  rw [ErrorMessage.text_plain _ (by decide)]
  have known : "variablesReference" ∈ argumentNames := by decide
  exact .missing known

/-- The request for variables fails only with a wording. -/
theorem listVariables : Explains requests engineName r B (Session.listVariables r) fun _ _ => True := by
  refine variablesReference.bind fun reference => ?_
  split
  · exact ok fun _ _ => trivial
  · refine (command _).bind fun reply => ?_
    cases reply <;> exact ok fun _ _ => trivial

/-- That a variable was not set is told, or there is no answer about it. -/
theorem setVariable : Explains requests engineName r B (Session.setVariable r) fun _ _ => True := by
  refine variablesReference.bind fun reference => ?_
  refine (argument (by decide) _).bind fun name => assume fun given => ?_
  refine (argument (by decide) _).bind fun value => (command _).bind fun reply => ?_
  -- the reply is that of the engine, or the one for a missing reply, which says that the variable was not
  -- found
  split
  · exact ok fun _ _ => trivial
  · rename_i e
    refine fail fun told known => ?_
    obtain there | default := known _ rfl
    · exact .told there
    · have same : (ValueFailure.notFound name).message = e.message := Option.some.inj default
      show Reason r told e.message
      rw [← same]
      exact .notFound given
  · exact fail fun told _ => .notFound given

/-- The request for threads fails only with a wording. -/
theorem threads : Explains requests engineName r B Session.threads fun _ _ => True := by
  refine bindGet fun s _ => ?_
  split
  · exact debuggeeThreads.bind fun threads => ok fun _ _ => trivial
  · exact ok fun _ _ => trivial

/-- The request to evaluate fails with what the engine told, or with a wording. -/
theorem evaluate : Explains requests engineName r B (Session.evaluate r) fun _ _ => True := by
  refine (argument (by decide) _).bind fun expression => (command _).bind fun reply => ?_
  split
  · exact fail fun told known => .told (known.told rfl rfl)
  · exact ok fun _ _ => trivial
  · exact ok fun _ _ => trivial

/-- The failure of every request can be worded. -/
theorem dispatch : Explains requests engineName r B (Session.dispatch r) fun _ _ => True := by
  -- one case for each command
  unfold Session.dispatch
  split
  · exact beginSession
  · exact launch
  · exact attach
  · exact disconnect
  · exact setBreakpoints
  · exact ok fun _ _ => trivial
  · exact ok fun _ _ => trivial
  · exact finishConfiguration
  · exact resume
  · exact step _
  · exact step _
  · exact step _
  · exact pause
  · exact stackTrace
  · exact scopes
  · exact listVariables
  · exact setVariable
  · exact threads
  · exact evaluate
  · refine failWith fun told _ => ?_
    rw [ErrorMessage.text_plain _ (by decide)]
    exact .noSource
  · refine failWith fun told _ => ?_
    rw [ErrorMessage.text_unrecognizedRequest]
    exact .unrecognized

end Explains

/-! ## Answers -/

/-- The message for a failure is worded by what was told when the request failed. -/
theorem follows_failureMessage (failure : RequestFailure) :
    Follows (wording engineName requests) (Knows engineName (WordedFailure engineName r · failure))
      (failureMessage r failure) fun m => Knows engineName (Wording engineName r · m.text) := by
  cases failure with
  | reported m => exact .pure fun _ _ known => known
  | other reason =>
    refine (follows_mute ⟨rfl, fun _ => rfl⟩).bind fun _ => .pure fun t told known => ⟨known.1, ?_⟩
    rw [ErrorMessage.text_dispatchFailed]
    exact .failed known.2

/-- Events are no answers. -/
theorem follows_sendDeferred_worded : Follows (wording engineName requests) (Knows engineName B) sendDeferred
    fun _ => Knows engineName B := by
  have sent (l : List Event) : Follows (wording engineName requests) (Knows engineName B)
      (forIn l PUnit.unit fun e _ => do
        perform (.send (.event e))
        pure (ForInStep.yield PUnit.unit)) fun _ => Knows engineName B := by
    -- induction on the events that were deferred
    induction l with
    | nil => exact .pure fun _ _ known => known
    | cons e l ih =>
      rw [List.forIn_cons]
      refine ((follows_mute ⟨rfl, fun _ => rfl⟩).bind fun _ => .pure (Q := fun _ => Knows engineName B)
        fun _ _ known => known).bind fun step => ?_
      cases step with
      | done b => exact .pure fun _ _ known => known
      | yield b => exact ih
  exact fun t told known => ((sent t.deferred).bind fun _ => .pure (Q := fun _ => Knows engineName B)
    fun _ _ known => known) { t with deferred := [] } told known

/-- A request is answered, and if it failed the answer is worded by what was told meanwhile. -/
theorem follows_handle_worded (asked : requests r) :
    Follows (wording engineName requests) (Knows engineName fun _ => True) (handle r)
      fun _ => Knows engineName fun _ => True := by
  refine (follows_mute ⟨rfl, fun _ => rfl⟩).bind fun _ => Follows.bind Explains.dispatch fun result => ?_
  -- only a failed request has a text that is to be explained
  cases result with
  | ok body =>
    refine Follows.bind (Q := fun _ => Knows engineName fun _ => True)
      (.perform fun t told known => ⟨?_, fun _ => ⟨known.1, trivial⟩⟩) fun _ => follows_sendDeferred_worded
    rintro response text ⟨⟩ failed
    cases failed
  | error failure =>
    refine (follows_failureMessage failure).bind fun m => ?_
    refine Follows.bind (.modify (Q := fun _ => Knows engineName (Wording engineName r · m.text))
      fun _ _ known => known) fun _ => (follows_mute ⟨rfl, fun _ => rfl⟩).bind fun _ => ?_
    refine .perform fun t told known => ⟨?_, fun _ => ⟨known.1, trivial⟩⟩
    rintro response text ⟨⟩ failed
    cases failed
    exact ⟨r, asked, rfl, rfl, known.2⟩

/-- Whatever messages are received, every failure is worded. -/
theorem follows_receiveAll_worded {messages : List Json}
    (asked : ∀ r ∈ Session.requests messages, requests r) :
    Follows (wording engineName requests) (Knows engineName fun _ => True) (receiveAll messages)
      fun _ => Knows engineName fun _ => True := by
  -- induction on the messages
  induction messages with
  | nil => exact .pure fun _ _ known => known
  | cons m rest ih =>
    cases read : request? m with
    | none =>
      obtain ⟨level, text, received⟩ := receiveAll_cons_none read
      rw [received]
      rw [(requests_cons_none read rest).1] at asked
      exact (follows_mute ⟨rfl, fun _ => rfl⟩).bind fun _ => ih asked
    | some r =>
      rw [receiveAll_cons_some read]
      rw [(requests_cons_some read rest).1] at asked
      refine (follows_handle_worded (asked r List.mem_cons_self)).bind fun _ => ?_
      split
      · exact .pure fun _ _ known => known
      · rename_i goesOn
        rw [if_neg goesOn] at asked
        exact ih fun r mem => asked r (List.mem_cons_of_mem _ mem)

/-- Leaving a session responds to nothing. -/
theorem follows_leave_worded (closed : Bool) : Follows (wording engineName requests)
    (Knows engineName fun _ => True) (leave closed) fun _ => Knows engineName fun _ => True := by
  unfold leave
  split
  · exact (follows_mute ⟨rfl, fun _ => rfl⟩).bind fun _ => follows_shutdown_worded
  · exact follows_shutdown_worded

/-- In a whole session, every failure is worded. -/
theorem follows_serve_worded (messages : List Json) (closed : Bool) :
    Follows (wording engineName (· ∈ Session.requests messages)) (Knows engineName fun _ => True)
      (serve messages closed) fun _ => Knows engineName fun _ => True :=
  (follows_receiveAll_worded fun _ mem => mem).bind fun _ => (follows_leave_worded _).bind fun _ =>
    .pure fun _ _ known => known

end Session

/-! ## Expansions and failures -/

section

open Text

/-- Templates of error messages and of search paths are expanded in one pass from left to right, whatever
characters names are made of. Whatever the values are, a template has the same parts, and no others: where a
placeholder can be read behind the part before, it is one. Its value comes in its place as it is, and all
other characters stay. A name without a value is told to be unknown in an error message, and stays as it is
written in a search path.

So whatever a client sends, and whatever the engine and the machine answer, the failures that are reported to
it show the texts of its requests, and those that were told, as they are. -/
theorem expand_once :
    (∀ (words : WordClass) (format : String), ∃ parts,
      (∀ other, Cut (ErrorMessage.Mark words) format.toList other ↔ other = parts) ∧
      parts.flatMap Part.written = format.toList ∧
      ∀ values, ErrorMessage.expand format values words =
        String.ofList (parts.flatMap (Part.filled (ErrorMessage.fill values)))) ∧
    (∀ (words : WordClass) (path : String), ∃ parts,
      (∀ other, Cut (Environment.Mark words) path.toList other ↔ other = parts) ∧
      parts.flatMap Part.written = path.toList ∧
      ∀ env : Environment, env.expand path words =
        String.ofList (parts.flatMap (Part.filled env.fill))) ∧
    (∀ (r : Request) (t : Session),
      ((Session.handle r).run t).Follows (wording t.engineName (· = r)) (fun _ _ => True) []) ∧
    ∀ (messages : List Json) (closed : Bool) (t : Session),
      ((Session.serve messages closed).run t).Follows
        (wording t.engineName (· ∈ Session.requests messages)) (fun _ _ => True) [] := by
  -- the two templates are read by one grammar, each with its own marks
  refine ⟨fun words format => ?_, fun words path => ?_, fun r t => ?_, fun messages closed t => ?_⟩
  · have reads := ErrorMessage.reads words
    obtain ⟨parts, cut⟩ := reads.exists_cut format.toList
    exact ⟨parts, fun _ => reads.cut_iff cut, cut.flatMap_written, ErrorMessage.expand_cut cut⟩
  · have reads := Environment.reads words
    obtain ⟨parts, cut⟩ := reads.exists_cut path.toList
    exact ⟨parts, fun _ => reads.cut_iff cut, cut.flatMap_written, Environment.expand_cut cut⟩
  · have worded : Session.Follows (wording t.engineName (· = r)) (Session.Knows t.engineName fun _ => True)
        (Session.handle r) fun _ => Session.Knows t.engineName fun _ => True := Session.follows_handle_worded rfl
    exact (worded t [] ⟨rfl, trivial⟩).mono fun _ _ _ => trivial
  · exact (Session.follows_serve_worded messages closed t [] ⟨rfl, trivial⟩).mono fun _ _ _ => trivial

end

end DebugAdapter
