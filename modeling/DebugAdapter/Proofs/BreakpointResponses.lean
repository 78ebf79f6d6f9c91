import DebugAdapter.Proofs.BreakpointReplies
import DebugAdapter.Proofs.SessionWire
import DebugAdapter.Proofs.SourceRoundTrip
import DebugAdapter.Proofs.TicketReplies
import DebugAdapter.Scripted.Engine

/-!
# Responses to requests for breakpoints

A client gets an entry for each line that it asked for. The flags are those of the engine thread's reply
if there is a debuggee, and otherwise none is verified. Only a request that names no file, and one whose
debuggee takes no commands any more, are refused (`Session.BreakpointResponse`).

While a request waits for a reply the other threads go on, and its time may be up before there is one
(`Program.Finishes`).

## Key results

- `Program.exists_finishes`: a program that waits for replies only finishes
- `Session.response_of_finishes`: how a request for breakpoints can finish
- `Session.responds_setBreakpoints`: what is replied, set and responded
-/

namespace DebugAdapter

/-! ## Programs whose time may be up -/

/-- What an action gives of the reply to a command. -/
def Action.got : (a : Action) → a.Result → List (Option Reply)
  | await _, reply => [reply]
  | _, _ => []

namespace Program

variable {σ α : Type} [Engine σ]

/-- How a program can finish that begins in a system: between its actions the other threads make any number
of steps, and where it waits for the reply to a command, its time may be up. The list has what it got
for its commands. -/
inductive Finishes : Program α → System σ → List (Option Reply) → α → System σ → Prop
  | done (a : α) (s : System σ) : Finishes (.done a) s [] a s
  | act {a : Action} {next : a.Result → Program α} {s s' s'' u : System σ} {r : a.Result}
      {replies : List (Option Reply)} {b : α} (others : s.Meanwhile s')
      (performed : s'.perform a = some (r, s'')) (rest : Finishes (next r) s'' replies b u) :
      Finishes (.act a next) s (a.got r ++ replies) b u
  | late {ticket : Ticket} {next : Option Reply → Program α} {s s' u : System σ}
      {replies : List (Option Reply)} {b : α} (others : s.Meanwhile s')
      (waits : s'.perform (.await ticket) = none) (rest : Finishes (next none) s' replies b u) :
      Finishes (.act (.await ticket) next) s (none :: replies) b u

/-- Nothing that a program does has to wait, but for replies. -/
def AwaitsReplies (σ : Type) [Engine σ] (a : Action) : Prop :=
  (∃ ticket, a = .await ticket) ∨ ∀ s : System σ, (s.perform a).isSome = true

/-- A program that waits for nothing but replies can always finish. -/
theorem exists_finishes {p : Program α} (h : p.All (AwaitsReplies σ) fun _ => True) (s : System σ) :
    ∃ replies b u, p.Finishes s replies b u := by
  -- induction on the program; where it has to wait, the wait ends without a reply
  induction p generalizing s with
  | done a => exact ⟨[], a, s, .done a s⟩
  | act a next ih =>
    cases e : s.perform a with
    | some result =>
      obtain ⟨replies, b, u, rest⟩ := ih result.1 (h.2 _) result.2
      exact ⟨_, b, u, .act .none e rest⟩
    | none =>
      rcases h.1 with ⟨ticket, rfl⟩ | goesOn
      · obtain ⟨replies, b, u, rest⟩ := ih none (h.2 _) s
        exact ⟨_, b, u, .late .none e rest⟩
      · have some := goesOn s
        rw [e] at some
        cases some

end Program

/-- A command is refused only by a closed gateway. -/
theorem System.closed_of_submit {σ : Type} [Engine σ] {s s' : System σ} {c : Command}
    (e : s.perform (.submit c) = some (none, s')) {g : Gateway σ} (gateway : s.gateway = some g) :
    g.accepting = false := by
  simp only [System.perform, System.submit, gateway, Gateway.submit] at e
  split at e
  · cases e
  · next off => simpa using off

namespace Session

/-! ## Responses -/

/-- The file that a request is about. -/
def requestedPath? (r : Request) : Option String :=
  ((r.argument? "source").bind (·.member? "path")).bind Json.toString?

/-- The body of a response with an entry for each line, as the client has counted it. -/
def breakpointsBody (r : Request) (verified : List Bool) : Json :=
  .object [("breakpoints", .arr ((breakpointLines r).zipWith (fun line verified => .object
    [("verified", .bool verified), ("line", .int line), ("source", (r.argument? "source").getD .null)])
    verified))]

/-- No line is verified. -/
def unverified (r : Request) : List Bool :=
  List.replicate (breakpointLines r).length false

/-- The lines that a client asks for, as the debugger counts them. -/
def debuggerLines (t : Session) (r : Request) : List UInt32 :=
  (breakpointLines r).map t.convention.lineToDebugger

variable {σ : Type} [Engine σ]

/-- How a request for breakpoints that begins in a system can finish: what it got for its commands, and the
body of the response or a failure. -/
inductive BreakpointResponse (t : Session) (s : System σ) (r : Request) :
    List (Option Reply) → Except RequestFailure (Option Json) → Prop
  | unnamed (missing : requestedPath? r = none) :
      BreakpointResponse t s r [] (.error (.reported (.missingArgument "source.path")))
  /-- The file has no name that the debugger knows, or there is no debuggee yet. -/
  | unset {path : String} (named : requestedPath? r = some path)
      (unset : t.convention.pathToDebugger path = none ∨ t.started = false) :
      BreakpointResponse t s r [] (.ok (some (breakpointsBody r (unverified r))))
  /-- The gateway takes no commands any more. -/
  | refused {path back : String} (named : requestedPath? r = some path)
      (converted : t.convention.pathToDebugger path = some back) (started : t.started = true)
      (closed : ∃ s', s.Meanwhile s' ∧ ∀ g, s'.gateway = some g → g.accepting = false) :
      BreakpointResponse t s r [] (.error (.reported .noDebuggee))
  /-- The engine thread has dropped the command, or the time was up. -/
  | unanswered {path back : String} (named : requestedPath? r = some path)
      (converted : t.convention.pathToDebugger path = some back) (started : t.started = true) :
      BreakpointResponse t s r [none] (.ok (some (breakpointsBody r (unverified r))))
  /-- The engine thread has set the breakpoints of the file. -/
  | answered {path back : String} (named : requestedPath? r = some path)
      (converted : t.convention.pathToDebugger path = some back) (started : t.started = true)
      (w : Worker σ) {results : List BreakpointResult} (reply : results =
        ((Worker.setBreakpoints (t.sourceMap.toTarget back) (t.debuggerLines r)).run w).1)
      (inOrder : results.map (·.breakpoint) =
        (t.debuggerLines r).map fun line => ⟨t.sourceMap.toTarget back, line⟩) :
      BreakpointResponse t s r [some (.breakpoints results)]
        (.ok (some (breakpointsBody r (results.map (·.verified)))))

/-! ## The request, action by action -/

variable {t : Session} {r : Request} {path back : String}

/-- There is one flag for each line that is asked for. -/
private theorem length_unverified (r : Request) : (unverified r).length = (breakpointLines r).length :=
  List.length_replicate

/-- As many flags are given as lines are converted. -/
private theorem replicate_eq (t : Session) (r : Request) :
    List.replicate (t.debuggerLines r).length false = unverified r := by
  rw [debuggerLines, List.length_map, unverified]

/-- The body that shows flags beside the lines, where a flag that is missing is down. -/
def flaggedBody (r : Request) (flags : List Bool) : Json :=
  .object [("breakpoints", .arr ((breakpointLines r).mapIdx fun i line => .object
    [("verified", .bool (flags[i]?.getD false)), ("line", .int line),
      ("source", (r.argument? "source").getD .null)]))]

/-- With a flag for each line, the response shows the flags in order. -/
private theorem flaggedBody_eq {flags : List Bool} (each : flags.length = (breakpointLines r).length) :
    flaggedBody r flags = breakpointsBody r flags := by
  rw [flaggedBody, breakpointsBody]
  refine congrArg (fun entries => Json.object [("breakpoints", .arr entries)]) ?_
  refine List.ext_getElem (by simp [each]) fun i h h' => ?_
  have bound : i < flags.length := by simpa [each] using h
  simp [bound]

/-- Without flags, the response shows every line unverified. -/
private theorem flaggedBody_nil (r : Request) : flaggedBody r [] = breakpointsBody r (unverified r) := by
  rw [← flaggedBody_eq (length_unverified r)]
  have down : ∀ i : Nat, (unverified r)[i]?.getD false = ([] : List Bool)[i]?.getD false := by
    intro i
    rw [unverified, List.getElem?_replicate]
    split <;> rfl
  simp only [flaggedBody, down]

/-- The rest of a request for breakpoints, when the name of the file was converted. -/
private def answerBreakpoints (r : Request) (converted : Option String) : RequestM (Option Json) := do
  let verified ← setFileBreakpoints converted ((← getThe Session).debuggerLines r)
  return some (flaggedBody r verified)

/-- A request without a path fails at once. -/
theorem run_setBreakpoints_unnamed (missing : requestedPath? r = none) : (setBreakpoints r).run.run t =
    .done (.error (.reported (.missingArgument "source.path")), t) := by
  rw [requestedPath?] at missing
  rw [setBreakpoints]
  dsimp only
  rw [missing]
  rfl

/-- A request with a path converts the path first. -/
private theorem run_named (named : requestedPath? r = some path) : (setBreakpoints r).run.run t =
    (debuggerPath path >>= answerBreakpoints r).run.run t := by
  rw [requestedPath?] at named
  rw [setBreakpoints]
  dsimp only
  rw [named]
  rfl

/-- Without a name that the debugger knows, no line is verified. -/
theorem run_setBreakpoints_unconverted (named : requestedPath? r = some path)
    (unconverted : t.convention.pathToDebugger path = none) :
    let done : Program (Except RequestFailure (Option Json) × Session) :=
      .done (.ok (some (breakpointsBody r (unverified r))), t)
    (setBreakpoints r).run.run t = done ∨
      ∃ record, (setBreakpoints r).run.run t = .act (.note record) fun _ => done := by
  intro done
  have rest : (answerBreakpoints r none).run.run t = done := by
    -- without a path on the side of the debugger nothing is set
    have flags : (setFileBreakpoints none (t.debuggerLines r)).run.run t =
        .done (.ok (unverified r), t) := by
      rw [← replicate_eq t r]
      rfl
    rw [answerBreakpoints, run_bind_of_done (u := t) (a := t) rfl, run_bind_of_done flags,
      flaggedBody_eq (length_unverified r)]
    rfl
  rw [run_named named, ExceptT.run_bind, StateT.run_bind, run_debuggerPath, unconverted]
  split
  · refine .inr ⟨_, congrArg (Program.act _) (funext fun _ => ?_)⟩
    exact rest
  · exact .inl rest

/-- As long as there is no debuggee, the lines are kept for later, and none is verified. -/
theorem run_setBreakpoints_unstarted (named : requestedPath? r = some path)
    (converted : t.convention.pathToDebugger path = some back) (unstarted : t.started = false) :
    (setBreakpoints r).run.run t = .done (.ok (some (breakpointsBody r (unverified r))),
      { t with pending := putPending back (t.debuggerLines r) t.pending }) := by
  let t' : Session := { t with pending := putPending back (t.debuggerLines r) t.pending }
  have flags : (setFileBreakpoints (some back) (t.debuggerLines r)).run.run t =
      .done (.ok (unverified r), t') := by
    rw [setFileBreakpoints, run_bind_of_done (u := t) (a := t) rfl, unstarted, ← replicate_eq t r]
    rfl
  rw [run_named named, run_bind_of_done (run_debuggerPath_some converted), answerBreakpoints,
    run_bind_of_done (u := t) (a := t) rfl, run_bind_of_done flags, flaggedBody_eq (length_unverified r)]
  rfl

/-- If there is a debuggee, the breakpoints are set there. -/
theorem run_setBreakpoints_started (named : requestedPath? r = some path)
    (converted : t.convention.pathToDebugger path = some back) (started : t.started = true) :
    (setBreakpoints r).run.run t = (setDebuggeeBreakpoints back (t.debuggerLines r) >>= fun verified =>
      return some (flaggedBody r verified)).run.run t := by
  rw [run_named named, run_bind_of_done (run_debuggerPath_some converted), answerBreakpoints,
    run_bind_of_done (u := t) (a := t) rfl, ExceptT.run_bind, StateT.run_bind, setFileBreakpoints,
    run_bind_of_done (u := t) (a := t) rfl, started]
  rfl

/-- The flags that a reply gives. -/
private def flagsOf : Reply → List Bool
  | .breakpoints results => results.map (·.verified)
  | _ => []

/-- If there is a debuggee, a command is queued, and its reply is awaited. -/
private theorem run_setDebuggeeBreakpoints (started : t.started = true) (back : String)
    (lines : List UInt32) :
    (setDebuggeeBreakpoints back lines).run.run t = .act
      (.submit (.setBreakpoints (t.sourceMap.toTarget back) lines)) fun
        | none => .done (.error (.reported .noDebuggee), t)
        | some ticket => .act (.await ticket) fun reply =>
          .done (.ok (flagsOf (reply.getD (.breakpoints []))), t) := by
  rw [setDebuggeeBreakpoints, run_bind_of_done (u := t) (a := t) rfl]
  dsimp only
  rw [ExceptT.run_bind, StateT.run_bind, command, run_bind_of_done (u := t) (a := t) rfl, started]
  refine congrArg (Program.act _) (funext fun ticket => ?_)
  cases ticket with
  | none => rfl
  | some ticket =>
    refine congrArg (Program.act _) (funext fun reply => ?_)
    cases reply with
    | none => rfl
    | some reply => cases reply <;> rfl

/-- If there is a debuggee, the request is a command, and the response is what its reply gives. -/
private theorem run_started (named : requestedPath? r = some path)
    (converted : t.convention.pathToDebugger path = some back) (started : t.started = true) :
    (setBreakpoints r).run.run t = .act
      (.submit (.setBreakpoints (t.sourceMap.toTarget back) (t.debuggerLines r))) fun
        | none => .done (.error (.reported .noDebuggee), t)
        | some ticket => .act (.await ticket) fun reply =>
          .done (.ok (some (flaggedBody r (flagsOf (reply.getD (.breakpoints []))))), t) := by
  rw [run_setBreakpoints_started named converted started, ExceptT.run_bind, StateT.run_bind,
    run_setDebuggeeBreakpoints started]
  refine congrArg (Program.act _) (funext fun ticket => ?_)
  cases ticket <;> rfl

/-- Every reply to the command is a list of results in the order of the lines. -/
private theorem eq_of_mayGive {file : String} {lines : List UInt32} {reply : Reply}
    (gives : (Command.setBreakpoints file lines).MayGive (AnswerLog σ) reply) :
    ∃ (w : Worker (AnswerLog σ)) (results : List BreakpointResult), reply = .breakpoints results ∧
      results = ((Worker.setBreakpoints file lines).run w).1 ∧
      results.map (·.breakpoint) = lines.map fun line => ⟨file, line⟩ := by
  rcases gives with ⟨w, outcome⟩ | ⟨w, d, result, started, -⟩
  · refine ⟨w, ((Worker.setBreakpoints file lines).run w).1, ?_, rfl, ?_⟩
    · exact (Worker.Outcome.answered.inj outcome).symm
    · obtain ⟨tries, rfl, results, -⟩ := Worker.run_setBreakpoints file lines w
      rw [results, List.map_map, List.map_map]
      rfl
  · cases started

/-- A reply to the command is shown line by line. -/
private theorem response_of_mayGive {s : System (AnswerLog σ)} (named : requestedPath? r = some path)
    (converted : t.convention.pathToDebugger path = some back) (started : t.started = true) {reply : Reply}
    (gives : (Command.setBreakpoints (t.sourceMap.toTarget back) (t.debuggerLines r)).MayGive
      (AnswerLog σ) reply) :
    BreakpointResponse t s r [some reply] (.ok (some (flaggedBody r (flagsOf reply)))) := by
  obtain ⟨w, results, rfl, same, inOrder⟩ := eq_of_mayGive gives
  have each : (results.map (·.verified)).length = (breakpointLines r).length := by
    have lengths := congrArg List.length inOrder
    rw [List.length_map, List.length_map, debuggerLines, List.length_map] at lengths
    rw [List.length_map, lengths]
  rw [flagsOf, flaggedBody_eq each]
  exact .answered named converted started w same inOrder

/-- How a request for breakpoints can finish if there is a debuggee: by a command that is refused, or that is
left without a reply, or by its reply. -/
private theorem response_of_finishes_started {s u : System (AnswerLog σ)} (replying : s.Replying [])
    (named : requestedPath? r = some path) (converted : t.convention.pathToDebugger path = some back)
    (started : t.started = true) {replies : List (Option Reply)}
    {result : Except RequestFailure (Option Json) × Session}
    (finishes : ((setBreakpoints r).run.run t).Finishes s replies result u) :
    BreakpointResponse t s r replies result.1 := by
  rw [run_started named converted started] at finishes
  -- three ends lead to this answer: a wait given up, no answer, and a debuggee that is gone
  have unanswered : BreakpointResponse t s r [none] (.ok (some (flaggedBody r []))) := by
    rw [flaggedBody_nil]
    exact .unanswered named converted started
  -- the command is refused, or given a ticket under which a reply is awaited
  cases finishes with
  | @act _ _ _ s' _ _ ticket _ _ others performed rest =>
    have replying := (System.stable_replying []).meanwhile replying others
    cases ticket with
    | none =>
      cases rest
      exact .refused named converted started ⟨s', others, fun g => System.closed_of_submit performed⟩
    | some ticket =>
      obtain ⟨accepted, replying, known⟩ := replying.submit performed
      -- the wait for the reply is given up, or ends
      cases rest with
      | late others' waits rest =>
        cases rest
        exact unanswered
      | @act _ _ _ _ _ _ reply _ _ others' performed' rest =>
        cases rest
        cases reply with
        | none => exact unanswered
        | some reply =>
          have replying := (System.stable_replying accepted).meanwhile replying others'
          exact response_of_mayGive named converted started (replying.await known performed')

/-- How a request for breakpoints can finish. -/
theorem response_of_finishes {s u : System (AnswerLog σ)} (replying : s.Replying [])
    {replies : List (Option Reply)} {result : Except RequestFailure (Option Json) × Session}
    (finishes : ((setBreakpoints r).run.run t).Finishes s replies result u) :
    BreakpointResponse t s r replies result.1 := by
  cases named : requestedPath? r with
  | none =>
    rw [run_setBreakpoints_unnamed named] at finishes
    cases finishes
    exact .unnamed named
  | some path =>
    cases converted : t.convention.pathToDebugger path with
    | none =>
      -- that it cannot be converted is noted if it is a URI
      rcases run_setBreakpoints_unconverted named converted with done | ⟨record, noted⟩
      · rw [done] at finishes
        cases finishes
        exact .unset named (.inl converted)
      · rw [noted] at finishes
        cases finishes with
        | act others performed rest =>
          cases rest
          exact .unset named (.inl converted)
    | some back =>
      -- without a debuggee the breakpoints are kept for later
      cases started : t.started with
      | false =>
        rw [run_setBreakpoints_unstarted named converted started] at finishes
        cases finishes
        exact .unset named (.inr started)
      | true => exact response_of_finishes_started replying named converted started finishes

/-- No action of such a request has to wait, but for the reply. -/
private theorem awaitsReplies_setBreakpoints (r : Request) :
    Uses (Program.AwaitsReplies σ) (fun _ => True) (setBreakpoints r).run := by
  have use : AskUse (Program.AwaitsReplies σ) fun _ => True :=
  { note := fun _ => .inr fun _ => rfl
    submit := fun _ _ => .inr fun _ => rfl
    interrupt := .inr fun _ => rfl
    await := fun ticket => .inl ⟨ticket, rfl⟩
    keeps := fun _ _ => trivial }
  exact use.setBreakpoints r

/-- The engine thread replaces the breakpoints of the file by those of the lines that it verifies, one
result for each line, and leaves those of other files. In whatever state a session is, its response has an
entry for each line of the request, unless the request names no file or the debuggee takes no commands
any more. -/
theorem responds_setBreakpoints (σ : Type) [Engine σ] :
    (∀ (w : Worker (AnswerLog σ)) (file : String) (lines : List UInt32), w.breakpoints.WellFormed →
      w.breakpoints.lastId.toNat + lines.length < UInt32.size → ∃ tries,
        Worker.Replaced file lines w ((Worker.setBreakpoints file lines).run w).1
          ((Worker.setBreakpoints file lines).run w).2 tries) ∧
    ∀ (provider : EngineProvider (AnswerLog σ)) (host : Host) (console : Option LogFilter)
      (native : AnswerLog σ) (config : AdapterConfig) (engineName : String) (environment : Environment)
      (messages : List Json) (closed : Bool) (schedule : List SessionThread) (t : Session) (r : Request),
      let new := SessionRun.new provider host console native config engineName environment messages closed
      let s := (new.run schedule).system
      let p := (setBreakpoints r).run.run t
      (∃ replies result u, p.Finishes s replies result u) ∧
      ∀ replies result u, p.Finishes s replies result u → t.BreakpointResponse s r replies result.1 := by
  refine ⟨Worker.replaced_setBreakpoints, ?_⟩
  intro provider host console native config engineName environment messages closed schedule t r new s p
  -- a session that begins has no gateway, so nothing is owed to anyone
  have unopened : new.system.Replying [] := ⟨trivial, fun g gateway => nomatch gateway⟩
  refine ⟨?_, fun replies result u finishes => ?_⟩
  · exact Program.exists_finishes (awaitsReplies_setBreakpoints r t trivial) s
  · exact response_of_finishes (SessionRun.replying_run unopened schedule) finishes

/-- A worker whose engine knows two lines of a file. -/
def knowingLines : Worker (AnswerLog Scripted.World) where
  session := { engine := { engine := { lines := [("a.rs", 3, 0x1000), ("a.rs", 5, 0x2000)] } } }

/-- That worker, when it was asked for breakpoints on two lines, one of which it does not know. -/
def withBreakpoint : Worker (AnswerLog Scripted.World) :=
  ((Worker.setBreakpoints "a.rs" [3, 4]).run knowingLines).2

/-- A line that is asked for twice has two breakpoints. -/
theorem responds_setBreakpoints_twice :
    withBreakpoint.breakpoints.WellFormed ∧ withBreakpoint.breakpoints.idsOf "a.rs" = [1] ∧
    ∃ tries, Worker.Replaced "a.rs" [5, 4, 5] withBreakpoint
      [⟨⟨"a.rs", 5⟩, true⟩, ⟨⟨"a.rs", 4⟩, false⟩, ⟨⟨"a.rs", 5⟩, true⟩]
      ((Worker.setBreakpoints "a.rs" [5, 4, 5]).run withBreakpoint).2 tries := by
  have replaced := (responds_setBreakpoints Scripted.World).1
  obtain ⟨tries, first⟩ := replaced knowingLines "a.rs" [3, 4] BreakpointTable.wellFormed_empty (by decide)
  obtain ⟨tries', second⟩ := replaced withBreakpoint "a.rs" [5, 4, 5] first.wellFormed (by decide +kernel)
  have results : ((Worker.setBreakpoints "a.rs" [5, 4, 5]).run withBreakpoint).1 =
      [⟨⟨"a.rs", 5⟩, true⟩, ⟨⟨"a.rs", 4⟩, false⟩, ⟨⟨"a.rs", 5⟩, true⟩] := by decide +kernel
  exact ⟨first.wellFormed, by decide +kernel, tries', results ▸ second⟩

/-- A client whose debuggee exits asks for breakpoints. -/
def afterExit : List Json :=
  [.object [("seq", .int 1), ("type", .str "request"), ("command", .str "initialize"),
      ("arguments", .object [("linesStartAt1", .bool true), ("pathFormat", .str "path")])],
    .object [("seq", .int 2), ("type", .str "request"), ("command", .str "attach"),
      ("arguments", .object [("processId", .int 7)])],
    .object [("seq", .int 3), ("type", .str "request"), ("command", .str "continue")],
    .object [("seq", .int 4), ("type", .str "request"), ("command", .str "setBreakpoints"),
      ("arguments", .object [("source", .object [("path", .str "/src/a.rs")]),
        ("lines", .arr [.int 3, .int 9])])]]

/-- The session of that client, whose last request is looked at after the debuggee has exited. -/
def exitedSession : SessionRun Scripted.World (Bool × Session) :=
  (SessionRun.new Scripted.provider { processes := [⟨7, none⟩] } none
    { lines := [("/src/a.rs", 3, 0x1000)], stops := [{ events := [.processExited 0] }] } {} "fake" []
    afterExit false).run ((List.replicate 27 [.requests, .engine, .forwarder]).flatten ++
      (List.replicate 15 [.engine, .forwarder]).flatten ++ List.replicate 9 .requests)

/-- A worker that has given out all ids, and has a breakpoint of a file whose lines its engine does not
know. -/
def withoutIds : Worker (AnswerLog Scripted.World) :=
  { knowingLines with breakpoints := ⟨0xFFFFFFFF, [(0, ⟨"b.rs", 1⟩)], [("b.rs", [0])]⟩ }

/-- When the debuggee has exited, a request for breakpoints on two lines is refused, and its response has no
entries. When all ids were given out, a new breakpoint takes the place of one of another file. -/
theorem refused_after_exit :
    (exitedSession.system.outbox.messages.filterMap fun
      | .response a => some (a.command, a.failure, (a.body.bind (·.member? "breakpoints")).isSome)
      | .event _ => none) = [("initialize", none, false), ("attach", none, false),
        ("continue", none, false), ("setBreakpoints", some ErrorMessage.noDebuggee.text, false)] ∧
    (withoutIds.breakpoints.get? 0 = some ⟨"b.rs", 1⟩ ∧
      ((Worker.setBreakpoints "a.rs" [3]).run withoutIds).2.breakpoints.get? 0 = some ⟨"a.rs", 3⟩) := by
  decide +kernel

end Session

end DebugAdapter
