import DebugAdapter.Proofs.CommandFrame
import DebugAdapter.Session.Handle

/-!
# What requests do to what is shared

A program is a tree of actions, and what holds of all its actions holds whatever they give. The
requests of a session are put together from a few kinds of actions: all make log records, and call the
gateway to inspect the debuggee (`Session.AskUse`) or to let it run, for which the session state is
advanced (`Session.CallUse`); some look at the host, make gateways, and dispose of them
(`Session.StartUse`). When a request was carried out, it is answered (`Session.AnswerUse`).

## Key results

- `Session.AskUse.dispatch`: the requests that inspect the debuggee
- `Session.CallUse.dispatch`: the requests that neither begin nor end anything
- `Session.launch_eq`, `Session.attach_eq`: what is looked up for a debuggee, and the start of it
- `Session.StartUse.dispatch`: all requests but the one to begin the session
- `Session.RequestUse.receiveAll`, `Session.RequestUse.serve`: all requests, with their answers
-/

namespace DebugAdapter

/-! ## All actions of a program -/

namespace Program

variable {α β : Type} {P : Action → Prop}

/-- All actions of a program are of a kind, and so are its results. -/
def All (P : Action → Prop) (Q : α → Prop) : Program α → Prop
  | done a => Q a
  | act a next => P a ∧ ∀ r, (next r).All P Q

/-- The actions of two programs in a row are those of the first and those of the second. -/
theorem All.bind {Q : α → Prop} {Q' : β → Prop} {p : Program α} {f : α → Program β} (hp : p.All P Q)
    (hf : ∀ a, Q a → (f a).All P Q') : (p >>= f).All P Q' := by
  induction p with
  | done a => exact hf a hp
  | act a next ih => exact ⟨hp.1, fun r => ih r (hp.2 r)⟩

/-- What holds of all actions can be weakened. -/
theorem All.mono {P' : Action → Prop} {Q : α → Prop} {p : Program α} (hp : p.All P Q)
    (imp : ∀ a, P a → P' a) : p.All P' Q := by
  induction p with
  | done a => exact hp
  | act a next ih => exact ⟨imp a hp.1, fun r => ih r (hp.2 r)⟩

/-- A program of one action does that action. -/
theorem all_perform {a : Action} (h : P a) : (perform a).All P fun _ => True :=
  ⟨h, fun _ => trivial⟩

/-- Nothing is asked of the actions. -/
theorem all_trivial (p : Program α) : p.All (fun _ => True) fun _ => True := by
  induction p with
  | done a => trivial
  | act a next ih => exact ⟨trivial, ih⟩

end Program

/-- The action hands a command to the engine thread, or waits for the answer. -/
def Action.Calls : Action → Prop
  | submit _ | interrupt | await _ => True
  | _ => False

/-- The action is a part of disposing of the gateway, or waits for its forwarder. -/
def Action.Disposes : Action → Prop
  | markDisposed | closeQueue | cancel | interrupt | awaitEnd | silence | joinForwarder => True
  | _ => False

/-- The action looks at the machine. -/
def Action.OnHost : Action → Prop
  | engineSupported | pathExists _ | isDirectory _ | findProgram _ | setDirectory _ | findProcess _
  | findStdLibrary => True
  | _ => False

/-- The action makes a gateway. -/
def Action.Opens : Action → Prop
  | openGateway .. => True
  | _ => False

/-- The request lets the debuggee run, or may do so. -/
def Request.Resumes (r : Request) : Prop :=
  r.command ∈ ["configurationDone", "continue", "next", "stepIn", "stepOut"]

namespace Session

/-- The events that wait to be sent are such as may be sent. -/
def Sendable (P : Action → Prop) (t : Session) : Prop :=
  ∀ e ∈ t.deferred, P (.send (.event e))

/-- Work of the session thread by actions of a kind, in which the session stays as `S` says. -/
def Uses {α : Type} (P : Action → Prop) (S : Session → Prop) (m : SessionM α) : Prop :=
  ∀ t, S t → (m.run t).All P fun r => S r.2

namespace Uses

variable {α β : Type} {P : Action → Prop} {S : Session → Prop}

/-- Returning a value uses nothing. -/
theorem pure (a : α) : Uses P S (Pure.pure a : SessionM α) :=
  fun _ h => h

/-- Two steps in a row use what each of them uses. -/
theorem bind {m : SessionM α} {f : α → SessionM β} (hm : Uses P S m) (hf : ∀ a, Uses P S (f a)) :
    Uses P S (m >>= f) :=
  fun t ht => (hm t ht).bind fun r hr => hf r.1 r.2 hr

/-- What is allowed for the actions can be widened. -/
theorem mono {P' : Action → Prop} {m : SessionM α} (hm : Uses P S m) (imp : ∀ a, P a → P' a) :
    Uses P' S m :=
  fun t ht => (hm t ht).mono imp

/-- Reading the session uses nothing. -/
theorem get : Uses P S (MonadState.get : SessionM Session) :=
  fun _ h => h

/-- A change of the session that keeps the invariant uses nothing. -/
theorem modify {f : Session → Session} (h : ∀ t, S t → S (f t)) :
    Uses P S (modify f : SessionM PUnit) :=
  h

/-- A program uses what its actions are. -/
theorem lift {p : Program α} (h : p.All P fun _ => True) : Uses P S (StateT.lift p : SessionM α) :=
  fun _ ht => h.bind fun _ _ => ht

/-- One action uses itself. -/
theorem perform {a : Action} (h : P a) : Uses P S (Session.perform a) :=
  lift (Program.all_perform h)

/-! ### Work on a request -/

/-- A request that returns a value uses nothing. -/
theorem ok (a : α) : Uses P S (Pure.pure a : RequestM α).run :=
  .pure _

/-- A request that fails uses nothing. -/
theorem error (e : RequestFailure) : Uses P S (throw e : RequestM α).run :=
  .pure _

/-- A request that fails with a message uses nothing. -/
theorem failWith (m : ErrorMessage) : Uses P S (Session.failWith m : RequestM α).run :=
  .pure _

/-- A request that may fail with a message uses nothing. -/
theorem orFailWith (m : ErrorMessage) (o : Option α) : Uses P S (Session.orFailWith m o).run := by
  cases o <;> exact .pure _

/-- A step of the session uses the same within a request. -/
theorem liftM {m : SessionM α} (hm : Uses P S m) : Uses P S (ExceptT.lift m : RequestM α).run :=
  hm.bind fun _ => .pure _

/-- One action of a request uses itself. -/
theorem act {a : Action} (h : P a) : Uses P S (Session.act a).run :=
  (Uses.perform h).liftM

/-- Two steps of a request in a row use what each of them uses. -/
theorem bindExcept {m : RequestM α} {f : α → RequestM β} (hm : Uses P S m.run)
    (hf : ∀ a, Uses P S (f a).run) : Uses P S (m >>= f).run := by
  rw [ExceptT.run_bind]
  refine hm.bind fun r => ?_
  cases r with
  | ok a => exact hf a
  | error e => exact .pure _

/-- A loop uses what its steps use. -/
theorem forInExcept {γ : Type} {f : γ → β → RequestM (ForInStep β)}
    (hf : ∀ a b, Uses P S (f a b).run) (l : List γ) (b : β) :
    Uses P S (ForIn.forIn l b f : RequestM β).run := by
  induction l generalizing b with
  | nil => exact .ok b
  | cons a l ih =>
    rw [List.forIn_cons]
    refine (hf a b).bindExcept fun step => ?_
    cases step with
    | done b => exact .ok b
    | yield b => exact ih b

end Uses

/-! ## Requests to a debuggee -/

/-- The sessions agree on whether there is a debuggee and a forwarder, and on what waits to be sent. -/
structure Agree (t t' : Session) : Prop where
  started : t'.started = t.started
  forwarding : t'.forwarding = t.forwarding
  deferred : t'.deferred = t.deferred

/-- A command is queued, and the answer is waited for. -/
theorem Uses.command? {P : Action → Prop} {S : Session → Prop} {c : Command} (submit : P (.submit c))
    (interrupt : P .interrupt) (await : ∀ ticket, P (.await ticket)) :
    Uses P S (Session.command? c) := by
  refine (Uses.perform submit).bind fun ticket => ?_
  have awaited : ∀ ticket, Uses P S (do
      return (← Session.perform (.await ticket)).getD c.defaultReply) :=
    fun ticket => (Uses.perform (await ticket)).bind fun _ => .pure _
  cases ticket with
  | none => exact .pure _
  | some ticket =>
    dsimp only
    split
    · exact (Uses.perform interrupt).bind fun _ => (awaited ticket).bind fun _ => .pure _
    · exact (awaited ticket).bind fun _ => .pure _

/-- The kinds of actions of requests that inspect a debuggee. They do not change whether there is one. -/
structure AskUse (P : Action → Prop) (S : Session → Prop) : Prop where
  note : ∀ r, P (.note r)
  submit : ∀ c : Command, c.inspects = true → P (.submit c)
  interrupt : P .interrupt
  await : ∀ ticket, P (.await ticket)
  keeps : ∀ {t t'}, S t → t.Agree t' → S t'

namespace AskUse

variable {P : Action → Prop} {S : Session → Prop} (F : AskUse P S)
include F

/-- A change to what is not tracked uses nothing. -/
theorem setting {f : Session → Session} (agree : ∀ t : Session, t.Agree (f t)) :
    Uses P S (modify f : SessionM PUnit) :=
  .modify fun t ht => F.keeps ht (agree t)

/-- A record in the log uses an action of its own. -/
theorem log (level : LogLevel) (message : String) : Uses P S (Session.log level message) :=
  .perform (F.note _)

/-- A command that only inspects may be asked. -/
theorem command {c : Command} (hc : c.inspects = true) : Uses P S (Session.command c).run := by
  have asked : Uses P S (do Session.orFailWith .noDebuggee (← ExceptT.lift (Session.command? c)) :
      RequestM Reply).run :=
    (Uses.command? (F.submit c hc) F.interrupt F.await).liftM.bindExcept fun _ => .orFailWith _ _
  refine Uses.get.liftM.bindExcept fun s => ?_
  split
  · exact (Uses.failWith _).bindExcept fun _ => asked
  · exact asked

/-- Asking for the threads of the debuggee only inspects. -/
theorem debuggeeThreads : Uses P S Session.debuggeeThreads.run := by
  refine (F.command rfl).bindExcept fun reply => ?_
  split <;> exact .ok _

/-- Setting the breakpoints of a file only asks. -/
theorem setDebuggeeBreakpoints (path : String) (lines : List UInt32) :
    Uses P S (Session.setDebuggeeBreakpoints path lines).run := by
  refine Uses.get.liftM.bindExcept fun s => (F.command rfl).bindExcept fun reply => ?_
  split <;> exact .ok _

/-- Setting the breakpoints that waited for the debuggee only asks. -/
theorem applyPendingBreakpoints : Uses P S Session.applyPendingBreakpoints.run := by
  refine Uses.get.liftM.bindExcept fun s => ?_
  refine (F.setting fun _ => ⟨by rfl, by rfl, by rfl⟩).liftM.bindExcept fun _ => ?_
  refine (Uses.forInExcept (fun p _ => ?_) _ _).bindExcept fun _ => .ok _
  refine Uses.get.liftM.bindExcept fun s => (F.setDebuggeeBreakpoints _ _).bindExcept fun verified => ?_
  exact (F.log _ _).liftM.bindExcept fun _ => .ok _

/-- The request to set breakpoints only asks. -/
theorem setBreakpoints (r : Request) : Uses P S (Session.setBreakpoints r).run := by
  refine (Uses.orFailWith _ _).bindExcept fun path => ?_
  have named : Uses P S (Session.debuggerPath path).run := by
    refine Uses.get.liftM.bindExcept fun s => ?_
    dsimp only
    split
    · exact (Uses.act (F.note _)).bindExcept fun _ => .ok _
    · exact .ok _
  -- breakpoints are dropped, kept for later or set, by the state of the session
  have set : ∀ path lines, Uses P S (Session.setFileBreakpoints path lines).run := by
    intro path lines
    refine Uses.get.liftM.bindExcept fun s => ?_
    split
    · exact .ok _
    · exact (F.setting fun _ => ⟨by rfl, by rfl, by rfl⟩).liftM.bindExcept fun _ => .ok _
    · exact F.setDebuggeeBreakpoints _ _
  refine named.bindExcept fun path => Uses.get.liftM.bindExcept fun s => ?_
  exact (set _ _).bindExcept fun verified => .ok _

/-- The request to pause only asks. -/
theorem pause : Uses P S Session.pause.run := by
  refine (F.command rfl).bindExcept fun reply => ?_
  split
  · exact .error _
  · exact .ok _

/-- The request for a stack trace only asks. -/
theorem stackTrace (r : Request) : Uses P S (Session.stackTrace r).run := by
  refine (Uses.orFailWith _ _).bindExcept fun thread => ?_
  split
  · refine (F.command rfl).bindExcept fun reply => ?_
    cases reply <;>
      exact (Uses.ok _).bindExcept fun frames => Uses.get.liftM.bindExcept fun s => .ok _
  · exact .error _

/-- The request for scopes only asks. -/
theorem scopes (r : Request) : Uses P S (Session.scopes r).run := by
  refine (Uses.orFailWith _ _).bindExcept fun frame => (F.command rfl).bindExcept fun reply => ?_
  split <;> exact (Uses.ok _).bindExcept fun scopes => .ok _

omit F in
/-- Reading the reference of a request uses nothing. -/
theorem variablesReference (r : Request) : Uses P S (Session.variablesReference r).run :=
  (Uses.orFailWith _ _).bindExcept fun _ => .ok _

/-- The request for variables only asks. -/
theorem listVariables (r : Request) : Uses P S (Session.listVariables r).run := by
  refine (variablesReference r).bindExcept fun reference => ?_
  split
  · exact .ok _
  · refine (F.command rfl).bindExcept fun reply => ?_
    split <;> exact (Uses.ok _).bindExcept fun found => .ok _

/-- The request to set a variable only asks. -/
theorem setVariable (r : Request) : Uses P S (Session.setVariable r).run := by
  refine (variablesReference r).bindExcept fun reference => ?_
  refine (Uses.orFailWith _ _).bindExcept fun name => (Uses.orFailWith _ _).bindExcept fun value => ?_
  refine (F.command rfl).bindExcept fun reply => ?_
  split
  · exact .ok _
  · exact .error _
  · exact .error _

/-- The request for threads only asks. -/
theorem threads : Uses P S Session.threads.run := by
  refine Uses.get.liftM.bindExcept fun s => ?_
  split
  · exact F.debuggeeThreads.bindExcept fun threads => .ok _
  · exact (Uses.ok _).bindExcept fun threads => .ok _

/-- The request to evaluate only asks. -/
theorem evaluate (r : Request) : Uses P S (Session.evaluate r).run := by
  refine (Uses.orFailWith _ _).bindExcept fun expression => (F.command rfl).bindExcept fun reply => ?_
  split
  · exact .error _
  · exact .ok _
  · exact .ok _

/-- Requests that inspect the debuggee. -/
theorem dispatch {r : Request} (begins : r.command ≠ "initialize") (launch : r.command ≠ "launch")
    (attach : r.command ≠ "attach") (disconnect : r.command ≠ "disconnect") (holds : ¬r.Resumes) :
    Uses P S (Session.dispatch r).run := by
  -- the commands to resume are the only others that are left out
  have resumes : ∀ {command : String}, r.command = command →
      command ∈ ["configurationDone", "continue", "next", "stepIn", "stepOut"] → False := by
    rintro _ rfl h
    exact holds h
  -- one case for each command that has a handler
  unfold Session.dispatch
  split
  · next h => exact absurd h begins
  · next h => exact absurd h launch
  · next h => exact absurd h attach
  · next h => exact absurd h disconnect
  · -- the others neither start nor resume a debuggee, nor end a session
    exact F.setBreakpoints r
  · exact .ok _
  · exact .ok _
  · next h => exact (resumes h (by decide)).elim
  · next h => exact (resumes h (by decide)).elim
  · next h => exact (resumes h (by decide)).elim
  · next h => exact (resumes h (by decide)).elim
  · next h => exact (resumes h (by decide)).elim
  · exact F.pause
  · exact F.stackTrace r
  · exact F.scopes r
  · exact F.listVariables r
  · exact F.setVariable r
  · exact F.threads
  · exact F.evaluate r
  · exact .failWith _
  · exact .failWith _

end AskUse

/-- The kinds of actions of requests to a debuggee. They do not change whether there is one. -/
structure CallUse (P : Action → Prop) (S : Session → Prop) : Prop where
  read : P (.updateState id)
  advance : ∀ target, P (.updateState (SessionState.advanceTo target))
  continued : ∀ body, P (.send (.event (.ofJson "continued" body)))
  note : ∀ r, P (.note r)
  calls : ∀ a, a.Calls → P a
  keeps : ∀ {t t'}, S t → t.Agree t' → S t'

namespace CallUse

variable {P : Action → Prop} {S : Session → Prop} (F : CallUse P S)
include F

/-- Where the debuggee may be run, it may be asked as well. -/
theorem asking : AskUse P S where
  note := F.note
  submit := fun c _ => F.calls (.submit c) trivial
  interrupt := F.calls .interrupt trivial
  await := fun ticket => F.calls (.await ticket) trivial
  keeps := F.keeps

/-- A change to what is not tracked uses nothing. -/
theorem setting {f : Session → Session} (agree : ∀ t : Session, t.Agree (f t)) :
    Uses P S (modify f : SessionM PUnit) :=
  F.asking.setting agree

/-- A record in the log uses an action of its own. -/
theorem log (level : LogLevel) (message : String) : Uses P S (Session.log level message) :=
  F.asking.log level message

/-- Going on to a state is one action. -/
theorem advanceTo (target : SessionState) : Uses P S (Session.advanceTo target).run :=
  (Uses.act (F.advance target)).bindExcept fun _ => .ok _

/-- Every command may be asked. -/
theorem command? (c : Command) : Uses P S (Session.command? c) :=
  .command? (F.calls (.submit c) trivial) (F.calls .interrupt trivial)
    fun ticket => F.calls (.await ticket) trivial

/-- Running the debuggee asks a command and changes the state. -/
theorem runDebuggee (c : Command) : Uses P S (Session.runDebuggee c).run := by
  refine Uses.get.liftM.bindExcept fun s => ?_
  split
  case' isTrue => refine (Uses.failWith _).bindExcept fun _ => ?_
  all_goals
    refine (Uses.act F.read).bindExcept fun previous => (F.advanceTo .running).bindExcept fun _ => ?_
    refine (F.command? c).liftM.bindExcept fun reply => ?_
    split
    · exact (F.advanceTo previous).bindExcept fun _ => .failWith _
    · split
      · exact .ok _
      · exact (F.advanceTo previous).bindExcept fun _ => .error _

/-- The first continuation is a command like any other. -/
theorem continueAfterConfiguration : Uses P S Session.continueAfterConfiguration.run := by
  refine F.asking.debuggeeThreads.bindExcept fun threads => ?_
  split
  · exact (Uses.act (F.continued _)).bindExcept fun _ => F.runDebuggee .continue
  · exact F.runDebuggee .continue

/-- What follows when a debuggee has been started. -/
theorem afterStart : Uses P S (do
    Session.advanceTo .stopped
    Session.applyPendingBreakpoints
    if (← getThe Session).configurationDone then Session.continueAfterConfiguration
    return none : RequestM (Option Json)).run := by
  refine (F.advanceTo .stopped).bindExcept fun _ => F.asking.applyPendingBreakpoints.bindExcept fun _ => ?_
  refine Uses.get.liftM.bindExcept fun s => ?_
  split
  · exact F.continueAfterConfiguration.bindExcept fun _ => .ok _
  · exact .ok _

/-- The end of the configuration may set breakpoints and continue. -/
theorem finishConfiguration : Uses P S Session.finishConfiguration.run := by
  refine (F.setting fun _ => ⟨by rfl, by rfl, by rfl⟩).liftM.bindExcept fun _ => ?_
  refine Uses.get.liftM.bindExcept fun s => ?_
  split
  · refine (Uses.act F.read).bindExcept fun state => ?_
    split
    · exact F.continueAfterConfiguration.bindExcept fun _ => .ok _
    · exact .ok _
  · exact .ok _

/-- Requests that neither begin nor end anything. -/
theorem dispatch {r : Request} (begins : r.command ≠ "initialize") (launch : r.command ≠ "launch")
    (attach : r.command ≠ "attach") (disconnect : r.command ≠ "disconnect") :
    Uses P S (Session.dispatch r).run := by
  have ran : ∀ (c : Command) (body : Option Json),
      Uses P S (do Session.runDebuggee c; return body : RequestM (Option Json)).run :=
    fun c body => (F.runDebuggee c).bindExcept fun _ => .ok _
  by_cases resumes : r.Resumes
  · simp only [Request.Resumes, List.mem_cons, List.not_mem_nil, or_false] at resumes
    rcases resumes with h | h | h | h | h <;> simp only [Session.dispatch, h]
    · exact F.finishConfiguration
    all_goals exact ran _ _
  · exact F.asking.dispatch begins launch attach disconnect resumes

end CallUse

/-! ## Requests that start and end a debuggee -/

/-- Looking for a program looks at the machine only. -/
theorem all_findTarget {P : Action → Prop} (host : ∀ a, a.OnHost → P a) (program : String)
    (directory : Option String) :
    (LaunchRequest.findTarget program directory).All P fun _ => True := by
  -- a target that is not there is looked for on the search path
  have found : ∀ target, Program.All P (fun _ => True) (do
      if ← Program.perform (.pathExists target) then return some target
      Program.perform (.findProgram program)) := by
    intro target
    refine (Program.all_perform (host (.pathExists target) trivial)).bind fun there _ => ?_
    split
    · exact trivial
    · exact Program.all_perform (host (.findProgram program) trivial)
  unfold LaunchRequest.findTarget
  dsimp only
  split
  · split
    · refine (Program.all_perform (host (.pathExists _) trivial)).bind fun there _ => ?_
      split <;> exact found _
    · exact found _
  · exact found _

/-- Looking for a process looks at the machine only. -/
theorem all_findProcess {P : Action → Prop} (host : ∀ a, a.OnHost → P a) (pid : Int) :
    (findProcess pid).All P fun _ => True := by
  unfold findProcess
  split
  · exact trivial
  · have looked : ∀ pid, (AttachRequest.find pid).All P fun _ => True :=
      fun pid => (Program.all_perform (host (.findProcess pid) trivial)).bind fun _ h => h
    refine (looked _).bind fun request _ => ?_
    split <;> exact trivial

/-- Disposing of a gateway is such actions only. -/
theorem all_dispose {P : Action → Prop} (disposes : ∀ a, a.Disposes → P a) :
    dispose.All P fun _ => True := by
  refine (Program.all_perform (disposes .markDisposed trivial)).bind fun before _ => ?_
  split
  · exact trivial
  · exact ⟨disposes .closeQueue trivial, fun _ => ⟨disposes .cancel trivial, fun _ =>
      ⟨disposes .interrupt trivial, fun _ => ⟨disposes .awaitEnd trivial, fun _ =>
        Program.all_perform (disposes .silence trivial)⟩⟩⟩⟩

/-- The program that a request wants launched, which has to be there. -/
def requestedLaunch (r : Request) : RequestM LaunchRequest := do
  ensureNotStarted .failedToLaunch
  let program ← orFailWith (.missingArgument "target")
    ((r.text? "target" <|> r.text? "program").filter fun p => !Text.isAllBlank p)
  let mut directory := none
  if let some path := r.text? "workingDir" <|> r.text? "cwd" then
    if ← act (.isDirectory path) then
      directory := some path
      act (.setDirectory path)
  let found ← ExceptT.lift (StateT.lift (LaunchRequest.find program (r.texts "args") directory))
  let request ← orFailWith
    ({ code := .targetDoesNotExist
       format := "Could not launch '" ++ ErrorMessage.hole "_target" ++ "' as it does not exist." :
       ErrorMessage }.withText "_target" program) found
  ExceptT.lift (log .info ("launch `" ++ request.commandLine ++ "`"))
  return { request with
    sourcePaths := r.texts "sourcePaths", symbolPaths := r.texts "symbolPaths" }

/-- The process that a request wants attached to, which has to be there. -/
def requestedAttach (r : Request) : RequestM AttachRequest := do
  ensureNotStarted .failedToAttach
  let pid ← orFailWith (.missingArgument "processId") (r.int? "processId")
  match ← ExceptT.lift (StateT.lift (findProcess pid)) with
  | .error id =>
    failWith ({ code := .failedToAttach
                format := "Could not attach to process " ++ ErrorMessage.hole "_pid" ++ ": " ++
                  ErrorMessage.hole "_error" : ErrorMessage }
      |>.withValue "_pid" (.int pid) |>.withText "_error" (processNotFound id))
  | .ok request =>
    ExceptT.lift (log .info ("attach to process " ++ toString pid))
    return { request with
      sourcePaths := r.texts "sourcePaths", symbolPaths := r.texts "symbolPaths" }

/-- Make a gateway, and start a debuggee by a command. -/
def startBy (r : Request) (code : ErrorCode) (c : Command) : RequestM (Option Json) := do
  openGateway r code
  finishStart r code (← startCommand c)

/-- A program is looked for before anything is made for it. -/
theorem launch_eq (r : Request) :
    launch r = requestedLaunch r >>= fun request => startBy r .failedToLaunch (.launch request) := by
  unfold launch requestedLaunch startBy
  simp only [bind_assoc]
  refine bind_congr fun _ => bind_congr fun program => ?_
  cases r.text? "workingDir" <|> r.text? "cwd" with
  | none => simp only [bind_assoc, pure_bind]
  | some path =>
    simp only [bind_assoc]
    refine bind_congr fun there => ?_
    split <;> simp only [bind_assoc, pure_bind]

/-- A process is looked for before anything is made for it. -/
theorem attach_eq (r : Request) :
    attach r = requestedAttach r >>= fun request => startBy r .failedToAttach (.attach request) := by
  unfold attach requestedAttach startBy
  simp only [bind_assoc]
  refine bind_congr fun _ => bind_congr fun pid => bind_congr fun found => ?_
  cases found with
  | error id => rfl
  | ok request => simp only [bind_assoc, pure_bind]

namespace Uses

variable {P : Action → Prop} {S : Session → Prop}

/-- Refusing a second start uses nothing. -/
theorem ensureNotStarted (code : ErrorCode) : Uses P S (Session.ensureNotStarted code).run := by
  refine Uses.get.liftM.bindExcept fun s => ?_
  split
  · exact .failWith _
  · exact .ok _

/-- To look for a program, the machine is looked at. -/
theorem requestedLaunch (host : ∀ a, a.OnHost → P a) (note : ∀ r, P (.note r)) (r : Request) :
    Uses P S (Session.requestedLaunch r).run := by
  refine (ensureNotStarted _).bindExcept fun _ => (Uses.orFailWith _ _).bindExcept fun program => ?_
  -- the same is done once the directory is settled
  have looked : ∀ directory, Uses P S (do
      let found ← ExceptT.lift (StateT.lift (LaunchRequest.find program (r.texts "args") directory))
      let request ← Session.orFailWith
        ({ code := .targetDoesNotExist
           format := "Could not launch '" ++ ErrorMessage.hole "_target" ++ "' as it does not exist." :
           ErrorMessage }.withText "_target" program) found
      ExceptT.lift (Session.log .info ("launch `" ++ request.commandLine ++ "`"))
      return { request with
        sourcePaths := r.texts "sourcePaths", symbolPaths := r.texts "symbolPaths" } :
      RequestM LaunchRequest).run := by
    intro directory
    have found : (LaunchRequest.find program (r.texts "args") directory).All P fun _ => True :=
      (all_findTarget host _ _).bind fun _ h => h
    refine (Uses.lift found).liftM.bindExcept fun found => ?_
    exact (Uses.orFailWith _ _).bindExcept fun request =>
      (Uses.perform (note _)).liftM.bindExcept fun _ => .ok _
  -- the directory is changed only if it is there
  dsimp only
  split
  · refine (Uses.act (host (.isDirectory _) trivial)).bindExcept fun there => ?_
    split
    · exact (Uses.act (host (.setDirectory _) trivial)).bindExcept fun _ => looked _
    · exact looked _
  · exact looked _

/-- To look for a process, the machine is looked at. -/
theorem requestedAttach (host : ∀ a, a.OnHost → P a) (note : ∀ r, P (.note r)) (r : Request) :
    Uses P S (Session.requestedAttach r).run := by
  refine (ensureNotStarted _).bindExcept fun _ => (Uses.orFailWith _ _).bindExcept fun pid => ?_
  refine (Uses.lift (all_findProcess host pid)).liftM.bindExcept fun found => ?_
  cases found with
  | error id => exact .failWith _
  | ok request => exact (Uses.perform (note _)).liftM.bindExcept fun _ => .ok _

end Uses

/-- The command that starts a debuggee may be asked. -/
theorem CallUse.startCommand {P : Action → Prop} {S : Session → Prop} (F : CallUse P S)
    (c : Command) : Uses P S (Session.startCommand c).run :=
  (F.command? c).liftM.bindExcept fun _ => .orFailWith _ _

/-- The kinds of actions of requests that start and end a debuggee. -/
structure StartUse (P : Action → Prop) (S : Session → Prop) : Prop extends CallUse P S where
  host : ∀ a, a.OnHost → P a
  opens : ∀ a, a.Opens → P a
  disposes : ∀ a, a.Disposes → P a
  finish : P (.updateState fun _ => .terminated)
  starts : ∀ {t t'}, S t → t'.deferred = t.deferred → S t'

namespace StartUse

variable {P : Action → Prop} {S : Session → Prop} (F : StartUse P S)
include F

/-- A change that leaves the deferred events alone uses nothing. -/
theorem starting {f : Session → Session} (deferred : ∀ t, (f t).deferred = t.deferred) :
    Uses P S (modify f : SessionM PUnit) :=
  .modify fun t ht => F.starts ht (deferred t)

/-- Waiting for the forwarder is part of a disposal. -/
theorem joinForwarder : Uses P S Session.joinForwarder := by
  refine Uses.get.bind fun s => ?_
  split
  · exact (F.starting fun _ => by rfl).bind fun _ => .perform (F.disposes .joinForwarder trivial)
  · exact .pure _

/-- Opening a gateway asks the host and opens. -/
theorem openGateway (r : Request) (code : ErrorCode) : Uses P S (Session.openGateway r code).run := by
  refine Uses.get.liftM.bindExcept fun s => ?_
  refine (Uses.act (F.host .findStdLibrary trivial)).bindExcept fun found => ?_
  obtain ⟨stdLibrary, record⟩ := found
  -- whether there is a record to make or not, the gateway is made next
  dsimp only
  split
  · refine (Uses.act (F.note _)).bindExcept fun _ => ?_
    refine (Uses.act (F.opens (.openGateway _ _) trivial)).bindExcept fun result => ?_
    split
    · exact .failWith _
    · exact (F.starting fun _ => by rfl).liftM
  · refine (Uses.act (F.opens (.openGateway _ _) trivial)).bindExcept fun result => ?_
    split
    · exact .failWith _
    · exact (F.starting fun _ => by rfl).liftM

/-- The end of a start disposes the gateway again if the start failed. -/
theorem finishStart (r : Request) (code : ErrorCode) (reply : Reply) :
    Uses P S (Session.finishStart r code reply).run := by
  unfold Session.finishStart
  split
  · refine (F.log _ _).liftM.bindExcept fun _ => ?_
    refine (F.starting fun _ => by rfl).liftM.bindExcept fun _ => F.afterStart
  · exact (Uses.lift (all_dispose F.disposes)).liftM.bindExcept fun _ => F.joinForwarder.liftM.bindExcept fun _ =>
      .failWith _

/-- A start opens a gateway, asks one command, and ends. -/
theorem startBy (r : Request) (code : ErrorCode) (c : Command) :
    Uses P S (Session.startBy r code c).run :=
  (F.openGateway _ _).bindExcept fun _ => (F.startCommand _).bindExcept fun _ => F.finishStart _ _ _

/-- The request to launch asks the host first, and then starts. -/
theorem launch (r : Request) : Uses P S (Session.launch r).run := by
  rw [launch_eq]
  exact (Uses.requestedLaunch F.host F.note r).bindExcept fun _ => F.startBy _ _ _

/-- The request to attach asks the host first, and then starts. -/
theorem attach (r : Request) : Uses P S (Session.attach r).run := by
  rw [attach_eq]
  exact (Uses.requestedAttach F.host F.note r).bindExcept fun _ => F.startBy _ _ _

/-- A shutdown disposes. -/
theorem shutdown : Uses P S Session.shutdown := by
  refine Uses.get.bind fun s => ?_
  have disposed : Uses P S (do StateT.lift Session.dispose; Session.joinForwarder) :=
    (Uses.lift (all_dispose F.disposes)).bind fun _ => F.joinForwarder
  split
  · refine (F.starting fun _ => by rfl).bind fun _ => ?_
    refine (F.command? .terminate).bind fun reply => ?_
    split
    · exact (F.log _ _).bind fun _ => disposed
    · exact disposed
    · exact (F.log _ _).bind fun _ => disposed
  · exact F.joinForwarder

/-- Leaving a session disposes, and finishes. -/
theorem leave (closed : Bool) : Uses P S (Session.leave closed) := by
  unfold Session.leave
  split
  · exact (F.log _ _).bind fun _ => F.shutdown
  · exact F.shutdown

/-- The request to disconnect disposes. -/
theorem disconnect : Uses P S Session.disconnect.run :=
  (Uses.act F.finish).bindExcept fun _ => F.shutdown.liftM.bindExcept fun _ => .ok _

/-- All requests but the one to begin the session. -/
theorem dispatch {r : Request} (begins : r.command ≠ "initialize") :
    Uses P S (Session.dispatch r).run := by
  by_cases launch : r.command = "launch"
  · simpa only [Session.dispatch, launch] using F.launch r
  · by_cases attach : r.command = "attach"
    · simpa only [Session.dispatch, attach] using F.attach r
    · by_cases disconnect : r.command = "disconnect"
      · simpa only [Session.dispatch, disconnect] using F.disconnect
      · exact F.toCallUse.dispatch begins launch attach disconnect

end StartUse

/-! ## Answers -/

/-- The kinds of actions by which a request is answered. -/
structure ReplyUse (P : Action → Prop) (S : Session → Prop) : Prop where
  note : ∀ r, P (.note r)
  respond : ∀ r, P (.send (.response r))
  sendable : ∀ {t}, S t → t.Sendable P
  drops : ∀ {t}, S t → S { t with deferred := [] }

namespace ReplyUse

variable {P : Action → Prop} {S : Session → Prop} (F : ReplyUse P S)
include F

/-- Sending what was deferred sends nothing else. -/
theorem sendDeferred : Uses P S Session.sendDeferred := by
  intro t ht
  -- what is sent is what waited to be sent
  have sent : ∀ (l : List Event), (∀ e ∈ l, P (.send (.event e))) → Uses P S (forIn l PUnit.unit fun e _ => do
      Session.perform (.send (.event e))
      pure (ForInStep.yield PUnit.unit)) := by
    intro l hl
    -- induction on the events that were deferred
    induction l with
    | nil => exact .pure _
    | cons e l ih =>
      rw [List.forIn_cons]
      refine ((Uses.perform (hl e List.mem_cons_self)).bind fun _ => .pure _).bind fun step => ?_
      cases step with
      | done b => exact .pure _
      | yield b => exact ih fun e he => hl e (List.mem_cons_of_mem _ he)
  exact ((sent t.deferred (F.sendable ht)).bind fun _ => .pure _) { t with deferred := [] } (F.drops ht)

/-- After a request was carried out, or was not, it is answered. -/
theorem answer (r : Request) (result : Except RequestFailure (Option Json)) :
    Uses P S (do
      match result with
      | .ok body =>
        Session.perform (.send (.response (.success r body)))
        Session.sendDeferred
      | .error failure =>
        let message ← failureMessage r failure
        modify fun s => { s with deferred := [] }
        Session.log .debug ("error " ++ toString r.seq ++ ": " ++ message.text)
        Session.perform (.send (.response (.error r message)))) := by
  -- a failed request drops what it has deferred
  cases result with
  | ok body => exact (Uses.perform (F.respond _)).bind fun _ => F.sendDeferred
  | error failure =>
    have message : Uses P S (failureMessage r failure) := by
      cases failure with
      | reported m => exact .pure _
      | other text => exact (Uses.perform (F.note _)).bind fun _ => .pure _
    have dropped : Uses P S (modify fun s => { s with deferred := [] } : SessionM PUnit) :=
      .modify fun t ht => F.drops ht
    refine message.bind fun m => dropped.bind fun _ => (Uses.perform (F.note _)).bind fun _ => ?_
    exact .perform (F.respond _)

end ReplyUse

/-- The kinds of actions of requests to a debuggee, and of their answers. -/
structure AnswerUse (P : Action → Prop) (S : Session → Prop) : Prop
  extends CallUse P S, ReplyUse P S

/-- The request to begin a session. -/
theorem uses_beginSession {P : Action → Prop} {S : Session → Prop} (supported : P .engineSupported)
    (begins : P (.updateState (SessionState.advanceTo .initialized)))
    (convened : ∀ (t : Session) convention, S t → S { t with convention })
    (announces : ∀ {t}, S t → S { t with deferred := t.deferred ++ [.ofJson "initialized" .null] })
    (r : Request) : Uses P S (Session.beginSession r).run := by
  -- from here it does not matter which format was named
  have begun : ∀ (engineName : String) (convention : Convention), Uses P S (do
      modifyThe Session fun s => { s with convention }
      if !(← Session.act .engineSupported) then
        Session.failWith ({ code := .platformNotSupported
                            format := "Engine '" ++ ErrorMessage.hole "_engine" ++ "' is not supported on '" ++
                              ErrorMessage.hole "_platform" ++ "' platform." : ErrorMessage }
          |>.withText "_engine" engineName |>.withText "_platform" "linux")
      Session.advanceTo .initialized
      modifyThe Session fun s => { s with deferred := s.deferred ++ [.ofJson "initialized" .null] }
      return some capabilities : RequestM (Option Json)).run := by
    intro engineName convention
    have set : Uses P S (modify fun s => { s with convention } : SessionM PUnit) :=
      .modify fun t ht => convened t convention ht
    refine set.liftM.bindExcept fun _ => ?_
    refine (Uses.act supported).bindExcept fun supported => ?_
    have announced : Uses P S (modify fun s =>
        { s with deferred := s.deferred ++ [.ofJson "initialized" .null] } : SessionM PUnit) :=
      .modify fun t ht => announces ht
    have advanced : Uses P S (Session.advanceTo .initialized).run :=
      (Uses.act begins).bindExcept fun _ => .ok _
    have rest : Uses P S (do
        Session.advanceTo .initialized
        modifyThe Session fun s => { s with deferred := s.deferred ++ [.ofJson "initialized" .null] }
        return some capabilities : RequestM (Option Json)).run :=
      advanced.bindExcept fun _ => announced.liftM.bindExcept fun _ => .ok _
    -- a platform without an engine fails the request, which does nothing else
    split
    · exact (Uses.failWith _).bindExcept fun _ => rest
    · exact rest
  -- whether the request names a format for paths or not, the same steps follow
  refine Uses.get.liftM.bindExcept fun s => ?_
  dsimp only
  split
  · exact (Uses.orFailWith _ _).bindExcept fun format => begun _ _
  · exact begun _ _

/-- The kinds of actions of requests that neither start a debuggee nor end the session. -/
structure OrdinaryUse (P : Action → Prop) (S : Session → Prop) : Prop extends AnswerUse P S where
  supported : P .engineSupported
  announces : ∀ {t}, S t → S { t with deferred := t.deferred ++ [.ofJson "initialized" .null] }

namespace OrdinaryUse

variable {P : Action → Prop} {S : Session → Prop} (F : OrdinaryUse P S)
include F

/-- The request to initialize may be handled. -/
theorem beginSession (r : Request) : Uses P S (Session.beginSession r).run :=
  uses_beginSession F.supported (F.advance _)
    (fun _ _ ht => F.keeps ht ⟨rfl, rfl, rfl⟩) F.announces r

/-- Every request that neither starts nor ends a debuggee may be handled. -/
theorem dispatch {r : Request} (launch : r.command ≠ "launch") (attach : r.command ≠ "attach")
    (disconnect : r.command ≠ "disconnect") : Uses P S (Session.dispatch r).run := by
  by_cases begins : r.command = "initialize"
  · simpa only [Session.dispatch, begins] using F.beginSession r
  · exact F.toCallUse.dispatch begins launch attach disconnect

end OrdinaryUse

/-- The kinds of actions of all requests. -/
structure RequestUse (P : Action → Prop) (S : Session → Prop) : Prop
  extends OrdinaryUse P S, StartUse P S

namespace RequestUse

variable {P : Action → Prop} {S : Session → Prop} (F : RequestUse P S)
include F

/-- Every request may be handled. -/
theorem dispatch (r : Request) : Uses P S (Session.dispatch r).run := by
  by_cases begins : r.command = "initialize"
  · simpa only [Session.dispatch, begins] using F.beginSession r
  · exact F.toStartUse.dispatch begins

/-- A request is handled and answered. -/
theorem handle (r : Request) : Uses P S (Session.handle r) :=
  (F.log _ _).bind fun _ => (F.dispatch r).bind fun result => F.answer r result

/-- A message is handled if it is a request. -/
theorem receive (m : Json) : Uses P S (Session.receive m) := by
  unfold Session.receive
  split
  · exact (F.log _ _).bind fun _ => .pure _
  · split
    · exact (F.log _ _).bind fun _ => .pure _
    · exact (F.handle _).bind fun _ => .pure _

/-- Messages are handled one after the other. -/
theorem receiveAll (messages : List Json) : Uses P S (Session.receiveAll messages) := by
  induction messages with
  | nil => exact .pure _
  | cons m rest ih =>
    refine (F.receive m).bind fun goesOn => ?_
    split
    · exact ih
    · exact .pure _

/-- A session handles its messages, and is left at their end. -/
theorem serve (messages : List Json) (closed : Bool) : Uses P S (Session.serve messages closed) :=
  (F.receiveAll messages).bind fun _ => (F.leave _).bind fun _ => .pure _

end RequestUse

end Session

end DebugAdapter
