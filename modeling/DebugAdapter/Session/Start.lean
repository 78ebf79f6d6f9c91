import DebugAdapter.Session.Basic
import DebugAdapter.Width

/-!
# Starting a debuggee

Launching a program and attaching to a process: the arguments of these requests, the gateway that is
made for the debuggee, and what follows when it has been started.
-/

namespace DebugAdapter

/-- The program to debug: an existing file, looked for in the working directory first, or a program
of the search path. -/
def LaunchRequest.findTarget (program : String) (directory : Option String) :
    Program (Option String) := do
  let mut target := program
  if let some directory := directory then
    if !Path.isAbsolute program then
      let inside := Path.join directory program
      if ← Program.perform (.pathExists inside) then target := inside
  if ← Program.perform (.pathExists target) then return some target
  Program.perform (.findProgram program)

/-- The command line of a program. -/
def LaunchRequest.commandLineOf (target : String) (args : List String) : String :=
  Text.trimmed (target ++ " " ++ " ".intercalate args)

/-- The request to launch a program; none if there is no such program. -/
def LaunchRequest.find (program : String) (args : List String) (directory : Option String) :
    Program (Option LaunchRequest) := do
  return (← findTarget program directory).map fun target =>
    { target, commandLine := commandLineOf target args }

/-- The request to attach to a process; none if there is no such process. -/
def AttachRequest.find (pid : UInt32) : Program (Option AttachRequest) := do
  return (← Program.perform (.findProcess pid)).map fun p => { pid, target := p.executable }

namespace Session

/-- An error whose text is its only value. -/
def plainError (code : ErrorCode) (text : String) : ErrorMessage :=
  { code, format := ErrorMessage.hole "_error" : ErrorMessage } |>.withText "_error" text

/-- Refuse a second debuggee. -/
def ensureNotStarted (code : ErrorCode) : RequestM Unit := do
  if (← getThe Session).started then
    failWith { code, format := "Debuggee is already started." }

/-- Make an engine and a gateway on it. -/
def openGateway (r : Request) (code : ErrorCode) : RequestM Unit := do
  let s ← getThe Session
  -- the request comes before the configuration
  let enginePath := r.text? "windbgpath" <|> r.text? "enginePath" <|> s.config.engineOptions.enginePath
  let (stdLibrary, record) ← act .findStdLibrary
  if let some record := record then act (.note record)
  match ← act (.openGateway { enginePath } (s.config.gatewayOptions s.environment stdLibrary)) with
  | .error e => failWith (plainError code e.message)
  | .ok () => modifyThe Session fun s => { s with forwarding := true }

/-- Hand a command to the engine thread although no debuggee has been started. -/
def startCommand (c : Command) : RequestM Reply := do
  orFailWith .noDebuggee (← ExceptT.lift (command? c))

/-- Whether a command to run the debuggee has failed. -/
def executionFailure? : Reply → Option ExecutionFailure
  | .executed (.error e) => some e
  | _ => none

/-- Let the debuggee run. The session counts as running before the command is executed, since a stop
may be reported before the answer; if the command fails, it is what it was before. -/
def runDebuggee (c : Command) : RequestM Unit := do
  if !(← getThe Session).started then failWith .noDebuggee
  let previous ← state
  advanceTo .running
  match ← ExceptT.lift (command? c) with
  | none =>
    advanceTo previous
    failWith .noDebuggee
  | some r =>
    match executionFailure? r with
    | none => return ()
    | some e =>
      advanceTo previous
      throw (.other e.message)

/-- The threads of the debuggee. -/
def debuggeeThreads : RequestM (List (Registered Thread)) := do
  match ← command .threads with
  | .threads l => return l
  | _ => return []

/-- Let the debuggee run that was held at its first stop. -/
def continueAfterConfiguration : RequestM Unit := do
  -- a debuggee without a thread to tell of is let run as well
  if let some t := (← debuggeeThreads).head? then
    sendEvent (.ofJson "continued" (.object
      [("threadId", .int t.content.systemId.toNat), ("allThreadsContinued", .bool true)]))
  runDebuggee .continue

/-- Set breakpoints in a file of the debuggee. -/
def setDebuggeeBreakpoints (path : String) (lines : List UInt32) : RequestM (List Bool) := do
  let file := (← getThe Session).sourceMap.toTarget path
  match ← command (.setBreakpoints file lines) with
  | .breakpoints results => return results.map (·.verified)
  | _ => return []

/-- Set the breakpoints that came before there was a debuggee. -/
def applyPendingBreakpoints : RequestM Unit := do
  let pending := (← getThe Session).pending
  modifyThe Session fun s => { s with pending := [] }
  for (path, lines) in pending do
    let file := (← getThe Session).sourceMap.toTarget path
    let verified ← setDebuggeeBreakpoints path lines
    ExceptT.lift (log .debug (toString (verified.countP id) ++ " of " ++
      toString verified.length ++ " breakpoints set in " ++ file))

/-- Go on when the engine thread has answered whether the debuggee was started. -/
def finishStart (r : Request) (code : ErrorCode) (reply : Reply) : RequestM (Option Json) := do
  match reply with
  | .launched (.ok process) =>
    ExceptT.lift (log .info ("debuggee started, pid " ++ toString process.pid.toNat))
    modifyThe Session fun s => { s with sourceMap := .ofArguments r.arguments, started := true }
    advanceTo .stopped
    -- the breakpoints are in the engine before the debuggee goes on
    applyPendingBreakpoints
    if (← getThe Session).configurationDone then continueAfterConfiguration
    return none
  | reply =>
    let failure := match reply with
      | .launched (.error e) => e
      | _ => .noAnswer
    -- a gateway without a debuggee ends, and its forwarder with it, before the failure is told
    ExceptT.lift (StateT.lift dispose)
    ExceptT.lift joinForwarder
    failWith (plainError code failure.message)

/-- Launch a program. -/
def launch (r : Request) : RequestM (Option Json) := do
  ensureNotStarted .failedToLaunch
  let program ← orFailWith (.missingArgument "target")
    ((r.text? "target" <|> r.text? "program").filter fun p => !Text.isAllBlank p)
  let mut directory := none
  if let some path := r.text? "workingDir" <|> r.text? "cwd" then
    -- a directory that is not there is passed over
    if ← act (.isDirectory path) then
      directory := some path
      act (.setDirectory path)
  let found ← ExceptT.lift (StateT.lift (LaunchRequest.find program (r.texts "args") directory))
  let request ← orFailWith
    ({ code := .targetDoesNotExist
       format := "Could not launch '" ++ ErrorMessage.hole "_target" ++ "' as it does not exist." :
       ErrorMessage }.withText "_target" program) found
  ExceptT.lift (log .info ("launch `" ++ request.commandLine ++ "`"))
  openGateway r .failedToLaunch
  let request := { request with
    sourcePaths := r.texts "sourcePaths", symbolPaths := r.texts "symbolPaths" }
  finishStart r .failedToLaunch (← startCommand (.launch request))

/-- The process with an id that may not be one. -/
def findProcess (pid : Int) : Program (Except UInt32 AttachRequest) := do
  match word32? pid with
  -- a number that is no id is reported as process zero
  | none => return .error 0
  | some id =>
    match ← AttachRequest.find id with
    | some request => return .ok request
    | none => return .error id

/-- The wording for a process that is not there. -/
def processNotFound (pid : UInt32) : String :=
  "process with pid " ++ toString pid.toNat ++ " not found"

/-- Attach to a process. -/
def attach (r : Request) : RequestM (Option Json) := do
  ensureNotStarted .failedToAttach
  let pid ← orFailWith (.missingArgument "processId") (r.int? "processId")
  match ← ExceptT.lift (StateT.lift (findProcess pid)) with
  | .error id =>
    failWith ({ code := .failedToAttach
                format := "Could not attach to process " ++ ErrorMessage.hole "_pid" ++ ": " ++
                  ErrorMessage.hole "_error" : ErrorMessage }
      |>.withValue "_pid" (.int pid) |>.withText "_error" (processNotFound id))
  | .ok request =>
    ExceptT.lift (log .info ("attach to process " ++ toString pid))
    openGateway r .failedToAttach
    let request := { request with
      sourcePaths := r.texts "sourcePaths", symbolPaths := r.texts "symbolPaths" }
    finishStart r .failedToAttach (← startCommand (.attach request))

end Session

end DebugAdapter
