import DebugAdapter.Session.Start

/-!
# Requests

What each request does, and the response to it. Every request gets exactly one response; the events
that a request defers follow the response if the request was carried out, and are dropped if it
failed.
-/

namespace DebugAdapter.Session

/-- What the adapter can do. -/
def capabilities : Json :=
  .object [("supportsConfigurationDoneRequest", .bool true),
    ("supportsFunctionBreakpoints", .bool false), ("supportsConditionalBreakpoints", .bool false),
    ("supportsEvaluateForHovers", .bool true), ("supportsSetVariable", .bool true),
    ("exceptionBreakpointFilters", .arr [])]

/-- The convention of a client that tells how it counts lines. -/
def clientConvention (r : Request) (c : Convention) : Convention :=
  match r.bool? "linesStartAt1" with
  | some one => { c with client := { c.client with linesFromOne := one } }
  | none => c

/-- Begin a session. -/
def beginSession (r : Request) : RequestM (Option Json) := do
  let s ← getThe Session
  let mut convention := clientConvention r s.config.convention
  if let some format := r.text? "pathFormat" then
    let pathFormat ← orFailWith
      ({ code := .badPathFormat
         format := "initialize: bad value '" ++ ErrorMessage.hole "_format" ++ "' for pathFormat" :
         ErrorMessage }.withText "_format" format) (PathFormat.ofName? format)
    convention := { convention with client := { convention.client with pathFormat } }
  -- the convention holds even if there is no engine for this platform
  modifyThe Session fun s => { s with convention }
  if !(← act .engineSupported) then
    failWith ({ code := .platformNotSupported
                format := "Engine '" ++ ErrorMessage.hole "_engine" ++ "' is not supported on '" ++
                  ErrorMessage.hole "_platform" ++ "' platform." : ErrorMessage }
      |>.withText "_engine" s.engineName |>.withText "_platform" "linux")
  advanceTo .initialized
  modifyThe Session fun s => { s with deferred := s.deferred ++ [.ofJson "initialized" .null] }
  return some capabilities

/-- End the session. -/
def disconnect : RequestM (Option Json) := do
  -- the session is over first, so that the forwarder tells of no stop on the way to the end
  let _ ← act (.updateState fun _ => .terminated)
  ExceptT.lift shutdown
  return none

/-- The lines that a client wants breakpoints on. -/
def breakpointLines (r : Request) : List Int :=
  match r.argument? "breakpoints", r.argument? "lines" with
  | some (.arr breakpoints), _ =>
    breakpoints.filterMap fun b => (b.member? "line").bind Json.toInt64?
  -- lines alone count where there is no list of breakpoints
  | _, some (.arr lines) => lines.filterMap Json.toInt64?
  | _, _ => []

/-- Put breakpoints of a file in the place of those it has. -/
def putPending (path : String) (lines : List UInt32) :
    List (String × List UInt32) → List (String × List UInt32)
  | [] => [(path, lines)]
  | p :: rest => if p.1 = path then (path, lines) :: rest else p :: putPending path lines rest

/-- The debugger's name of a client's file. A name that cannot be converted is noted in the log. -/
def debuggerPath (path : String) : RequestM (Option String) := do
  let convention := (← getThe Session).convention
  let converted := convention.pathToDebugger path
  if converted.isNone ∧ convention.client.pathFormat = .uri then
    act (.note ⟨.warn, "dap", some "dbgeng_dap::dap::convention",
      "path not well formed: '" ++ path ++ "'"⟩)
  return converted

/-- Set the breakpoints of a file: in the debuggee, or, as long as there is none, in the list of
those to set later. The result tells which ones are verified. -/
def setFileBreakpoints (path : Option String) (lines : List UInt32) : RequestM (List Bool) := do
  match path, (← getThe Session).started with
  | none, _ => return List.replicate lines.length false
  | some path, false =>
    modifyThe Session fun s => { s with pending := putPending path lines s.pending }
    return List.replicate lines.length false
  | some path, true => setDebuggeeBreakpoints path lines

/-- Set the breakpoints of a file. -/
def setBreakpoints (r : Request) : RequestM (Option Json) := do
  let source := r.argument? "source"
  let path ← orFailWith (.missingArgument "source.path")
    ((source.bind (·.member? "path")).bind Json.toString?)
  let path ← debuggerPath path
  let clientLines := breakpointLines r
  let convention := (← getThe Session).convention
  let verified ← setFileBreakpoints path (clientLines.map convention.lineToDebugger)
  -- a line for which there is no result is not verified
  let breakpoints := clientLines.mapIdx fun i line => Json.object
    [("verified", .bool (verified[i]?.getD false)), ("line", .int line),
      ("source", source.getD .null)]
  return some (.object [("breakpoints", .arr breakpoints)])

/-- The client is done with its settings: let the debuggee run that is held. -/
def finishConfiguration : RequestM (Option Json) := do
  modifyThe Session fun s => { s with configurationDone := true }
  if (← getThe Session).started then
    if (← state) = .stopped then continueAfterConfiguration
  return none

/-- Let the debuggee run. -/
def resume : RequestM (Option Json) := do
  runDebuggee .continue
  return some (.object [("allThreadsContinued", .bool true)])

/-- Let a thread make a step. -/
def step (r : Request) (kind : StepKind) : RequestM (Option Json) := do
  runDebuggee (.step kind ((r.int? "threadId").bind word32?))
  return none

/-- Stop the debuggee. -/
def pause : RequestM (Option Json) := do
  match executionFailure? (← command .pause) with
  | some e => throw (.other e.message)
  | none => return none

/-- The client's name of the file of a frame. -/
def clientFile (s : Session) (file : String) : Option String :=
  s.convention.pathToClient (s.sourceMap.toClient file)

/-- The last part of a debugger's path. -/
def fileTitle (file : String) : String :=
  (Path.fileName? (String.ofList (Path.forward file.toList))).getD file

/-- A frame as it is shown. Without a source file that the client can name, it has no line. -/
def frameJson (s : Session) (f : Registered Frame) : Json :=
  let place := f.content.file.bind fun file => (s.clientFile file).map fun path => (file, path)
  let (line, column) : Int × Int :=
    if place.isSome then (s.convention.lineToClient f.content.line, 1) else (0, 0)
  .object ([("id", Json.int f.handle.raw), ("name", .str f.content.function), ("line", .int line),
    ("column", .int column),
    ("instructionPointerReference",
      .str ("0x" ++ Text.hexUpper f.content.instructionOffset.toNat))] ++
    Json.optional "source" (place.map fun (file, path) =>
      .object [("name", .str (fileTitle file)), ("path", .str path)]))

/-- The stack of a thread, or a page of it. -/
def stackTrace (r : Request) : RequestM (Option Json) := do
  let thread ← orFailWith (.missingArgument "threadId") (r.int? "threadId")
  let some id := word32? thread | throw (.other ("invalid thread id " ++ toString thread))
  let frames ← match ← command (.stackTrace id) with
    | .frames l => pure l
    | _ => pure []
  -- a page below zero starts at the innermost frame, and one of no size goes to the end
  let rest := frames.drop ((r.int? "startFrame").getD 0).toNat
  let page := match (r.int? "levels").filter (0 < ·) with
    | some levels => rest.take levels.toNat
    | none => rest
  let s ← getThe Session
  return some (.object
    [("stackFrames", .arr (page.map s.frameJson)), ("totalFrames", .int frames.length)])

/-- The scopes of a frame. -/
def scopes (r : Request) : RequestM (Option Json) := do
  let frame ← orFailWith (.missingArgument "frameId") (r.int? "frameId")
  let scopes ← match ← command (.scopes ⟨frame⟩) with
    | .scopes l => pure l
    | _ => pure []
  let shown := scopes.map fun s => Json.object
    [("name", .str s.content.kind.name), ("variablesReference", .int s.handle.raw),
      ("expensive", .bool false)]
  return some (.object [("scopes", .arr shown)])

/-- What a request wants the variables of. -/
def variablesReference (r : Request) : RequestM Handle := do
  let reference ← orFailWith
    { code := .missingVariablesReference, format := "Missing argument 'variablesReference'." }
    (r.int? "variablesReference")
  return ⟨reference⟩

/-- A variable as it is shown. -/
def variableJson (v : Registered Variable) : Json :=
  .object [("name", .str v.content.name), ("value", .str v.content.value),
    ("type", .str v.content.typeName), ("variablesReference", .int v.reference.raw)]

/-- The variables of a scope or the children of a variable. -/
def listVariables (r : Request) : RequestM (Option Json) := do
  let reference ← variablesReference r
  -- nothing is below the null handle, and the engine thread is not asked
  if reference.isNone then return some (.object [("variables", .arr [])])
  let found ← match ← command (.variables reference) with
    | .variables l => pure l
    | _ => pure []
  return some (.object [("variables", .arr (found.map variableJson))])

/-- Set a variable. -/
def setVariable (r : Request) : RequestM (Option Json) := do
  let reference ← variablesReference r
  let name ← orFailWith (.missingArgument "name") (r.text? "name")
  let value ← orFailWith (.missingArgument "value") (r.text? "value")
  match ← command (.setVariable reference name value) with
  | .variableSet (.ok v) =>
    return some (.object [("value", .str v.content.value), ("type", .str v.content.typeName),
      ("variablesReference", .int v.reference.raw)])
  | .variableSet (.error e) => throw (.other e.message)
  | _ => throw (.other (ValueFailure.notFound name).message)

/-- The threads of the debuggee, none as long as there is no debuggee. -/
def threads : RequestM (Option Json) := do
  let threads ← if (← getThe Session).started then debuggeeThreads else pure []
  let shown := threads.map fun t => Json.object
    [("id", .int t.content.systemId.toNat), ("name", .str t.content.name)]
  return some (.object [("threads", .arr shown)])

/-- Evaluate an expression. -/
def evaluate (r : Request) : RequestM (Option Json) := do
  let expression ← orFailWith (.missingArgument "expression") (r.text? "expression")
  let frame := (r.int? "frameId").map Handle.mk
  match ← command (.evaluate expression frame) with
  | .evaluated (.error e) => throw (.other e.message)
  | .evaluated (.ok v) =>
    return some (.object [("result", .str v.value), ("type", .str v.typeName),
      ("variablesReference", .int v.reference.raw)])
  | _ => return some (.object [("result", .str ""), ("type", .str ""), ("variablesReference", .int 0)])

/-- Carry out a request. The result is the body of the response. -/
def dispatch (r : Request) : RequestM (Option Json) :=
  match r.command with
  | "initialize" => beginSession r
  | "launch" => launch r
  | "attach" => attach r
  | "disconnect" => disconnect
  | "setBreakpoints" => setBreakpoints r
  | "setFunctionBreakpoints" => return some (.object [("breakpoints", .arr [])])
  | "setExceptionBreakpoints" => return none
  | "configurationDone" => finishConfiguration
  | "continue" => resume
  | "next" => step r .over
  | "stepIn" => step r .into
  | "stepOut" => step r .out
  | "pause" => pause
  | "stackTrace" => stackTrace r
  | "scopes" => scopes r
  | "variables" => listVariables r
  | "setVariable" => setVariable r
  | "threads" => threads
  | "evaluate" => evaluate r
  | "source" => failWith { code := .sourceNotSupported, format := "Source not supported" }
  | other => failWith (.unrecognizedRequest other)

/-- Send the events that were deferred. -/
def sendDeferred : SessionM Unit := do
  let deferred := (← get).deferred
  modify fun s => { s with deferred := [] }
  for e in deferred do perform (.send (.event e))

/-- The message that reports a failure. -/
def failureMessage (r : Request) : RequestFailure → SessionM ErrorMessage
  | .reported m => return m
  | .other text => do
    log .error ("request " ++ r.command ++ " failed: " ++ text)
    return .dispatchFailed r.command text

/-- Carry out a request and respond to it. -/
def handle (r : Request) : SessionM Unit := do
  log .debug (toString r.seq ++ ": " ++ r.command)
  match ← (dispatch r).run with
  | .ok body =>
    perform (.send (.response (.success r body)))
    sendDeferred
  | .error failure =>
    -- what a failed request wanted to tell is dropped
    let message ← failureMessage r failure
    modify fun s => { s with deferred := [] }
    log .debug ("error " ++ toString r.seq ++ ": " ++ message.text)
    perform (.send (.response (.error r message)))

/-- Take a message of the client. The result tells whether the session goes on: it ends with the
first request to disconnect. What is no request gets no response. -/
def receive (m : Json) : SessionM Bool := do
  match Request.ofJson? m with
  | none =>
    log .warn "skip malformed message"
    return true
  | some r =>
    if r.type ≠ "request" then
      log .debug ("skip message of type `" ++ r.type ++ "`")
      return true
    handle r
    return r.command ≠ "disconnect"

/-- Take messages until the session ends; what is left is not looked at. The result tells whether the
session goes on after the last message. -/
def receiveAll : List Json → SessionM Bool
  | [] => return true
  | m :: rest => do
    if ← receive m then receiveAll rest else return false

/-- Let go of the engine. It is noted if the client has `closed` the connection. -/
def leave (closed : Bool) : SessionM Unit := do
  if closed then log .info "client closed the connection"
  shutdown

/-- Serve a client: take its messages, and let go of the engine, whatever has ended the session. The
result tells whether the session went on after the last message. -/
def serve (messages : List Json) (closed : Bool) : SessionM Bool := do
  let goesOn ← receiveAll messages
  leave (goesOn && closed)
  return goesOn

end DebugAdapter.Session
