import DebugAdapter.CommandLine.Address
import DebugAdapter.CommandLine.Help
import DebugAdapter.CommandLine.Reader
import DebugAdapter.CommandLine.Run
import Std.Async.TCP
import Std.Net.Addr

/-!
# The program

The outer layer of the adapter: it reads and writes the streams, and carries out the actions of a
session on the machine it runs on. There is no engine here, so no gateway is ever made.
-/

namespace DebugAdapter.Main

open Framing

/-- A connection to a client. -/
structure Connection where
  /-- At most so many bytes; none at the end of the stream. -/
  receive : Nat → IO ByteArray
  send : ByteArray → IO Unit

/-- The connection of the standard streams. -/
def standardStreams : IO Connection := do
  let input ← IO.getStdin
  let output ← IO.getStdout
  return { receive := fun n => input.read n.toUSize
           send := fun b => do output.write b; output.flush }

/-- The connection of a socket. -/
def ofSocket (client : Std.Async.TCP.Socket.Client) : Connection where
  receive n := do return (← (client.recv? n.toUInt64).block).getD ByteArray.empty
  send b := (client.send b).block

/-- What the actions of a session work on. -/
structure Machine where
  settings : CommandLine
  environment : Environment
  log : Option IO.FS.Handle
  directory : IO.Ref String
  state : IO.Ref SessionState
  sent : IO.Ref Int
  host : IO.Ref Host

/-- The client's and the machine's side of a session. -/
structure Site where
  machine : Machine
  connection : Connection

/-- The bytes of a list. -/
def bytesOf (l : List UInt8) : ByteArray := ⟨l.toArray⟩

/-- A path as the machine takes it: relative to the working directory. -/
def Machine.place (m : Machine) (path : String) : IO String :=
  return Path.join (← m.directory.get) path

/-- What a path names, with all links followed. -/
def Machine.resolve? (m : Machine) (path : String) : IO (Option String) := do
  if path.isEmpty then return none
  try return some (toString (← IO.FS.realPath (← m.place path)))
  catch _ => return none

/-- The content of a file that can be read. -/
def Machine.content? (m : Machine) (path : String) : IO (Option String) := do
  try return some (← IO.FS.readFile (← m.place path))
  catch _ => return none

/-- Go to a directory, if there is one of that name. -/
def Machine.setDirectory (m : Machine) (path : String) : IO Unit := do
  if let some directory ← m.resolve? (path ++ "/.") then m.directory.set directory

/-- Look for a program in the search path. -/
def Machine.findProgram (m : Machine) (name : String) : IO (Option String) := do
  let directories := Text.splitAll ':' ((m.environment.value? "PATH").getD "").toList
  for directory in directories do
    let path := Path.join (String.ofList directory) name
    if (← m.resolve? path).isSome then return some path
  return none

/-- Look for a process. -/
def Machine.findProcess (m : Machine) (pid : UInt32) : IO (Option ProcessImage) := do
  let place := "/proc/" ++ toString pid.toNat
  if (← m.resolve? place).isNone then return none
  return some ⟨pid, ← m.resolve? (place ++ "/exe")⟩

/-- Record a body in the traffic log. -/
def Machine.trace (m : Machine) (d : Direction) (body : List UInt8) : IO Unit := do
  if m.settings.traceDap then
    if let some log := m.log then
      log.write (bytesOf (trafficLine d body))
      log.flush

/-- Write a message to the client. -/
def Site.send (s : Site) (m : Message) : IO Unit := do
  let seq := (← s.machine.sent.get) + 1
  s.machine.sent.set seq
  let body := bodyOf (m.toJson seq)
  s.machine.trace .outgoing body
  s.connection.send (bytesOf (headerOf body.length ++ body))

/-- Make a log record, which the client may be shown too. -/
def Site.note (s : Site) (r : LogRecord) : IO Unit := do
  let m := s.machine
  if (m.settings.logFilter m.environment).accepts r then
    match m.log with
    | some log => do log.putStr r.line; log.flush
    | none => IO.eprint r.line
  if (m.settings.console m.environment).any (·.accepts r) then s.send (.event r.toEvent)

/-- Carry out an action. -/
def Site.perform (s : Site) : (a : Action) → IO a.Result
  | .updateState f => s.machine.state.modifyGet fun state => (state, f state)
  | .send m => s.send m
  | .note r => s.note r
  | .engineSupported => return false
  | .openGateway .. => return .error (.notInitialized .unsupported)
  | .submit _ => return none
  | .interrupt => return ()
  | .await _ => return none
  | .markDisposed => return true
  | .closeQueue | .cancel | .awaitEnd | .silence | .joinForwarder => return ()
  | .pathExists path => return (← s.machine.resolve? path).isSome
  | .isDirectory path => return (← s.machine.resolve? (path ++ "/.")).isSome
  | .findProgram name => s.machine.findProgram name
  | .setDirectory path => s.machine.setDirectory path
  | .findProcess pid => s.machine.findProcess pid
  | .findStdLibrary => s.machine.host.modifyGet Host.findStdLibrary

/-- Carry out a program. -/
def Site.run {α : Type} (s : Site) : Program α → IO α
  | .done a => return a
  | .act a next => do
    let r ← s.perform a
    s.run (next r)

/-- Read a line of a header, with its end. -/
partial def readLine (c : Connection) (line : List UInt8) : IO (List UInt8) := do
  match (← c.receive 1).toList with
  | [] => return line.reverse
  | b :: _ => if b = 10 then return (b :: line).reverse else readLine c (b :: line)

/-- Read a header: the length of the body that follows, or nothing at the end of the stream. -/
partial def readHeader (c : Connection) (h : Header) : IO (Except FrameError (Option Nat)) := do
  let line ← readLine c []
  if line.isEmpty then return h.atEnd.map (Option.map (·.1))
  match h.line line with
  | .error e => return .error e
  | .ok (.more h) => readHeader c h
  | .ok (.complete n) => return .ok (some n)

/-- Read so many bytes of a body. -/
partial def readBody (c : Connection) (n : Nat) (body : ByteArray) : IO (Option (List UInt8)) := do
  if n ≤ body.size then return some body.toList
  let more ← c.receive (min (n - body.size) 65536)
  if more.isEmpty then return none else readBody c n (body ++ more)

/-- Take the client's messages until the session ends. The result is the error that ended it, if any, and
whether the client has closed the connection. -/
partial def takeMessages (s : Site) (session : Session) : IO (Option FrameError × Bool × Session) := do
  match ← readHeader s.connection {} with
  | .error e => return (some e, false, session)
  | .ok none => return (none, true, session)
  | .ok (some n) =>
    match ← readBody s.connection n ByteArray.empty with
    | none => return (some .unexpectedEnd, false, session)
    | some body =>
      s.machine.trace .incoming body
      match Json.parseBytes? body with
      | none => return (some .malformedJson, false, session)
      | some m =>
        let (goesOn, session) ← s.run ((Session.receive m).run session)
        if goesOn then takeMessages s session else return (none, false, session)

/-- Serve a client. -/
def serve (m : Machine) (config : AdapterConfig) (c : Connection) : IO (Option FrameError) := do
  m.state.set .uninitialized
  m.sent.set 0
  let s : Site := ⟨m, c⟩
  let (failure, closed, session) ← takeMessages s
    { config, engineName := (@EngineProvider.absent Unit).name
      environment := m.environment }
  let _ ← s.run ((Session.leave closed).run session)
  return failure

/-- The address of a socket; nothing if it is no address. -/
def socketAddress? : SocketAddress → Option Std.Net.SocketAddress
  | .v4 [a, b, c, d] port =>
    some (.v4 ⟨⟨#v[a.toUInt8, b.toUInt8, c.toUInt8, d.toUInt8]⟩, port.toUInt16⟩)
  | .v6 [a, b, c, d, e, f, g, h] _ port =>
    some (.v6 ⟨⟨#v[a.toUInt16, b.toUInt16, c.toUInt16, d.toUInt16, e.toUInt16, f.toUInt16,
      g.toUInt16, h.toUInt16]⟩, port.toUInt16⟩)
  | _ => none

/-- Serve the clients of a socket one by one. -/
partial def serveClients (m : Machine) (config : AdapterConfig)
    (server : Std.Async.TCP.Socket.Server) : IO Unit := do
  let client ← server.accept.block
  try
    client.noDelay
    if let some e ← serve m config (ofSocket client) then IO.eprintln ("client: " ++ e.message)
  catch e => IO.eprintln ("client: " ++ toString e)
  if !m.settings.oneshot then serveClients m config server

/-- Serve the clients at an address. -/
def serveAddress (m : Machine) (config : AdapterConfig) (address : String) : IO UInt32 := do
  match SocketAddress.ofText? address >>= socketAddress? with
  | none =>
    IO.eprintln "Error: Invalid listen address"
    return 1
  | some a =>
    let server ← Std.Async.TCP.Socket.Server.mk
    server.bind a
    server.listen 128
    serveClients m config server
    return 0

/-- Run with a command line that was read. -/
def runWith (environment : Environment) (settings : CommandLine) : IO UInt32 := do
  let log ← settings.logFile.mapM fun path => IO.FS.Handle.mk path .append
  let m : Machine :=
    { settings, environment, log, directory := ← IO.mkRef "", state := ← IO.mkRef .uninitialized
      sent := ← IO.mkRef 0, host := ← IO.mkRef {} }
  if settings.traceDap && log.isNone then
    IO.eprintln "--trace-dap requires --log-file; tracing disabled"
  if let some path := settings.currentDirectory then m.setDirectory path
  let content ← match settings.configPath? environment with
    | some path => m.content? path
    | none => pure none
  let config := AdapterConfig.load content
  match settings.listenAddress? with
  | some address => serveAddress m config address
  | none =>
    match ← serve m config (← standardStreams) with
    | none => return 0
    | some e =>
      IO.eprintln ("Error: " ++ e.message)
      return 1

/-- The environment of the program. -/
def environment : IO Environment := do
  try return Environment.ofBlock (← IO.FS.readFile "/proc/self/environ")
  catch _ => return []

end DebugAdapter.Main

open DebugAdapter in
/-- Read the command line and do what it says. -/
def main (arguments : List String) : IO UInt32 := do
  let environment ← Main.environment
  match CommandLine.read environment arguments with
  | .error .help => do
    IO.print (CommandLine.helpText environment)
    return 0
  | .error .version => do
    IO.print CommandLine.versionText
    return 0
  | .error (.refused e) => do
    IO.eprintln ("error: " ++ e.message)
    return 1
  | .ok settings =>
    try Main.runWith environment settings
    catch e => do
      IO.eprintln ("Error: " ++ toString e)
      return 1
