import DebugAdapter.CommandLine.Help
import DebugAdapter.CommandLine.Reader
import DebugAdapter.Config.Toml
import DebugAdapter.Session.Serve

/-!
# Runs of the program

What a run of the program does on a machine whose standard streams are the client's connection, and
which has no network: the command line is read, the log file is opened, the working directory is set,
the configuration is read, and the client is served. A command line that is refused, or asks for a text
only, changes nothing on the machine.
-/

namespace DebugAdapter

/-- What a run of the program leaves: its exit code, what it has written, and the machine. -/
structure Outcome where
  exitCode : Nat
  output : List UInt8 := []
  host : Host

namespace CommandLine

/-- Where the configuration is read from: the file given, or the one below the home directory. -/
def configPath? (env : Environment) (c : CommandLine) : Option String :=
  c.config <|> (env.value? "HOME").map fun home => Path.join home AdapterConfig.defaultPath

/-- The machine after the log file was opened, with the parts of the log file. Nothing if it cannot be
opened. -/
def openLog? (c : CommandLine) (h : Host) : Option (Option (List String) × Host) :=
  match c.logFile with
  | none => some (none, h)
  | some path => (h.openForAppending? path).map fun (parts, h) => (some parts, h)

/-- The machine in the working directory that was asked for. One that is not there does not count. -/
def enterDirectory (c : CommandLine) (h : Host) : Host :=
  (c.currentDirectory.map h.setDirectory).getD h

/-- The lines of the traffic log. -/
def trafficText (traffic : List (Framing.Direction × List UInt8)) : String :=
  Text.Utf8.decodeLossy (traffic.flatMap fun (d, body) => Framing.trafficLine d body)

variable {σ : Type} [Engine σ] (fuel : Gateway σ → Nat) (provider : EngineProvider σ) (native : σ)

/-- Serve the client at the standard streams. -/
def serveStreams (env : Environment) (c : CommandLine) (log : Option (List String))
    (input : List UInt8) (h : Host) : Outcome :=
  let config := AdapterConfig.load (c.configPath? env >>= h.content?)
  let (failure, served) := Lockstep.serve fuel input
    { session := { config, engineName := provider.name, environment := env }
      system := { provider, host := h, console := c.console env, native } }
  let host := served.live.system.host
  { exitCode := if failure.isSome then 1 else 0
    output := Framing.writeAll served.live.system.outbox.toList
    host :=
      match log with
      | some parts => if c.traceDap then host.append parts (trafficText served.traffic) else host
      | none => host }

/-- Run the program. -/
def run (env : Environment) (arguments : List String) (input : List UInt8) (h : Host) : Outcome :=
  match read env arguments with
  | .error .help => ⟨0, Text.Utf8.encode (helpText env), h⟩
  | .error .version => ⟨0, Text.Utf8.encode versionText, h⟩
  | .error (.refused _) => ⟨1, [], h⟩
  | .ok c =>
    match c.openLog? h with
    | none => ⟨1, [], h⟩
    | some (log, h) =>
      let h := c.enterDirectory h
      -- there is no network to be served over
      if c.listenAddress?.isSome then ⟨1, [], h⟩ else serveStreams fuel provider native env c log input h

end CommandLine

end DebugAdapter
