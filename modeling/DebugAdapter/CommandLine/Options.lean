/-!
# The options of the command line

Each option has a long name, perhaps a letter too, and either takes a value or stands alone.

Main statements: no two options share a name (`ofLongName?_longName`) or a letter
(`ofLetter?_of_letter?`).
-/

namespace DebugAdapter

/-- An option of the command line. -/
inductive CommandOption
  | port
  | listen
  | oneshot
  | verbosity
  | logFile
  | traceDap
  | clientLog
  | config
  | currentDirectory
  | help
  | version
  deriving DecidableEq, Repr

namespace CommandOption

/-- All options, in the order in which the help lists them. -/
def all : List CommandOption :=
  [port, listen, oneshot, verbosity, logFile, traceDap, clientLog, config, currentDirectory, help,
    version]

/-- The name after two hyphens. -/
def longName : CommandOption → String
  | port => "port"
  | listen => "listen"
  | oneshot => "oneshot"
  | verbosity => "verbosity"
  | logFile => "log-file"
  | traceDap => "trace-dap"
  | clientLog => "client-log"
  | config => "config"
  | currentDirectory => "current-directory"
  | help => "help"
  | version => "version"

/-- The letter after one hyphen. -/
def letter? : CommandOption → Option Char
  | port => some 'p'
  | verbosity => some 'v'
  | help => some 'h'
  | version => some 'V'
  | _ => none

/-- What the help calls the value. -/
def valueName? : CommandOption → Option String
  | port => some "PORT"
  | listen => some "LISTEN"
  | verbosity => some "VERBOSITY"
  | logFile => some "LOG_FILE"
  | config => some "CONFIG"
  | currentDirectory => some "CURRENT_DIRECTORY"
  | _ => none

/-- The option takes a value. -/
def takesValue (o : CommandOption) : Bool :=
  o.valueName?.isSome

/-- What the option is for. -/
def summary : CommandOption → String
  | port => "Serve clients over TCP on 127.0.0.1:<PORT> instead of stdio"
  | listen => "Serve clients over TCP on this address instead of stdio"
  | oneshot => "Exit after the first debug session ends (server mode only)"
  | verbosity =>
    "Log verbosity: off, error, warn, info, debug or trace. RUST_LOG overrides it"
  | logFile => "Write adapter logs into a file instead of stderr"
  | traceDap =>
    "Trace DAP traffic (requests/responses/events) into the log file. Requires --log-file"
  | clientLog => "Send adapter logs to the client as console output"
  | config => "Adapter config file, ~/.config/dbgeng-dap/config.toml by default"
  | currentDirectory => "Working directory of the adapter"
  | help => "Print help"
  | version => "Print version"

/-- The option with a name. -/
def ofLongName? (name : String) : Option CommandOption :=
  all.find? (·.longName == name)

/-- The option with a letter. -/
def ofLetter? (letter : Char) : Option CommandOption :=
  all.find? (·.letter? == some letter)

/-- Each option is found by its long name, so no two options share one. -/
theorem ofLongName?_longName (o : CommandOption) : ofLongName? o.longName = some o := by
  cases o <;> decide

/-- An option that has a letter is found by it, so no two options share one. -/
theorem ofLetter?_of_letter? {o : CommandOption} {c : Char} (h : o.letter? = some c) :
    ofLetter? c = some o := by
  cases o <;> simp only [letter?, Option.some.injEq, reduceCtorEq] at h <;> subst h <;> decide

end CommandOption

end DebugAdapter
