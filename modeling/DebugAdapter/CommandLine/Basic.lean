import DebugAdapter.CommandLine.Options
import DebugAdapter.Log.Filter
import DebugAdapter.SearchPath
import DebugAdapter.Text.Decimal

/-!
# The command line

What the options set, and what is wrong with a command line that is refused. No option may be given
twice, and a client is served either at a port or at an address.

Main statement: what a port is read from fits 16 bits (`readPort?_lt`).
-/

namespace DebugAdapter

/-- What the options set. -/
structure CommandLine where
  port : Option UInt16 := none
  listen : Option String := none
  oneshot : Bool := false
  verbosity : Option Verbosity := none
  logFile : Option String := none
  traceDap : Bool := false
  clientLog : Bool := false
  config : Option String := none
  currentDirectory : Option String := none
  deriving DecidableEq, Repr

/-- What is wrong with a command line. -/
inductive UsageError
  | unknownOption (argument : String)
  | unexpectedArgument (argument : String)
  | missingValue (o : CommandOption)
  | unexpectedValue (o : CommandOption) (value : String)
  | malformedValue (o : CommandOption) (value : String)
  | repeated (o : CommandOption)
  | conflict (o other : CommandOption)
  deriving DecidableEq, Repr

/-- An option as it is written. -/
def CommandOption.written (o : CommandOption) : String :=
  "--" ++ o.longName

/-- The wording of a usage error. -/
def UsageError.message : UsageError → String
  | unknownOption argument => "unknown option '" ++ argument ++ "'"
  | unexpectedArgument argument => "unexpected argument '" ++ argument ++ "'"
  | missingValue o => "option '" ++ o.written ++ "' needs a value"
  | unexpectedValue o value => "option '" ++ o.written ++ "' takes no value, not '" ++ value ++ "'"
  | malformedValue o value => "bad value '" ++ value ++ "' for option '" ++ o.written ++ "'"
  | repeated o => "option '" ++ o.written ++ "' is given twice"
  | conflict o other => "options '" ++ o.written ++ "' and '" ++ other.written ++ "' exclude each other"

/-- Why a command line leads to no run: it asks for a text, or it is refused. -/
inductive Halt
  | help
  | version
  | refused (e : UsageError)
  deriving DecidableEq, Repr

namespace CommandLine

/-- The value of an option that is given for the first time. -/
def setOnce {α : Type} (o : CommandOption) (old new : Option α) (value : String) :
    Except Halt (Option α) :=
  if old.isSome then .error (.refused (.repeated o))
  else
    match new with
    | some a => .ok (some a)
    | none => .error (.refused (.malformedValue o value))

/-- Set what stands alone. -/
def raise (o : CommandOption) (old : Bool) : Except Halt Bool :=
  if old then .error (.refused (.repeated o)) else .ok true

/-- A port. -/
def readPort? (value : String) : Option UInt16 :=
  match Text.readInt64 value.toList with
  | .ok n => if 0 ≤ n ∧ n.toNat < UInt16.size then some (UInt16.ofNat n.toNat) else none
  | .error _ => none

/-- The path of a file or directory, which may not be empty. -/
def readPath? (value : String) : Option String :=
  if value.isEmpty then none else some value

/-- Set an option that takes a value. -/
def withValue (c : CommandLine) (o : CommandOption) (value : String) : Except Halt CommandLine :=
  match o with
  | .port => return { c with port := ← setOnce o c.port (readPort? value) value }
  | .listen => return { c with listen := ← setOnce o c.listen (some value) value }
  | .verbosity =>
    return { c with
      verbosity := ← setOnce o c.verbosity (Verbosity.ofName? value.toList) value }
  | .logFile => return { c with logFile := ← setOnce o c.logFile (readPath? value) value }
  | .config => return { c with config := ← setOnce o c.config (readPath? value) value }
  | .currentDirectory =>
    return { c with
      currentDirectory := ← setOnce o c.currentDirectory (readPath? value) value }
  | o => .error (.refused (.unexpectedValue o value))

/-- Set an option that stands alone. -/
def withFlag (c : CommandLine) (o : CommandOption) : Except Halt CommandLine :=
  match o with
  | .help => .error .help
  | .version => .error .version
  | .oneshot => return { c with oneshot := ← raise o c.oneshot }
  | .traceDap => return { c with traceDap := ← raise o c.traceDap }
  | .clientLog => return { c with clientLog := ← raise o c.clientLog }
  | o => .error (.refused (.missingValue o))

/-- The name of the environment that sets the verbosity unless an option does. -/
def verbosityVariable : String := "DBGENG_DAP_VERBOSITY"

/-- The name of the environment that sets what is logged. -/
def filterVariable : String := "RUST_LOG"

/-- Take what the environment sets, and refuse what excludes each other. -/
def complete (env : Environment) (c : CommandLine) : Except Halt CommandLine := do
  let c ← match c.verbosity, env.value? verbosityVariable with
    -- an option counts more than the environment
    | none, some value => c.withValue .verbosity value
    | _, _ => pure c
  if c.listen.isSome ∧ c.port.isSome then throw (.refused (.conflict .listen .port))
  return c

/-- Which records are logged. -/
def logFilter (env : Environment) (c : CommandLine) : LogFilter :=
  let base := LogFilter.ofVerbosity (c.verbosity.getD (.upTo .info))
  match env.value? filterVariable with
  | some s => base.withSpecification s
  | none => base

/-- Which records are shown to a client. -/
def console (env : Environment) (c : CommandLine) : Option LogFilter :=
  if c.clientLog then some (c.logFilter env) else none

/-- Where clients are served, if not at the standard streams. -/
def listenAddress? (c : CommandLine) : Option String :=
  c.listen <|> c.port.map fun port => "127.0.0.1:" ++ toString port.toNat

/-- A port that is read is the number that is written, and fits 16 bits. -/
theorem readPort?_lt {value : String} {port : UInt16} (h : readPort? value = some port) :
    ∃ n : Nat, n < UInt16.size ∧ Text.readInt64 value.toList = .ok n ∧ port.toNat = n := by
  unfold readPort? at h
  split at h
  · rename_i n hn
    split at h
    · rename_i hfit
      simp only [Option.some.injEq] at h
      subst h
      refine ⟨n.toNat, hfit.2, ?_, UInt16.toNat_ofNat_of_lt' hfit.2⟩
      rw [hn, Int.toNat_of_nonneg hfit.1]
    · exact nomatch h
  · exact nomatch h

end CommandLine

end DebugAdapter
