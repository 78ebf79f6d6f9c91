import DebugAdapter.Text.Search

/-!
# Log levels

How important a log record is, and up to which level records are wanted.
-/

namespace DebugAdapter

/-- How important a log record is. -/
inductive LogLevel
  | error
  | warn
  | info
  | debug
  | trace
  deriving DecidableEq, Repr

namespace LogLevel

/-- All levels, the most important one first. -/
def all : List LogLevel :=
  [error, warn, info, debug, trace]

/-- The place of a level among all, from one on. -/
def rank : LogLevel → Nat
  | error => 1
  | warn => 2
  | info => 3
  | debug => 4
  | trace => 5

/-- The name of a level. -/
def name : LogLevel → String
  | error => "ERROR"
  | warn => "WARN"
  | info => "INFO"
  | debug => "DEBUG"
  | trace => "TRACE"

end LogLevel

/-- Up to which level records are wanted. -/
inductive Verbosity
  | off
  | upTo (l : LogLevel)
  deriving DecidableEq, Repr

namespace Verbosity

/-- All verbosities, the quietest one first. -/
def all : List Verbosity :=
  off :: LogLevel.all.map upTo

/-- The number of levels wanted. -/
def rank : Verbosity → Nat
  | off => 0
  | upTo l => l.rank

/-- The name of a verbosity. -/
def name : Verbosity → String
  | off => "OFF"
  | upTo l => l.name

/-- Records of a level are wanted. -/
def allows (v : Verbosity) (l : LogLevel) : Bool :=
  l.rank ≤ v.rank

/-- The verbosity of a name in any case. -/
def ofName? (s : List Char) : Option Verbosity :=
  all.find? fun v => Text.sameLetters v.name.toList s

/-- The more verbose one of two. -/
def max (v w : Verbosity) : Verbosity :=
  if v.rank ≤ w.rank then w else v

/-- A verbosity is found by its name. -/
theorem ofName?_name (v : Verbosity) : ofName? v.name.toList = some v := by
  cases v with
  | off => decide
  | upTo l => cases l <;> decide

end Verbosity

end DebugAdapter
