import DebugAdapter.Log.Level
import DebugAdapter.Text.Blank

/-!
# Log filters

Which log records are wanted, by what they are about. A filter is a list of rules for targets that
start with some text; the rule with the longest text that fits decides.
-/

namespace DebugAdapter

/-- A log record. -/
structure LogRecord where
  level : LogLevel
  target : String
  /-- The part of the program it comes from. -/
  source : Option String
  message : String
  deriving DecidableEq, Repr

/-- The verbosity for targets that start with some text, or for all others. -/
structure LogRule where
  start : Option String
  verbosity : Verbosity
  deriving DecidableEq, Repr

/-- Which log records are wanted: rules by target, and a text that their messages have to hold. -/
structure LogFilter where
  rules : List LogRule := []
  word : Option String := none
  deriving DecidableEq, Repr

namespace LogFilter

/-- Put in a rule. It takes the place of one for the same start. -/
def withRule (f : LogFilter) (r : LogRule) : LogFilter :=
  { f with
    rules :=
      if f.rules.any (·.start == r.start) then
        f.rules.map fun old => if old.start == r.start then r else old
      else f.rules ++ [r] }

/-- The filter for all targets alike. -/
def ofVerbosity (v : Verbosity) : LogFilter :=
  { rules := [⟨none, v⟩] }

/-- The length of the start a rule is for. -/
def startSize (r : LogRule) : Nat :=
  (r.start.map String.utf8ByteSize).getD 0

/-- A rule is for a target. -/
def fits (target : String) (r : LogRule) : Bool :=
  match r.start with
  | none => true
  | some start => Text.startsWith start target

/-- The longer one of two rules, the later one if they are equally long. -/
def longer (found : Option LogRule) (r : LogRule) : Option LogRule :=
  match found with
  | none => some r
  | some old => if startSize old ≤ startSize r then some r else some old

/-- The rule for a target. -/
def ruleFor? (f : LogFilter) (target : String) : Option LogRule :=
  (f.rules.filter (fits target)).foldl longer none

/-- Records of a level about a target are wanted. -/
def enabled (f : LogFilter) (level : LogLevel) (target : String) : Bool :=
  (f.ruleFor? target).any (·.verbosity.allows level)

/-- A record is wanted. -/
def accepts (f : LogFilter) (r : LogRecord) : Bool :=
  f.enabled r.level r.target && f.word.all (Text.hasWord · r.message)

/-- The verbosity of the most verbose rule. -/
def verbosity (f : LogFilter) : Verbosity :=
  f.rules.foldl (fun v r => v.max r.verbosity) .off

/-- Read a rule: a verbosity for all targets, or a start, perhaps with a verbosity behind an equals
sign. A rule that is not well formed is left out. -/
def readRule? (s : List Char) : Option LogRule :=
  match Text.splitAll '=' s with
  | [only] =>
    match Verbosity.ofName? only with
    | some v => some ⟨none, v⟩
    | none => some ⟨some (String.ofList only), .upTo .trace⟩
  | [start, v] =>
    if (Text.trim v).isEmpty then some ⟨some (String.ofList start), .upTo .trace⟩
    else (Verbosity.ofName? (Text.trim v)).map fun v => ⟨some (String.ofList start), v⟩
  | _ => none

/-- Put in the rules that a text lists with commas between them, and the word that messages have to
hold, after a slash. A text with several slashes does not count. -/
def withSpecification (f : LogFilter) (s : String) : LogFilter :=
  match Text.splitAll '/' s.toList with
  | rules :: rest =>
    -- with a second slash it is not clear what the word is
    if 1 < rest.length then { f with word := none }
    else
      let parts := ((Text.splitAll ',' rules).map Text.trim).filter (!·.isEmpty)
      { (parts.filterMap readRule?).foldl withRule f with word := rest.head?.map String.ofList }
  | [] => f

/-- A filter that is made of a verbosity alone lets every target pass as the verbosity says. -/
theorem enabled_ofVerbosity (v : Verbosity) (l : LogLevel) (target : String) :
    (ofVerbosity v).enabled l target = v.allows l := by
  have h : fits target ⟨none, v⟩ = true := rfl
  simp [ofVerbosity, enabled, ruleFor?, h, longer]

end LogFilter

end DebugAdapter
