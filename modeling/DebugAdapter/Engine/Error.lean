import DebugAdapter.Text.Hex

/-!
# Engine errors

An engine call fails with a status word, or because the platform has no engine.
-/

namespace DebugAdapter

/-- The status word of a failed engine call. -/
structure StatusWord where
  word : UInt32
  deriving DecidableEq, Repr

namespace StatusWord

/-- Unspecified failure. -/
def fail : StatusWord := ⟨0x80004005⟩

/-- An argument the engine does not accept. -/
def invalidArgument : StatusWord := ⟨0x80070057⟩

/-- A service the engine does not offer. -/
def noInterface : StatusWord := ⟨0x80004002⟩

/-- A call the engine does not expect in its state. -/
def unexpected : StatusWord := ⟨0x8000FFFF⟩

/-- Eight upper case hexadecimal digits. -/
def text (s : StatusWord) : String :=
  Text.wordText s.word

end StatusWord

/-- Why an engine call gave no result. -/
inductive EngineError
  | status (s : StatusWord)
  | unsupported
  deriving DecidableEq, Repr

namespace EngineError

/-- The status word reported for an error. -/
def statusWord : EngineError → StatusWord
  | status s => s
  | unsupported => .noInterface

/-- The wording of an engine error. -/
def message : EngineError → String
  | status s => "engine call failed with status " ++ s.text
  | unsupported => "native engine is not available on this platform"

end EngineError

end DebugAdapter
