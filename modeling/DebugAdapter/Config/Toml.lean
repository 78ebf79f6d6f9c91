import DebugAdapter.Config.Basic
import DebugAdapter.Toml.Reader

/-!
# The configuration file

The adapter's settings as a TOML document. Each key is optional, and keys that mean nothing are passed
over; a key with a value that does not fit refuses the whole file.
-/

namespace DebugAdapter.AdapterConfig

open Toml

/-- The setting under a key, or its default. Nothing if there is a value that does not fit. -/
def setting {α : Type} (m : Members) (key : String) (read : Toml → Option α) (default : α) :
    Option α :=
  match m.find? key with
  | none => some default
  | some v => read v

/-- A natural number. -/
def natural? : Toml → Option Nat
  | .integer n => if 0 ≤ n then some n.toNat else none
  | _ => none

/-- A truth value. -/
def flag? : Toml → Option Bool
  | .bool b => some b
  | _ => none

/-- A text. -/
def text? : Toml → Option String
  | .text s => some s
  | _ => none

/-- A list of texts. -/
def texts? : Toml → Option (List String)
  | .array elements => elements.mapM text?
  | _ => none

/-- A value has nothing in it: an empty array or an empty table. -/
def isBare : Toml → Bool
  | .array [] | .table _ [] => true
  | _ => false

/-- The name of a choice: a text, or a table whose first key is the name and holds nothing. An inline
table may have no second key. -/
def choice? : Toml → Option String
  | .text s => some s
  | .table .inline [(name, v)] => if isBare v then some name else none
  | .table .inline _ => none
  | .table _ ((name, v) :: _) => if isBare v then some name else none
  | _ => none

/-- The settings of a document. -/
def ofToml? (m : Members) : Option AdapterConfig := do
  let base : AdapterConfig := {}
  return {
    requestTimeout := ← setting m "request-timeout-secs" natural? base.requestTimeout
    joinTimeout := ← setting m "join-timeout-secs" natural? base.joinTimeout
    idlePoll := ← setting m "idle-poll-ms" natural? base.idlePoll
    maxFrames := ← setting m "max-frames" natural? base.maxFrames
    sourcePaths := ← setting m "source-paths" texts? base.sourcePaths
    symbolPaths := ← setting m "symbol-paths" texts? base.symbolPaths
    sourceLevelStepping := ← setting m "source-level-stepping" flag? base.sourceLevelStepping
    enginePath := ← setting m "engine-path" (fun v => some <$> text? v) base.enginePath
    debugger :=
      { linesFromOne := ← setting m "debugger-lines-start-at1" flag? base.debugger.linesFromOne
        pathFormat := ← setting m "debugger-path-format" (fun v => choice? v >>= PathFormat.ofName?)
          base.debugger.pathFormat } }

/-- The settings of a file, nothing if it is refused. -/
def parse? (content : String) : Option AdapterConfig :=
  Toml.parse? content >>= ofToml?

/-- The settings of a file, or the defaults if there is no such file or it is refused. -/
def load (content : Option String) : AdapterConfig :=
  (content >>= parse?).getD {}

/-- Where the file is if the user does not say so, below the home directory. -/
def defaultPath : String :=
  ".config/dbgeng-dap/config.toml"

end DebugAdapter.AdapterConfig
