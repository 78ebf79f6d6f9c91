import DebugAdapter.Path.Uri
import DebugAdapter.Width

/-!
# Line and path conventions

The client and the debugger each count lines from zero or from one, and each name files by path or by
URI. A convention holds both sides and converts between them.
-/

namespace DebugAdapter

/-- How files are named. -/
inductive PathFormat
  | path
  | uri
  deriving DecidableEq, Repr

namespace PathFormat

/-- The name of a format. -/
def name : PathFormat → String
  | path => "path"
  | uri => "uri"

/-- The format with a name. -/
def ofName? (s : String) : Option PathFormat :=
  if s = "path" then some path else if s = "uri" then some uri else none

/-- A path format is found by its name. -/
theorem ofName?_name (f : PathFormat) : ofName? f.name = some f := by
  cases f <;> rfl

/-- Convert a file name from one format to another. -/
def convert (source target : PathFormat) (file : String) : Option String :=
  match source, target with
  | path, uri => Path.toUri? file
  | uri, path => Path.ofUri? file
  | _, _ => some file

end PathFormat

/-- How one side counts lines and names files. -/
structure SideConvention where
  linesFromOne : Bool := true
  pathFormat : PathFormat
  deriving DecidableEq, Repr

/-- The number of the first line. -/
def SideConvention.firstLine (s : SideConvention) : Int :=
  if s.linesFromOne then 1 else 0

/-- The conventions of both sides. -/
structure Convention where
  client : SideConvention := { pathFormat := .uri }
  debugger : SideConvention := { pathFormat := .path }
  deriving DecidableEq, Repr

namespace Convention

/-- Bring a number into the range of signed 64 bit numbers. -/
def saturate (n : Int) : Int :=
  max int64Min (min int64Max n)

/-- The debugger's number of a client's line; lines that a word cannot hold go to its ends. -/
def lineToDebugger (c : Convention) (line : Int) : UInt32 :=
  -- each of the two steps stays within 64 bits on its own
  let line := saturate (saturate (line - c.client.firstLine) + c.debugger.firstLine)
  UInt32.ofNat (min line.toNat (UInt32.size - 1))

/-- The client's number of a debugger's line. -/
def lineToClient (c : Convention) (line : UInt32) : Int :=
  line.toNat - c.debugger.firstLine + c.client.firstLine

/-- The debugger's name of a client's file. -/
def pathToDebugger (c : Convention) (file : String) : Option String :=
  c.client.pathFormat.convert c.debugger.pathFormat file

/-- The client's name of a debugger's file. -/
def pathToClient (c : Convention) (file : String) : Option String :=
  c.debugger.pathFormat.convert c.client.pathFormat file

/-- A debugger's line comes back when it is sent to the client and back. -/
theorem lineToDebugger_lineToClient (c : Convention) (line : UInt32) :
    c.lineToDebugger (c.lineToClient line) = line := by
  have h := line.toNat_lt
  have hc : c.client.firstLine = 0 ∨ c.client.firstLine = 1 := by
    unfold SideConvention.firstLine; split <;> simp
  have hd : c.debugger.firstLine = 0 ∨ c.debugger.firstLine = 1 := by
    unfold SideConvention.firstLine; split <;> simp
  unfold lineToDebugger lineToClient saturate int64Min int64Max
  apply UInt32.toNat_inj.mp
  rw [UInt32.toNat_ofNat', show UInt32.size = 4294967296 from rfl]
  omega

end Convention

end DebugAdapter
