/-!
# The breakpoint table

The breakpoints set in the engine, by engine id and by file. Ids are counted up and never given out
again, so a hit of a removed breakpoint cannot be taken for one of a later breakpoint.

Main statements: an inserted breakpoint is found under its id (`get?_insert`), and a file that was
taken has no breakpoints left (`idsOf_takeFile`).
-/

namespace DebugAdapter

/-- A line of a source file at which the debuggee is to stop. -/
structure Breakpoint where
  file : String
  line : UInt32
  deriving DecidableEq, Repr

/-- A breakpoint as file and line. -/
def Breakpoint.text (b : Breakpoint) : String :=
  b.file ++ ":" ++ toString b.line.toNat

/-- Whether a breakpoint could be set. -/
structure BreakpointResult where
  breakpoint : Breakpoint
  verified : Bool
  deriving DecidableEq, Repr

/-- The breakpoints set in the engine. -/
structure BreakpointTable where
  lastId : UInt32 := 0
  byId : List (UInt32 × Breakpoint) := []
  byFile : List (String × List UInt32) := []
  deriving DecidableEq, Repr

namespace BreakpointTable

/-- Give out an id. -/
def nextId (t : BreakpointTable) : UInt32 × BreakpointTable :=
  (t.lastId + 1, { t with lastId := t.lastId + 1 })

/-- The ids of a file's breakpoints, in the order they were inserted. -/
def idsOf (t : BreakpointTable) (file : String) : List UInt32 :=
  ((t.byFile.find? (·.1 == file)).map (·.2)).getD []

/-- Insert a breakpoint under an id. -/
def insert (t : BreakpointTable) (id : UInt32) (b : Breakpoint) : BreakpointTable :=
  { t with
    byId := (id, b) :: t.byId.filter (·.1 != id)
    byFile := (b.file, t.idsOf b.file ++ [id]) :: t.byFile.filter (·.1 != b.file) }

/-- Remove the breakpoints of a file and give their ids. -/
def takeFile (t : BreakpointTable) (file : String) : List UInt32 × BreakpointTable :=
  let ids := t.idsOf file
  (ids, { t with
    byId := t.byId.filter fun e => !ids.contains e.1
    byFile := t.byFile.filter (·.1 != file) })

/-- The breakpoint under an id. -/
def get? (t : BreakpointTable) (id : UInt32) : Option Breakpoint :=
  (t.byId.find? (·.1 == id)).map (·.2)

/-- The number of breakpoints. -/
def size (t : BreakpointTable) : Nat :=
  t.byId.length

/-- A breakpoint is found under the id it was put under. -/
@[simp] theorem get?_insert (t : BreakpointTable) (id : UInt32) (b : Breakpoint) :
    (t.insert id b).get? id = some b := by
  simp [get?, insert]

/-- A file whose breakpoints were taken has none left. -/
theorem idsOf_takeFile (t : BreakpointTable) (file : String) :
    (t.takeFile file).2.idsOf file = [] := by
  have : (t.byFile.filter (·.1 != file)).find? (·.1 == file) = none := by
    simp [List.find?_eq_none]
  simp [takeFile, idsOf, this]

end BreakpointTable

end DebugAdapter
