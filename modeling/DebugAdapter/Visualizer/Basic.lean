import DebugAdapter.Memory.Basic
import DebugAdapter.Text.Hex

/-!
# Visualizers

A visualizer decodes values of some types: it says which values it accepts, how one is shown, and
what its direct children are. Decoding may fail. What several visualizers need to list the elements
of an array is here as well.
-/

namespace DebugAdapter

/-- Why a value was not decoded. -/
inductive VisualizeError
  | noData (name : String)
  | fieldNotFound (name : String)
  | unreadable (offset : UInt64)
  | typeDefinition (definition : String)
  deriving DecidableEq, Repr

/-- The wording of a decoding error. -/
def VisualizeError.message : VisualizeError → String
  | noData name => "no data for `" ++ name ++ "`"
  | fieldNotFound name => "field `" ++ name ++ "` not found"
  | unreadable offset => "memory at " ++ Text.hexPrefixed offset.toNat ++ " is not readable"
  | typeDefinition definition => "unrecognized type definition: " ++ definition

/-- Decoding of a value in the debuggee's memory. -/
abbrev VisualM (σ : Type) := ExceptT VisualizeError (MemoryM σ)

/-- Look at memory in the course of decoding. -/
def look {σ α : Type} (m : MemoryM σ α) : VisualM σ α :=
  ExceptT.lift m

/-- A way to show values of some types. -/
structure Visualizer (σ : Type) where
  name : String
  accepts : NamedValue → MemoryM σ Bool
  render : NamedValue → VisualM σ Rendering
  children : NamedValue → VisualM σ (List NamedValue)

namespace Visualizer

variable {σ : Type} [DataSpaces σ]

/-- The most elements of an array that are listed. -/
def maxElements : Nat := 10000

/-- The number of elements of an array: how often the size of an element fits, zero if that size is
unknown. -/
def arrayLength (array : TypedData) : MemoryM σ Nat := do
  let element ← Memory.dereference array
  if element.size = 0 then return 0
  return (array.size / element.size).toNat

/-- The first `length` elements of an array or of what a pointer points to, but no more than
`maxElements`. An element that the engine cannot give is listed as absent value. -/
def elements (base : TypedData) (length : Nat) : MemoryM σ (List NamedValue) :=
  (List.range (min length maxElements)).mapM fun i => do
    let element ← Memory.arrayElement base (UInt64.ofNat i)
    Memory.named ("[" ++ toString i ++ "]") element

/-- A field that has to be there. -/
def requiredField (data : TypedData) (name : String) : VisualM σ TypedData := do
  let field ← look (Memory.field data name)
  if field.isNone then throw (.fieldNotFound name)
  return field

end Visualizer

end DebugAdapter
