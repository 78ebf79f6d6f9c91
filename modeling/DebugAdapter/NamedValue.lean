import DebugAdapter.Engine.TypedData

/-!
# Named values and their renderings

What a visualizer takes, a typed value with a name and a type name, and what it gives.
-/

namespace DebugAdapter

/-- A typed value under the name it is shown with. -/
structure NamedValue where
  name : String
  typeName : String
  data : TypedData
  deriving DecidableEq, Repr

/-- The text of a value, and whether it can be expanded. -/
structure Rendering where
  value : String
  hasChildren : Bool
  deriving DecidableEq, Repr

namespace Rendering

/-- A value that cannot be expanded. -/
def leaf (value : String) : Rendering :=
  ⟨value, false⟩

/-- What is shown for a value that no visualizer can decode. -/
def unidentified : Rendering :=
  leaf "<could not identify value>"

end Rendering

end DebugAdapter
