import DebugAdapter.Visualizer.Enum
import DebugAdapter.Visualizer.Sequence
import DebugAdapter.Visualizer.Structural
import DebugAdapter.Visualizer.Text

/-!
# The visualizer registry

An ordered list of visualizers and a default one. The first visualizer that accepts a value decodes
it; where none does, or decoding fails, the default shows the value. So a value always has a
rendering, and its children are a list that may be empty.
-/

namespace DebugAdapter

/-- Visualizers in order of precedence, and the default one. -/
structure VisualizerRegistry (σ : Type) where
  visualizers : List (Visualizer σ)
  default : Visualizer σ

namespace VisualizerRegistry

variable {σ : Type}

/-- Run a decoding; `none` if it fails. -/
def attempt {α : Type} (m : VisualM σ α) : MemoryM σ (Option α) := do
  return (← m.run).toOption

/-- The first visualizer of a list that accepts a value. -/
def firstAccepting? (v : NamedValue) : List (Visualizer σ) → MemoryM σ (Option (Visualizer σ))
  | [] => return none
  | z :: rest => do
    if ← z.accepts v then return some z else firstAccepting? v rest

/-- The visualizer that decodes a value, `none` if only the default one can. -/
def find? (r : VisualizerRegistry σ) (v : NamedValue) : MemoryM σ (Option (Visualizer σ)) :=
  firstAccepting? v r.visualizers

/-- Show a value by the default visualizer. -/
def resolveDefault (r : VisualizerRegistry σ) (v : NamedValue) : MemoryM σ Rendering := do
  return (← attempt (r.default.render v)).getD .unidentified

/-- Show a value. -/
def resolve (r : VisualizerRegistry σ) (v : NamedValue) : MemoryM σ Rendering := do
  match ← r.find? v with
  | none => r.resolveDefault v
  | some z =>
    match ← attempt (z.render v) with
    | some rendering => return rendering
    | none => r.resolveDefault v

/-- The direct children of a value, none if they cannot be decoded. -/
def children (r : VisualizerRegistry σ) (v : NamedValue) : MemoryM σ (List NamedValue) := do
  -- the default one does not step in where the accepting one fails, as it does for `resolve`
  let z := (← r.find? v).getD r.default
  return (← attempt (z.children v)).getD []

/-- The names of all visualizers, in order of precedence. -/
def names (r : VisualizerRegistry σ) : List String :=
  (r.visualizers ++ [r.default]).map (·.name)

variable [DataSpaces σ]

/-- The visualizers there are, those for fewer types first. -/
def known : List (Visualizer σ) :=
  [.string, .wtf8, .vector, .slice, .taggedEnum, .encodedEnum Visualizer.trailingPointerRule]

/-- The registry of all visualizers. -/
def standard : VisualizerRegistry σ :=
  ⟨known, .structural⟩

/-- The visualizer with a name. -/
def named? (name : String) : Option (Visualizer σ) :=
  (known ++ [Visualizer.structural]).find? (·.name == name)

/-- A registry of some visualizers by name, in the given order. -/
def ofNames (names : List String) : VisualizerRegistry σ :=
  ⟨names.filterMap named?, .structural⟩

end VisualizerRegistry

end DebugAdapter
