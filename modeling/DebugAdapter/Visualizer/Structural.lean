import DebugAdapter.Visualizer.Basic

/-!
# Structural visualizer

Shows any value by its structure: a pointer by its address, an array by its type, all else by the
engine's own text and the fields of its type.
-/

namespace DebugAdapter.Visualizer

variable {σ : Type} [DataSpaces σ]

/-- Show a value by its structure. -/
def renderStructure (v : NamedValue) : VisualM σ Rendering := do
  if v.data.isNone then throw (.noData v.name)
  match v.data.tag with
  | .pointer =>
    return ⟨Text.hexPrefixed v.data.word.toNat ++ " (" ++ v.typeName ++ ")", v.data.word != 0⟩
  | .array => return ⟨v.typeName, 0 < (← look (arrayLength v.data))⟩
  | _ =>
    -- a record has fields even if the engine has no text for it
    let hasChildren := !(← look (Memory.fieldNames v.data)).isEmpty
    return ⟨← look (Memory.shortValue v.data), hasChildren⟩

/-- What a pointer points to, the elements of an array, or the fields of a record. -/
def structureChildren (v : NamedValue) : VisualM σ (List NamedValue) := do
  match v.data.tag with
  | .pointer =>
    if v.data.word = 0 then return []
    let inner ← look (Memory.dereference v.data)
    if inner.isNone then throw (.noData ("*" ++ v.name))
    return [← look (Memory.named "inner" inner)]
  | .array => look (do elements v.data (← arrayLength v.data))
  | _ => look (do (← Memory.fields v.data).mapM fun (name, field) => Memory.named name field)

/-- The visualizer for values that no other one accepts. -/
def structural : Visualizer σ where
  name := "structural"
  accepts _ := return true
  render := renderStructure
  children := structureChildren

end DebugAdapter.Visualizer
