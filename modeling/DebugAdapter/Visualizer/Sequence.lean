import DebugAdapter.Text.Search
import DebugAdapter.Visualizer.Basic

/-!
# Sequence visualizers

Vectors, whose buffer pointer lies inside wrapper types, and slices, which are a pointer with a
length. Both are shown with their length and list their elements.
-/

namespace DebugAdapter.Visualizer

variable {σ : Type} [DataSpaces σ]

/-- How the names of vector types begin. -/
def vectorTypeStarts : List String :=
  ["struct collections::vec::Vec", "struct alloc::vec::Vec", "alloc::vec::Vec"]

/-- The most values looked at in search of a buffer pointer. -/
def maxPointerDepth : Nat := 6

/-- The first pointer met on the way from a value through first fields, among `depth` values. -/
def findPointer? : (depth : Nat) → TypedData → MemoryM σ (Option TypedData)
  | 0, _ => return none
  | depth + 1, data => do
    if data.isNone then return none
    if data.tag = .pointer then return some data
    match (← Memory.fieldNames data).head? with
    | none => return none
    -- a wrapper has what it wraps in its first field
    | some first => findPointer? depth (← Memory.field data first)

/-- The part of a vector's type name after `Vec`. -/
def vectorParameters (typeName : String) : String :=
  String.ofList ((Text.afterWord? "Vec".toList typeName.toList).getD [])

/-- A sequence under a title, with its length. -/
def titled (title : String) (length : UInt64) : Rendering :=
  ⟨title ++ " [" ++ toString length.toNat ++ "]", 0 < length⟩

/-- The elements of a vector. -/
def vectorElements (v : NamedValue) : VisualM σ (List NamedValue) := do
  let length ← requiredField v.data "len"
  let buffer ← requiredField v.data "buf"
  match ← look (findPointer? maxPointerDepth buffer) with
  | none => throw (.fieldNotFound "buf.ptr")
  | some pointer => look (elements pointer length.word.toNat)

/-- The elements of a slice. -/
def sliceElements (v : NamedValue) : VisualM σ (List NamedValue) := do
  let length ← requiredField v.data "length"
  let pointer ← requiredField v.data "data_ptr"
  look (elements pointer length.word.toNat)

/-- The visualizer of vectors. -/
def vector : Visualizer σ where
  name := "vec"
  accepts v := return vectorTypeStarts.any (Text.startsWith · v.typeName)
  render v := do
    return titled ("Vec" ++ vectorParameters v.typeName) (← requiredField v.data "len").word
  children := vectorElements

/-- The visualizer of slices. -/
def slice : Visualizer σ where
  name := "slice"
  accepts v := return Text.hasWord "&[" v.typeName
  render v := do return titled v.typeName (← requiredField v.data "length").word
  children := sliceElements

end DebugAdapter.Visualizer
