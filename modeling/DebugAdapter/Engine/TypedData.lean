/-!
# Typed data

A value of the debuggee as the engine hands it out: where it lies, its type, and its first word.
-/

namespace DebugAdapter

/-- The kind of symbol a value's type is. -/
inductive SymbolTag
  | null
  | base
  | record
  | enumeration
  | pointer
  | array
  | function
  | other (n : UInt32)
  deriving DecidableEq, Repr

/-- A typed value in the debuggee's memory. `word` is its content as far as it fits 64 bits; of a
pointer it is the address pointed to. -/
structure TypedData where
  moduleBase : UInt64
  offset : UInt64
  typeId : UInt32
  size : UInt32
  tag : SymbolTag
  word : UInt64
  deriving DecidableEq, Repr

namespace TypedData

/-- The absent value. -/
def none : TypedData :=
  ⟨0, 0, 0, 0, .null, 0⟩

instance : Inhabited TypedData := ⟨none⟩

/-- A value without type counts as absent, wherever it lies. -/
def isNone (d : TypedData) : Bool :=
  d.typeId == 0 && d.tag == .null

/-- The value that stands for no value counts as such. -/
@[simp] theorem isNone_none : none.isNone = true := rfl

end TypedData

/-- A request for a typed value. -/
inductive TypedRequest
  | ofType (moduleBase offset : UInt64) (typeId : UInt32)
  | dereference (data : TypedData)
  | field (data : TypedData) (name : String)
  | arrayElement (data : TypedData) (index : UInt64)
  | evaluate (expression : String)
  deriving DecidableEq, Repr

/-- A request for a text about a typed value. -/
inductive TextRequest
  | typeDefinition
  | simpleValue
  deriving DecidableEq, Repr

end DebugAdapter
