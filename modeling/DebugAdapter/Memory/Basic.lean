import DebugAdapter.Engine.Basic
import DebugAdapter.Memory.TypeNames
import DebugAdapter.NamedValue
import DebugAdapter.Text.Blank
import DebugAdapter.Text.Utf8

/-!
# Typed memory

Looking at the debuggee's values without failing: what the engine cannot give is the absent value, no
bytes, or no text. Nothing is asked about the absent value.
-/

namespace DebugAdapter

/-- What a look at the debuggee's memory goes through: the engine, the type names known so far, and
the debuggee's pointer size in bytes. -/
structure Memory (σ : Type) where
  engine : σ
  typeNames : TypeNameCache := {}
  pointerSize : UInt8 := 8

/-- A look at the debuggee's memory. -/
abbrev MemoryM (σ : Type) := StateM (Memory σ)

/-- The number that bytes spell, least significant byte first. -/
def littleEndian : List UInt8 → Nat
  | [] => 0
  | b :: rest => b.toNat + 256 * littleEndian rest

/-- The lowest `n` bytes of a number, least significant byte first. -/
def littleEndianBytes : (n value : Nat) → List UInt8
  | 0, _ => []
  | n + 1, value => UInt8.ofNat (value % 256) :: littleEndianBytes n (value / 256)

/-- A number is written in as many bytes as are asked for, however large it is. -/
@[simp] theorem length_littleEndianBytes (n value : Nat) :
    (littleEndianBytes n value).length = n := by
  induction n generalizing value with
  | zero => rfl
  | succ n ih => simp [littleEndianBytes, ih]

/-- Bytes read back as the number they were taken from, up to their number. -/
theorem littleEndian_littleEndianBytes (n value : Nat) :
    littleEndian (littleEndianBytes n value) = value % Nat.pow 256 n := by
  induction n generalizing value with
  | zero => simp [littleEndianBytes, littleEndian, Nat.mod_one]
  | succ n ih =>
    simp only [littleEndianBytes, littleEndian, ih, UInt8.toNat_ofNat']
    rw [show Nat.pow 256 (n + 1) = 256 * Nat.pow 256 n from Nat.pow_succ', Nat.mod_mul]
    omega

namespace Memory

variable {σ : Type}

/-- Ask the engine; `none` if it fails. -/
def ask {α : Type} (m : EngineM σ α) : MemoryM σ (Option α) := fun mem =>
  let (answer, engine) := m.call mem.engine
  (answer.toOption, { mem with engine })

variable [DataSpaces σ]

/-- Ask for a typed value. -/
def request (r : TypedRequest) : MemoryM σ TypedData := do
  return (← ask (DataSpaces.typedData r)).getD .none

/-- The value of a type at an address. -/
def create (moduleBase offset : UInt64) (typeId : UInt32) : MemoryM σ TypedData :=
  request (.ofType moduleBase offset typeId)

/-- What a pointer points to. -/
def dereference (data : TypedData) : MemoryM σ TypedData :=
  if data.isNone then return .none else request (.dereference data)

/-- A field of a record. -/
def field (data : TypedData) (name : String) : MemoryM σ TypedData :=
  if data.isNone then return .none else request (.field data name)

/-- An element of an array, or of what a pointer points to. -/
def arrayElement (data : TypedData) (index : UInt64) : MemoryM σ TypedData :=
  if data.isNone then return .none else request (.arrayElement data index)

/-- The value of an expression. -/
def evaluate (expression : String) : MemoryM σ TypedData :=
  request (.evaluate expression)

/-- Bytes at an address. -/
def readBytes (offset : UInt64) (size : UInt32) : MemoryM σ (List UInt8) := do
  return (← ask (DataSpaces.readVirtual offset size)).getD []

/-- The bytes of a terminated string, as the engine gives them. -/
def readCBytes? (offset : UInt64) (maxLength : UInt32) : MemoryM σ (Option (List UInt8)) :=
  ask (DataSpaces.readString offset maxLength)

/-- The text of a terminated string. -/
def readString (offset : UInt64) (maxLength : UInt32) : MemoryM σ String := do
  let raw := (← readCBytes? offset maxLength).getD []
  -- the engine may leave the terminator and what follows it
  return Text.Utf8.decodeLossy (raw.takeWhile (· != 0))

/-- The number in `size` bytes at an address, at most 8; zero if they cannot all be read. -/
def readUInt (offset : UInt64) (size : UInt8) : MemoryM σ UInt64 := do
  let size := min size 8
  let bytes ← readBytes offset size.toUInt32
  -- a number of which a part is missing is worse than none
  if bytes.length < size.toNat then return 0
  return UInt64.ofNat (littleEndian (bytes.take size.toNat))

/-- The pointer at an address. -/
def readPointer (offset : UInt64) : MemoryM σ UInt64 := do
  readUInt offset (← get).pointerSize

/-- Write bytes; true if all were written. -/
def writeBytes (offset : UInt64) (bytes : List UInt8) : MemoryM σ Bool := do
  return (← ask (DataSpaces.writeVirtual offset bytes)).any (·.toNat == bytes.length)

/-- The definition of a value's type. -/
def typeDefinition (data : TypedData) : MemoryM σ String :=
  if data.isNone then return ""
  else return (← ask (DataSpaces.typedText .typeDefinition data)).getD ""

/-- A value as short text. -/
def shortValue (data : TypedData) : MemoryM σ String :=
  if data.isNone then return ""
  else return Text.trimmed ((← ask (DataSpaces.typedText .simpleValue data)).getD "")

/-- The names of a record's fields, in the order of declaration. -/
def fieldNames (data : TypedData) : MemoryM σ (List String) :=
  if data.isNone then return []
  else return (← ask (DataSpaces.fieldNames data)).getD []

/-- Put a pair into a list of pairs with distinct keys: in place if the key is there, else at the
end. -/
def putField (fields : List (String × TypedData)) (name : String) (data : TypedData) :
    List (String × TypedData) :=
  if fields.any (·.1 == name) then
    fields.map fun f => if f.1 == name then (name, data) else f
  else fields ++ [(name, data)]

/-- The fields of a record, in the order of declaration. A name that occurs again keeps its first
place. -/
def fields (data : TypedData) : MemoryM σ (List (String × TypedData)) := do
  let pairs ← (← fieldNames data).mapM fun name => do return (name, ← field data name)
  return pairs.foldl (fun fields (name, data) => putField fields name data) []

/-- The name of a value's type. A name that the engine gave once is remembered, a failure or an
empty name is not. -/
def typeName (data : TypedData) : MemoryM σ String := do
  if data.isNone then return ""
  let key : TypeKey := ⟨data.moduleBase, data.typeId⟩
  let (known, typeNames) := (← get).typeNames.lookup key
  modify fun mem => { mem with typeNames }
  match known with
  | some name => return name
  | none =>
    let name := (← ask (DataSpaces.typeName data.moduleBase data.typeId)).getD ""
    if !name.isEmpty then
      modify fun mem => { mem with typeNames := mem.typeNames.insert key name }
    return name

/-- A value under a name, with the type name that the engine has for it. -/
def named (name : String) (data : TypedData) : MemoryM σ NamedValue := do
  return ⟨name, ← typeName data, data⟩

end Memory

end DebugAdapter
