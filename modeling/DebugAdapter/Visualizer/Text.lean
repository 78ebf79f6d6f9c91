import DebugAdapter.Text.Search
import DebugAdapter.Visualizer.Basic

/-!
# Text visualizers

Strings: a pointer with a length (`&str`), a vector of bytes (`String`), and terminated bytes behind
a pointer or in place. They are shown in quotes, and they have no children.
-/

namespace DebugAdapter.Visualizer

variable {σ : Type} [DataSpaces σ]

/-- The longest string that is read by its length. -/
def maxTextBytes : Nat := 65536

/-- The longest terminated string that is read. -/
def maxCTextBytes : UInt32 := 200

/-- How a string lies in memory. -/
inductive TextLayout
  /-- A pointer and a length. -/
  | view
  /-- A vector of bytes. -/
  | owned
  /-- A pointer to terminated bytes. -/
  | pointer
  deriving DecidableEq, Repr

/-- The layout of strings of a type. -/
def TextLayout.ofTypeName? (typeName : String) : Option TextLayout :=
  let letters := typeName.toList
  if Text.sameLetters letters "struct &str".toList || Text.sameLetters letters "&str".toList then
    some .view
  else if Text.sameLetters letters "struct &str *".toList then some .pointer
  else if Text.hasWord "string::String" typeName then some .owned
  else none

/-- A text in quotes. -/
def quoted (text : String) : Rendering :=
  .leaf ("\"" ++ text ++ "\"")

/-- The text of `length` bytes at an address. A text longer than `maxTextBytes` is cut there and ends
with `...`. -/
def textAt (address : UInt64) (length : UInt64) : VisualM σ String := do
  -- the pointer of an empty text may be anything
  if length = 0 then return ""
  if address = 0 then throw (.unreadable address)
  let size := min length.toNat maxTextBytes
  let bytes ← look (Memory.readBytes address (UInt32.ofNat size))
  if bytes.length < size then throw (.unreadable address)
  let text := Text.Utf8.decodeLossy bytes
  return if size < length.toNat then text ++ "..." else text

/-- The text of terminated bytes. A text without terminator among the first `maxCTextBytes` bytes
ends with `...`. -/
def terminatedText (raw : List UInt8) : String :=
  let text := Text.Utf8.decodeLossy (raw.takeWhile (· != 0))
  if raw.contains 0 || raw.length < maxCTextBytes.toNat then text else text ++ "..."

/-- The text of terminated bytes at an address. -/
def terminatedTextAt (address : UInt64) : VisualM σ String := do
  match ← look (Memory.readCBytes? address maxCTextBytes) with
  | none => throw (.unreadable address)
  | some raw => return terminatedText raw

/-- The text of a pointer with a length. The pointer is in the field `data_ptr`, and at the start of
the value if there is no such field. -/
def viewText (data : TypedData) : VisualM σ String := do
  let length ← requiredField data "length"
  let pointer ← look (Memory.field data "data_ptr")
  let start := if pointer.isNone then data.offset else pointer.offset
  let address ← look (Memory.readPointer start)
  textAt address length.word

/-- The text of a vector of bytes, which is the first field of the value. -/
def ownedText (data : TypedData) : VisualM σ String := do
  let some vectorName := (← look (Memory.fieldNames data)).head? | throw (.fieldNotFound "vec")
  let vector ← look (Memory.field data vectorName)
  let length ← requiredField vector "len"
  let buffer ← requiredField vector "buf"
  textAt (← look (Memory.readPointer buffer.offset)) length.word

/-- Show a string. -/
def renderText (v : NamedValue) : VisualM σ Rendering := do
  match TextLayout.ofTypeName? v.typeName with
  | none => throw (.noData v.name)
  | some .pointer =>
    let bytes ← look (Memory.dereference v.data)
    if bytes.isNone then throw (.noData v.name)
    return quoted (← terminatedTextAt bytes.offset)
  | some .view => return quoted (← viewText v.data)
  | some .owned => return quoted (← ownedText v.data)

/-- The visualizer of `&str` and `String`. -/
def string : Visualizer σ where
  name := "string"
  accepts v := return (TextLayout.ofTypeName? v.typeName).isSome
  render := renderText
  children _ := return []

/-- The visualizer of platform strings, which are terminated bytes in place. -/
def wtf8 : Visualizer σ where
  name := "wtf8"
  accepts v := return v.typeName == "struct std::sys_common::wtf8::Wtf8"
  render v := return quoted (← terminatedTextAt v.data.offset)
  children _ := return []

end DebugAdapter.Visualizer
