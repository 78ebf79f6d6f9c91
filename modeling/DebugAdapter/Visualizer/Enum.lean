import DebugAdapter.Text.Blank
import DebugAdapter.Text.Decimal
import DebugAdapter.Text.Search
import DebugAdapter.Visualizer.Basic

/-!
# Enum visualizers

Two layouts of enums. A tagged enum begins with a discriminant byte and has one marker field in front
of the fields of each variant. A niche-encoded enum has no discriminant; a rule reads from the value
whether its variant with data is active.
-/

namespace DebugAdapter.Visualizer

/-- The text starts with `start`, but for the case of ASCII letters. -/
def startsWithLetters (start name : String) : Bool :=
  Text.sameLetters start.toList (name.toList.take start.toList.length)

/-- A marker in front of the fields of a variant of a tagged enum. -/
def isTagMarker (name : String) : Bool :=
  startsWithLetters "RUST$ENUM$" name

/-- The marker of a niche-encoded enum. -/
def isNicheMarker (name : String) : Bool :=
  startsWithLetters "RUST$ENCODED$ENUM$" name

/-- Put a name under a value, in ascending order of values. -/
def putVariant (value : UInt64) (name : String) : List (UInt64 × String) → List (UInt64 × String)
  | [] => [(value, name)]
  | (v, n) :: rest =>
    if value < v then (value, name) :: (v, n) :: rest
    else if value = v then (value, name) :: rest
    else (v, n) :: putVariant value name rest

/-- The value and the name on a line `name = 0nvalue`; the mark `0n` may be missing. -/
def variantOfLine? (line : List Char) : Option (UInt64 × String) := do
  let (name, value) ← Text.splitFirst '=' line
  let digits := match Text.trim value with
    | '0' :: 'n' :: digits => digits
    | digits => digits
  let value ← (Text.readUInt64 (Text.trim digits)).toOption
  return (value, String.ofList (Text.trim name))

/-- The variants that the lines of a type definition list, in ascending order of values. Of two lines
for one value the later one counts; lines of another form are passed over. -/
def parseVariants (definition : String) : List (UInt64 × String) :=
  ((Text.lines definition.toList).filterMap variantOfLine?).foldl
    (fun variants (value, name) => putVariant value name variants) []

/-- The fields of the variant with discriminant `d`: those between marker number `d`, counted from
zero, and the next marker. -/
def variantFields : (d : Nat) → List String → List String
  | _, [] => []
  | d, name :: rest =>
    if isTagMarker name then
      match d with
      | 0 => rest.takeWhile (!isTagMarker ·)
      | d + 1 => variantFields d rest
    else variantFields d rest

section

variable {σ : Type} [DataSpaces σ]

/-- The discriminant of a tagged enum: its first byte. -/
def discriminant (data : TypedData) : VisualM σ UInt8 := do
  match ← look (Memory.readBytes data.offset 1) with
  | [] => throw (.unreadable data.offset)
  | b :: _ => return b

/-- What is shown for a discriminant that no variant has. -/
def unknownVariant : String := "<Unknown>"

/-- Show a tagged enum by its active variant. The definition of the first marker's type lists the
variants. -/
def renderTagged (v : NamedValue) : VisualM σ Rendering := do
  let some markerName := (← look (Memory.fieldNames v.data)).head? |
    throw (.fieldNotFound "RUST$ENUM$")
  let marker ← look (Memory.field v.data markerName)
  let variants := parseVariants (← look (Memory.typeDefinition marker))
  let d ← discriminant v.data
  match variants.find? (·.1.toNat == d.toNat) with
  | some (_, name) => return ⟨v.typeName ++ "::" ++ name, true⟩
  | none => return ⟨unknownVariant, true⟩

/-- The fields of the active variant. -/
def taggedChildren (v : NamedValue) : VisualM σ (List NamedValue) := do
  let d ← discriminant v.data
  look do
    (variantFields d.toNat (← Memory.fieldNames v.data)).mapM fun name => do
      Memory.named name (← Memory.field v.data name)

/-- The visualizer of enums with a discriminant. -/
def taggedEnum : Visualizer σ where
  name := "tagged-enum"
  accepts v := return (← Memory.fieldNames v.data).any isTagMarker
  render := renderTagged
  children := taggedChildren

/-- How to tell whether the variant with data is active. -/
structure NicheRule (σ : Type) where
  name : String
  hasPayload : TypedData → VisualM σ Bool

/-- The payload is the last word of the value, of pointer size; all of its bytes are zero if the
variant without data is active. -/
def trailingPointerRule : NicheRule σ where
  name := "trailing-pointer-v1"
  hasPayload data := do
    let pointerSize := (← look get).pointerSize.toUInt32
    -- the last word would begin in front of the value
    if data.size < pointerSize then
      throw (.noData ("trailing-pointer-v1: value of " ++ toString data.size.toNat ++ " bytes"))
    let offset := data.offset + (data.size - pointerSize).toUInt64
    let word ← look (Memory.readBytes offset pointerSize)
    if word.length < pointerSize.toNat then throw (.unreadable offset)
    return word.any (· != 0)

/-- The variants of a niche-encoded enum. -/
structure NicheVariants where
  withoutData : String
  withData : String
  deriving DecidableEq, Repr

/-- The variants that a definition `marker$None : Path::Some` names: without data what stands after
the last `$` in front of the first colon, with data what stands after the path separator. A
separator is a colon and one character more. -/
def NicheVariants.parse? (definition : String) : Option NicheVariants := do
  let (marker, rest) ← Text.splitFirst ':' definition.toList
  let withoutData := Text.trim (Text.afterLast '$' (Text.trim marker))
  let rest := Text.trim rest
  let withData ← match Text.splitFirst ':' rest with
    | none => some rest
    | some (_, []) => none
    -- the second byte of the separator is passed over; it has to be a character of its own
    | some (_, c :: name) => if c.toNat < 0x80 then some name else none
  let withData := Text.trim withData
  if withoutData.isEmpty || withData.isEmpty then none
  else some ⟨String.ofList withoutData, String.ofList withData⟩

/-- Show a niche-encoded enum by its active variant. -/
def renderEncoded (rule : NicheRule σ) (v : NamedValue) : VisualM σ Rendering := do
  let definition ← look (Memory.typeDefinition v.data)
  let some variants := NicheVariants.parse? definition | throw (.typeDefinition definition)
  let payload ← rule.hasPayload v.data
  let name := if payload then variants.withData else variants.withoutData
  return ⟨v.typeName ++ "::" ++ name, payload⟩

/-- The payload, or what it points to. -/
def encodedChildren (rule : NicheRule σ) (v : NamedValue) : VisualM σ (List NamedValue) := do
  if !(← rule.hasPayload v.data) then return []
  match (← look (Memory.fields v.data)).head? with
  | none => throw (.fieldNotFound "RUST$ENCODED$ENUM$")
  | some (_, payload) =>
    if payload.tag = .pointer then
      let pointee ← look (Memory.dereference payload)
      -- a pointer that cannot be followed is listed itself
      return [← look (Memory.named "inner" (if pointee.isNone then payload else pointee))]
    else return [← look (Memory.named "inner" payload)]

/-- The visualizer of enums without a discriminant. -/
def encodedEnum (rule : NicheRule σ) : Visualizer σ where
  name := "encoded-enum"
  accepts v := return (← Memory.fieldNames v.data).any isNicheMarker
  render := renderEncoded rule
  children := encodedChildren rule

end

end DebugAdapter.Visualizer
