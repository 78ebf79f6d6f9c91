import DebugAdapter.Json.Token
import DebugAdapter.Text.Utf8

/-!
# Reading JSON

A reader that takes one token at a time and keeps the containers that are open. A text is read if it
holds one value and nothing more, and no more than `maxDepth` containers inside each other.
-/

namespace DebugAdapter.Json

/-- The most containers that may be open at once. -/
def maxDepth : Nat := 127

/-- A container that is open, with what was read of it. -/
inductive Container
  | array (elements : List Json)
  /-- An object, and the name of the member that is being read. -/
  | object (members : List (String × Json)) (name : String)

/-- What has to come next. -/
inductive Expected
  | value
  /-- The first element of an array, or its end. -/
  | element
  /-- The first member of an object, or its end. -/
  | firstName
  | name
  | colon
  | commaOrEnd

/-- A reader: the open containers, innermost first, or the value that was read. -/
inductive Reading
  | reading (opened : List Container) (expected : Expected)
  | read (v : Json)

namespace Reading

/-- Put a value into the innermost container. -/
def deliver (v : Json) : List Container → Reading
  | [] => .read v
  | .array elements :: outer => .reading (.array (elements ++ [v]) :: outer) .commaOrEnd
  | .object members name :: outer =>
    .reading (.object (insertMember name v members) "" :: outer) .commaOrEnd

/-- Open a container. -/
def opening (c : Container) (expected : Expected) (opened : List Container) : Option Reading :=
  if opened.length < maxDepth then some (.reading (c :: opened) expected) else none

/-- Begin a value. -/
def beginValue (opened : List Container) : Token → Option Reading
  | .scalar v => some (deliver v opened)
  | .text s => some (deliver (.str s) opened)
  | .openArray => opening (.array []) .element opened
  | .openObject => opening (.object [] "") .firstName opened
  | _ => none

/-- Take the name of a member. -/
def takeName (s : String) : List Container → Option Reading
  | .object members _ :: outer => some (.reading (.object members s :: outer) .colon)
  | _ => none

/-- End the innermost container. -/
def close (opened : List Container) (t : Token) : Option Reading :=
  match opened, t with
  | .array elements :: outer, .closeArray => some (deliver (.arr elements) outer)
  | .object members _ :: outer, .closeObject => some (deliver (.obj members) outer)
  | _, _ => none

/-- Go on after a value. -/
def continueContainer (opened : List Container) : Option Reading :=
  match opened with
  -- no end may follow a comma
  | .array _ :: _ => some (.reading opened .value)
  | .object _ _ :: _ => some (.reading opened .name)
  | [] => none

/-- Take a token; `none` if it cannot stand there. -/
def step : Reading → Token → Option Reading
  | .read _, _ => none
  | .reading opened expected, t =>
    match expected, t with
    | .value, t => beginValue opened t
    | .element, .closeArray => close opened .closeArray
    | .element, t => beginValue opened t
    | .firstName, .closeObject => close opened .closeObject
    | .firstName, .text s | .name, .text s => takeName s opened
    | .colon, .colon => some (.reading opened .value)
    | .commaOrEnd, .comma => continueContainer opened
    | .commaOrEnd, t => close opened t
    | _, _ => none

/-- The value that was read, once there is one. -/
def value? : Reading → Option Json
  | .read v => some v
  | .reading .. => none

end Reading

/-- Read a text of one value. -/
def parse? (s : List Char) : Option Json := do
  let last ← (← tokens s).foldlM Reading.step (.reading [] .value)
  last.value?

/-- Read bytes that hold one value. -/
def parseBytes? (bytes : List UInt8) : Option Json := do
  parse? (← Text.Utf8.decode? bytes).toList

end DebugAdapter.Json
