import DebugAdapter.Json.Basic
import DebugAdapter.Text.Blank
import DebugAdapter.Text.Decimal

/-!
# Requests

The message by which a client asks for something, and how its arguments are read. An argument that is
`null` counts as missing.
-/

namespace DebugAdapter

/-- A message that names a command. Only those of type `request` are to be answered. -/
structure Request where
  seq : Int
  type : String
  command : String
  arguments : Json := .null

namespace Request

/-- Read the fields of a message one by one. -/
def ofFields? (seq type command : Json) (arguments : Json) : Option Request := do
  return { seq := ← seq.toInt64?, type := ← type.toString?, command := ← command.toString?, arguments }

/-- Read a message: an object with its fields as members, or an array of them in order. The arguments
may be left out. -/
def ofJson? : Json → Option Request
  | .obj members => do
    let seq ← Json.findMember "seq" members
    let type ← Json.findMember "type" members
    let command ← Json.findMember "command" members
    ofFields? seq type command ((Json.findMember "arguments" members).getD .null)
  | .arr [seq, type, command] => ofFields? seq type command .null
  | .arr [seq, type, command, arguments] => ofFields? seq type command arguments
  | _ => none

/-- An argument that is there and is not `null`. -/
def argument? (r : Request) (name : String) : Option Json :=
  (r.arguments.member? name).filter (!·.isNull)

/-- An argument that is a text. -/
def text? (r : Request) (name : String) : Option String :=
  (r.argument? name).bind Json.toString?

/-- An argument that is an integer, or a text that writes one, perhaps between blanks. -/
def int? (r : Request) (name : String) : Option Int := do
  let value ← r.argument? name
  value.toInt64? <|> do
    (Text.readInt64 (Text.trim (← value.toString?).toList)).toOption

/-- An argument that is a truth value. -/
def bool? (r : Request) (name : String) : Option Bool :=
  (r.argument? name).bind Json.toBool?

/-- An argument that is a list of texts. Other elements are left out; a text that is not blank stands
for a list of itself. -/
def texts (r : Request) (name : String) : List String :=
  match r.argument? name with
  | some (.arr elements) => elements.filterMap Json.toString?
  | some (.str s) => if Text.isAllBlank s then [] else [s]
  | _ => []

end Request

end DebugAdapter
