import DebugAdapter.Json.Basic
import DebugAdapter.Text.Hex

/-!
# Writing JSON

The text of a value without any blanks. In strings the quote, the backslash and the control
characters are escaped, all other characters stand for themselves.
-/

namespace DebugAdapter.Json

/-- A character inside a string. -/
def escapeChar (c : Char) : List Char :=
  if c = '"' then ['\\', '"']
  else if c = '\\' then ['\\', '\\']
  else if c = '\n' then ['\\', 'n']
  else if c = '\r' then ['\\', 'r']
  else if c = '\t' then ['\\', 't']
  else if c = '\x08' then ['\\', 'b']
  else if c = '\x0c' then ['\\', 'f']
  else if c.toNat < 0x20 then '\\' :: 'u' :: Text.hexFixed Text.hexDigitLower 4 c.toNat
  else [c]

/-- A string with its quotes. -/
def quote (s : String) : List Char :=
  '"' :: s.toList.flatMap escapeChar ++ ['"']

mutual

/-- The text of a value. -/
def render : Json → List Char
  | null => ['n', 'u', 'l', 'l']
  | bool true => ['t', 'r', 'u', 'e']
  | bool false => ['f', 'a', 'l', 's', 'e']
  | int n => (toString n).toList
  | fraction literal => literal.toList
  | str s => quote s
  | arr elements => '[' :: renderElements elements ++ [']']
  | obj members => '\x7b' :: renderMembers members ++ ['\x7d']

/-- Elements with commas between them. -/
def renderElements : List Json → List Char
  | [] => []
  | [v] => v.render
  | v :: rest => v.render ++ ',' :: renderElements rest

/-- Members with commas between them. -/
def renderMembers : List (String × Json) → List Char
  | [] => []
  | [(name, v)] => quote name ++ ':' :: v.render
  | (name, v) :: rest => quote name ++ ':' :: v.render ++ ',' :: renderMembers rest

end

/-- The text of a value. -/
def text (j : Json) : String :=
  String.ofList j.render

end DebugAdapter.Json
