import DebugAdapter.Json.Number
import DebugAdapter.Text.Hex

/-!
# JSON tokens

Cutting a text into tokens, one character at a time. A number or a word ends at the first character
that cannot belong to it, and that character is then read afresh.
-/

namespace DebugAdapter.Json

/-- A token. Strings stand apart from other values since they may name members. -/
inductive Token
  | openArray
  | closeArray
  | openObject
  | closeObject
  | comma
  | colon
  | text (s : String)
  | scalar (v : Json)

/-- The character of a surrogate pair or of a single unit, if there is one. -/
def charOfUnits? (high : Option Nat) (unit : Nat) : Option Char :=
  match high with
  | some h =>
    -- a first unit of a pair has to be followed by a second one
    if 0xDC00 ≤ unit ∧ unit ≤ 0xDFFF then
      some (Char.ofNat (0x10000 + (h - 0xD800) * 0x400 + (unit - 0xDC00)))
    else none
  -- one unit of a pair alone is no character
  | none => if 0xD800 ≤ unit ∧ unit ≤ 0xDFFF then none else some (Char.ofNat unit)

/-- What is being read. Characters of it are kept in reverse. -/
inductive Lexing
  | between
  | word (letters : List Char)
  | number (chars : List Char)
  | string (chars : List Char)
  /-- After a backslash. -/
  | escape (chars : List Char)
  /-- After `\u` and some digits, perhaps after a first unit of a surrogate pair. -/
  | unit (chars : List Char) (high : Option Nat) (digits : Nat) (value : Nat)
  /-- After the first unit of a surrogate pair. -/
  | lowBackslash (chars : List Char) (high : Nat)
  | lowLetter (chars : List Char) (high : Nat)

/-- The value that a word names. -/
def readWord? (letters : List Char) : Option Json :=
  if letters = ['n', 'u', 'l', 'l'] then some .null
  else if letters = ['t', 'r', 'u', 'e'] then some (.bool true)
  else if letters = ['f', 'a', 'l', 's', 'e'] then some (.bool false)
  else none

/-- Read a character between tokens. -/
def lexBetween (c : Char) : Option (List Token × Lexing) :=
  if c = ' ' ∨ c = '\t' ∨ c = '\n' ∨ c = '\r' then some ([], .between)
  else if c = '[' then some ([.openArray], .between)
  else if c = ']' then some ([.closeArray], .between)
  else if c = '\x7b' then some ([.openObject], .between)
  else if c = '\x7d' then some ([.closeObject], .between)
  else if c = ',' then some ([.comma], .between)
  else if c = ':' then some ([.colon], .between)
  else if c = '"' then some ([], .string [])
  else if c.isLower then some ([], .word [c])
  else if c = '-' ∨ ('0' ≤ c ∧ c ≤ '9') then some ([], .number [c])
  else none

/-- End a token and read a character after it. -/
def lexAfter (v : Option Json) (c : Char) : Option (List Token × Lexing) := do
  let v ← v
  let (tokens, next) ← lexBetween c
  return (.scalar v :: tokens, next)

/-- The character that an escape letter means. -/
def unescape? (c : Char) : Option Char :=
  if c = '"' ∨ c = '\\' ∨ c = '/' then some c
  else if c = 'b' then some '\x08'
  else if c = 'f' then some '\x0c'
  else if c = 'n' then some '\n'
  else if c = 'r' then some '\r'
  else if c = 't' then some '\t'
  else none

/-- End a unit of an escape. -/
def endUnit (chars : List Char) (high : Option Nat) (value : Nat) : Option Lexing :=
  if high.isNone ∧ 0xD800 ≤ value ∧ value ≤ 0xDBFF then some (.lowBackslash chars value)
  else (charOfUnits? high value).map fun c => .string (c :: chars)

/-- Read one character: the tokens it completes and what is being read then; `none` if it cannot
stand there. -/
def lexChar (state : Lexing) (c : Char) : Option (List Token × Lexing) :=
  match state with
  | .between => lexBetween c
  | .word letters =>
    if c.isLower then some ([], .word (c :: letters)) else lexAfter (readWord? letters.reverse) c
  | .number chars =>
    if isNumberChar c then some ([], .number (c :: chars)) else lexAfter (readNumber? chars.reverse) c
  | .string chars =>
    if c = '"' then some ([.text (String.ofList chars.reverse)], .between)
    else if c = '\\' then some ([], .escape chars)
    -- a control character has to be escaped
    else if c.toNat < 0x20 then none
    else some ([], .string (c :: chars))
  | .escape chars =>
    if c = 'u' then some ([], .unit chars none 0 0)
    else (unescape? c).map fun d => ([], .string (d :: chars))
  | .unit chars high digits value => do
    let value := value * 16 + (← Text.hexValue? c)
    if digits < 3 then return ([], .unit chars high (digits + 1) value)
    else return ([], ← endUnit chars high value)
  | .lowBackslash chars high => if c = '\\' then some ([], .lowLetter chars high) else none
  | .lowLetter chars high => if c = 'u' then some ([], .unit chars (some high) 0 0) else none

/-- The token that the end of the text completes. -/
def lexEnd : Lexing → Option (List Token)
  | .between => some []
  | .word letters => (readWord? letters.reverse).map fun v => [.scalar v]
  | .number chars => (readNumber? chars.reverse).map fun v => [.scalar v]
  -- a string is ended by its quote only
  | _ => none

/-- The tokens of the rest of a text. -/
def tokensFrom (state : Lexing) : List Char → Option (List Token)
  | [] => lexEnd state
  | c :: rest => do
    let (tokens, next) ← lexChar state c
    return tokens ++ (← tokensFrom next rest)

/-- The tokens of a text. -/
def tokens (s : List Char) : Option (List Token) :=
  tokensFrom .between s

end DebugAdapter.Json
