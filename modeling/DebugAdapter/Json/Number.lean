import DebugAdapter.Json.Basic
import DebugAdapter.Text.Double
import DebugAdapter.Width

/-!
# JSON numbers

Reading the number that a literal writes: an optional minus sign, an integer part without leading
zeros, and optionally a fraction and an exponent.
-/

namespace DebugAdapter.Json

/-- A character of a number literal. -/
def isNumberChar (c : Char) : Bool :=
  ('0' ≤ c && c ≤ '9') || c == '-' || c == '+' || c == '.' || c == 'e' || c == 'E'

/-- The digits in front of a text, and what follows them. -/
def spanDigits (s : List Char) : List Char × List Char :=
  s.span fun c => '0' ≤ c && c ≤ '9'

/-- The parts of a number literal. -/
structure NumberLiteral where
  negative : Bool
  whole : List Char
  fraction : Option (List Char)
  exponent : Option (Bool × List Char)

/-- Split off a fraction. -/
def readFraction? : List Char → Option (Option (List Char) × List Char)
  | '.' :: s =>
    let (digits, rest) := spanDigits s
    if digits.isEmpty then none else some (some digits, rest)
  | s => some (none, s)

/-- Split off the sign of an exponent: true for a minus. -/
def readExponentSign : List Char → Bool × List Char
  | '-' :: s => (true, s)
  | '+' :: s => (false, s)
  | s => (false, s)

/-- Read an exponent, after which nothing may follow. -/
def readExponent? : List Char → Option (Option (Bool × List Char))
  | [] => some none
  | c :: s =>
    if c = 'e' ∨ c = 'E' then
      let (negative, s) := readExponentSign s
      let (digits, rest) := spanDigits s
      if digits.isEmpty || !rest.isEmpty then none else some (some (negative, digits))
    else none

/-- Split a literal into its parts. -/
def NumberLiteral.ofChars? (s : List Char) : Option NumberLiteral := do
  let (negative, s) := match s with
    | '-' :: s => (true, s)
    | s => (false, s)
  let (whole, rest) := spanDigits s
  if whole.isEmpty || (whole.head? = some '0' && whole.length ≠ 1) then none
  let (fraction, rest) ← readFraction? rest
  let exponent ← readExponent? rest
  return { negative, whole, fraction, exponent }

/-- The number is too large for a double, so that it is refused. -/
def NumberLiteral.overflows (l : NumberLiteral) : Bool :=
  let fraction := l.fraction.getD []
  let scale : Int := match l.exponent with
    | none => 0
    | some (negative, e) =>
      if negative then -(Text.digitsValue e : Int) else Text.digitsValue e
  Text.exceedsDouble (l.whole ++ fraction) (scale - fraction.length)

/-- Read a number literal. -/
def readNumber? (s : List Char) : Option Json := do
  let l ← NumberLiteral.ofChars? s
  let n := Text.digitsValue l.whole
  -- an integer of 64 bits, signed if it is negative; minus zero is none
  if l.fraction.isNone && l.exponent.isNone && !(l.negative && n == 0) &&
      (if l.negative then n ≤ int64Min.natAbs else n < UInt64.size : Bool) then
    return .int (if l.negative then -(n : Int) else n)
  -- only minus zero is left of the integers that are zero
  else if l.fraction.isNone && l.exponent.isNone && n == 0 then return .fraction "-0.0"
  else if l.overflows then none
  else return .fraction (String.ofList s)

end DebugAdapter.Json
