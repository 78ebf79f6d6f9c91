/-!
# Hexadecimal text

Digits, fixed-width words and numbers in base sixteen.
-/

namespace DebugAdapter.Text

/-- The digit for `n % 16`, lower case. -/
def hexDigitLower (n : Nat) : Char :=
  let d := n % 16
  if d < 10 then Char.ofNat (48 + d) else Char.ofNat (87 + d)

/-- The digit for `n % 16`, upper case. -/
def hexDigitUpper (n : Nat) : Char :=
  let d := n % 16
  if d < 10 then Char.ofNat (48 + d) else Char.ofNat (55 + d)

/-- The value of a hexadecimal digit of either case. -/
def hexValue? (c : Char) : Option Nat :=
  if '0' ≤ c ∧ c ≤ '9' then some (c.toNat - 48)
  else if 'a' ≤ c ∧ c ≤ 'f' then some (c.toNat - 87)
  else if 'A' ≤ c ∧ c ≤ 'F' then some (c.toNat - 55)
  else none

/-- The last `width` hexadecimal digits of `n`, most significant first. -/
def hexFixed (digit : Nat → Char) : (width : Nat) → (n : Nat) → List Char
  | 0, _ => []
  | width + 1, n => hexFixed digit width (n / 16) ++ [digit n]

/-- A number is written with as many digits as are asked for, however large it is. -/
@[simp] theorem length_hexFixed (digit : Nat → Char) (width n : Nat) :
    (hexFixed digit width n).length = width := by
  induction width generalizing n with
  | zero => rfl
  | succ width ih => simp [hexFixed, ih]

/-- The number of hexadecimal digits of `n`, at least one. -/
def hexWidth (n : Nat) : Nat :=
  if n = 0 then 1 else Nat.log2 n / 4 + 1

/-- `n` in base sixteen without leading zeros, lower case, after `0x`. -/
def hexPrefixed (n : Nat) : String :=
  "0x" ++ String.ofList (hexFixed hexDigitLower (hexWidth n) n)

/-- `n` in base sixteen without leading zeros, upper case. -/
def hexUpper (n : Nat) : String :=
  String.ofList (hexFixed hexDigitUpper (hexWidth n) n)

/-- A 32 bit word as eight upper case digits. -/
def wordText (w : UInt32) : String :=
  String.ofList (hexFixed hexDigitUpper 8 w.toNat)

end DebugAdapter.Text
