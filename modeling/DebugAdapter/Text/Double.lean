/-!
# The range of doubles

Which decimal numbers are too large for a double. The bound lies half a step above the greatest
finite double; a number that reaches it would be rounded to infinity.
-/

namespace DebugAdapter.Text

/-- The number that digits write. -/
def digitsValue (digits : List Char) : Nat :=
  digits.foldl (fun n c => n * 10 + (c.toNat - 48)) 0

/-- Half a step above the greatest finite double. -/
def doubleBound : Nat :=
  1 <<< 1024 - 1 <<< 970

/-- The number that digits write, scaled by a power of ten, is too large for a double. Far from the
bound the count of the digits settles it, so that no huge power is worked out. -/
def exceedsDouble (digits : List Char) (exponent : Int) : Bool :=
  let digits := digits.dropWhile (· == '0')
  let magnitude := digits.length + exponent
  -- the number lies between 10 ^ (magnitude - 1) and 10 ^ magnitude
  if digits.isEmpty ∨ magnitude < 308 then false
  else if 310 < magnitude then true
  else if 0 ≤ exponent then doubleBound ≤ digitsValue digits * Nat.pow 10 exponent.toNat
  else doubleBound * Nat.pow 10 (-exponent).toNat ≤ digitsValue digits

end DebugAdapter.Text
