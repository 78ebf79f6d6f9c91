import DebugAdapter.Width

/-!
# Decimal numbers with a bound

Reading an integer of a fixed range from text. The reader takes an optional sign and ASCII digits
and nothing else, and it stops at the first character that settles the answer: a character that is
no digit, or a digit that takes the number out of the range.
-/

namespace DebugAdapter.Text

/-- Why a text is not an integer of the range asked for. -/
inductive NumberError
  | empty
  | invalidDigit
  | tooLarge
  | tooSmall
  deriving DecidableEq, Repr

/-- The wording of a number error. -/
def NumberError.message : NumberError → String
  | .empty => "cannot parse integer from empty string"
  | .invalidDigit => "invalid digit found in string"
  | .tooLarge => "number too large to fit in target type"
  | .tooSmall => "number too small to fit in target type"

/-- The value of an ASCII digit. -/
def digitValue? (c : Char) : Option Nat :=
  if '0' ≤ c ∧ c ≤ '9' then some (c.toNat - 48) else none

/-- Read digits after the value `acc`, as long as the value stays at or below `bound`. -/
def readDigits (bound : Nat) (excess : NumberError) : (acc : Nat) → List Char → Except NumberError Nat
  | acc, [] => .ok acc
  | acc, c :: rest =>
    match digitValue? c with
    | none => .error .invalidDigit
    | some d =>
      if acc * 10 + d ≤ bound then readDigits bound excess (acc * 10 + d) rest else .error excess

/-- Read a natural number up to `bound`; a leading `+` is allowed. -/
def readNat (bound : Nat) : List Char → Except NumberError Nat
  | [] => .error .empty
  -- a sign alone is no number
  | ['+'] => .error .invalidDigit
  | '+' :: digits => readDigits bound .tooLarge 0 digits
  | digits => readDigits bound .tooLarge 0 digits

/-- Read a signed 64 bit number; a leading `+` or `-` is allowed. -/
def readInt64 : List Char → Except NumberError Int
  | [] => .error .empty
  | ['-'] => .error .invalidDigit
  | '-' :: digits => (readDigits int64Min.natAbs .tooSmall 0 digits).map fun n => -(n : Int)
  | digits => (readNat int64Max.natAbs digits).map Int.ofNat

/-- Read an unsigned 64 bit number. -/
def readUInt64 (s : List Char) : Except NumberError UInt64 :=
  (readNat (UInt64.size - 1) s).map UInt64.ofNat

/-- What is read keeps the bound. -/
theorem readDigits_le {bound acc n : Nat} {excess : NumberError} {s : List Char} (hacc : acc ≤ bound)
    (h : readDigits bound excess acc s = .ok n) : n ≤ bound := by
  induction s generalizing acc with
  | nil => simp only [readDigits, Except.ok.injEq] at h; omega
  | cons c rest ih =>
    simp only [readDigits] at h
    split at h
    · exact nomatch h
    · split at h
      · exact ih (by assumption) h
      · exact nomatch h

end DebugAdapter.Text
