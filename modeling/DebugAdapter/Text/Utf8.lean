/-!
# UTF-8

Encoding and decoding of byte strings. Decoding reads one byte at a time and keeps the character
that is under way; a byte that cannot continue it ends it as one malformed part and is then read
afresh. So a malformed part is the longest one that could still have become a character.
`decode?` refuses malformed parts, `decodeLossy` puts U+FFFD in their place.
-/

namespace DebugAdapter.Text.Utf8

/-- The text as bytes. -/
def encode (s : String) : List UInt8 :=
  s.toList.flatMap String.utf8EncodeChar

/-- A character under way: the payload so far, the number of bytes still owed, and the range of the
next one. -/
structure Pending where
  payload : Nat
  owed : Nat
  low : Nat
  high : Nat
  deriving DecidableEq, Repr

/-- What a first byte means. -/
inductive FirstByte
  | whole (c : Char)
  | more (p : Pending)
  | malformed
  deriving DecidableEq, Repr

/-- Read a first byte. The ranges of the second byte keep out overlong forms, surrogates and code
points above U+10FFFF. -/
def firstByte (b : Nat) : FirstByte :=
  if b < 0x80 then .whole (Char.ofNat b)
  -- a byte that continues a character, or begins an overlong form
  else if b < 0xC2 then .malformed
  else if b < 0xE0 then .more ⟨b % 0x20, 1, 0x80, 0xBF⟩
  else if b = 0xE0 then .more ⟨0, 2, 0xA0, 0xBF⟩
  else if b = 0xED then .more ⟨0xD, 2, 0x80, 0x9F⟩
  else if b < 0xF0 then .more ⟨b % 0x10, 2, 0x80, 0xBF⟩
  else if b = 0xF0 then .more ⟨0, 3, 0x90, 0xBF⟩
  else if b < 0xF4 then .more ⟨b % 8, 3, 0x80, 0xBF⟩
  else if b = 0xF4 then .more ⟨4, 3, 0x80, 0x8F⟩
  else .malformed

/-- Read a byte between characters: the characters it completes (`none` is a malformed part) and
the character it begins. -/
def beginChar (b : Nat) : List (Option Char) × Option Pending :=
  match firstByte b with
  | .whole c => ([some c], none)
  | .more p => ([], some p)
  | .malformed => ([none], none)

/-- Read one byte. -/
def advance (under : Option Pending) (b : Nat) : List (Option Char) × Option Pending :=
  match under with
  | none => beginChar b
  | some p =>
    if p.low ≤ b ∧ b ≤ p.high then
      let payload := p.payload * 64 + b % 64
      if p.owed ≤ 1 then ([some (Char.ofNat payload)], none)
      else ([], some ⟨payload, p.owed - 1, 0x80, 0xBF⟩)
    else
      -- the character under way ends here as one malformed part
      let (done, next) := beginChar b
      (none :: done, next)

/-- The characters of a byte string, after the character under way; `none` is a malformed part. -/
def decodeFrom (under : Option Pending) : List UInt8 → List (Option Char)
  | [] => if under.isSome then [none] else []
  | b :: rest =>
    let (done, next) := advance under b.toNat
    done ++ decodeFrom next rest

/-- The characters of a byte string; `none` is a malformed part. -/
def decode (bytes : List UInt8) : List (Option Char) :=
  decodeFrom none bytes

/-- The text, `none` if a part is malformed. -/
def decode? (bytes : List UInt8) : Option String :=
  ((decode bytes).mapM id).map String.ofList

/-- The text with U+FFFD in the place of each malformed part. -/
def decodeLossy (bytes : List UInt8) : String :=
  String.ofList ((decode bytes).map (·.getD '\uFFFD'))

/-- ASCII bytes read as themselves. -/
theorem decodeFrom_ascii {b : UInt8} (h : b.toNat < 0x80) (rest : List UInt8) :
    decodeFrom none (b :: rest) = some (Char.ofNat b.toNat) :: decodeFrom none rest := by
  simp [decodeFrom, advance, beginChar, firstByte, h]

end DebugAdapter.Text.Utf8
