import DebugAdapter.Text.Hex

/-!
# Socket addresses

The text forms of an address with a port: four decimal octets, or up to eight hexadecimal groups in
brackets, where one run of zero groups may be left out as two colons and the last two groups may be
written as four octets.

Main statement: an address always has eight groups (`length_ofHalves`).
-/

namespace DebugAdapter

/-- An address with a port. -/
inductive SocketAddress
  | v4 (octets : List Nat) (port : Nat)
  | v6 (groups : List Nat) (scope port : Nat)
  deriving DecidableEq, Repr

namespace SocketAddress

/-- A reader: what it reads, and the rest of the text. -/
abbrev ReadM := StateT (List Char) Option

/-- Read a character if it is the one expected. -/
def expect (c : Char) : ReadM Unit := fun s =>
  match s with
  | d :: rest => if d = c then some ((), rest) else none
  | [] => none

/-- A digit of a base. -/
def isDigitOf (base : Nat) (c : Char) : Bool :=
  (Text.hexValue? c).any (· < base)

/-- The number that digits write. -/
def valueOf (base : Nat) (digits : List Char) : Nat :=
  digits.foldl (fun n c => n * base + (Text.hexValue? c).getD 0) 0

/-- Read a number up to a bound, of as many digits as there are, but not more than `most`. -/
def readNumber (base bound : Nat) (most : Option Nat) (zeroFirst : Bool) : ReadM Nat := fun s =>
  let digits := s.takeWhile (isDigitOf base)
  let tooMany := most.any (· < digits.length)
  let badZero := !zeroFirst && digits.head? == some '0' && 1 < digits.length
  if digits.isEmpty || tooMany || badZero || bound < valueOf base digits then none
  else some (valueOf base digits, s.drop digits.length)

/-- Read an octet. -/
def readOctet : ReadM Nat :=
  readNumber 10 255 (some 3) false

/-- Read four octets with points between them. -/
def readOctets : ReadM (List Nat) := do
  let a ← readOctet
  expect '.'
  let b ← readOctet
  expect '.'
  let c ← readOctet
  expect '.'
  let d ← readOctet
  return [a, b, c, d]

/-- Read a group. -/
def readGroup : ReadM Nat :=
  readNumber 16 0xFFFF (some 4) true

/-- Read a colon and then something. -/
def afterColon {α : Type} (isFirst : Bool) (m : ReadM α) : ReadM α := do
  if !isFirst then expect ':'
  m

/-- Four octets as two groups. -/
def groupsOf : List Nat → List Nat
  | [a, b, c, d] => [a * 256 + b, c * 256 + d]
  | _ => []

/-- Read at most `limit` groups with colons between them. The result tells too whether the last two
were written as octets. -/
def readGroups (isFirst : Bool) : (limit : Nat) → List Char → (List Nat × Bool) × List Char
  | 0, s => (([], false), s)
  | limit + 1, s =>
    -- octets need the room of two groups
    match if 0 < limit then (afterColon isFirst readOctets).run s else none with
    | some (octets, rest) => ((groupsOf octets, true), rest)
    | none =>
      match (afterColon isFirst readGroup).run s with
      | none => (([], false), s)
      | some (group, rest) =>
        let ((groups, octets), rest) := readGroups false limit rest
        ((group :: groups, octets), rest)

/-- The groups of an address whose zeros between two halves are left out. -/
def ofHalves (front back : List Nat) : List Nat :=
  front ++ List.replicate (8 - front.length - back.length) 0 ++ back

/-- Read eight groups, a run of zeros perhaps left out. -/
def readAllGroups : ReadM (List Nat) := fun s =>
  match readGroups true 8 s with
  | ((front, octets), rest) =>
    if front.length = 8 then some (front, rest)
    -- octets are the last two groups, so no zeros are left out behind them
    else if octets then none
    else
      match rest with
      -- the colons stand for one group at least
      | ':' :: ':' :: rest =>
        let ((back, _), rest) := readGroups true (7 - front.length) rest
        some (ofHalves front back, rest)
      | _ => none

/-- Read a port after its colon. -/
def readPort : ReadM Nat := do
  expect ':'
  readNumber 10 0xFFFF none true

/-- Read the number of a scope, which may be left out. -/
def readScope : ReadM Nat := fun s =>
  match s with
  | '%' :: rest => (readNumber 10 0xFFFFFFFF none true).run rest
  | s => some (0, s)

/-- Read an address of four octets. -/
def readV4 : ReadM SocketAddress := do
  let octets ← readOctets
  return .v4 octets (← readPort)

/-- Read an address of eight groups. -/
def readV6 : ReadM SocketAddress := do
  expect '['
  let groups ← readAllGroups
  let scope ← readScope
  expect ']'
  return .v6 groups scope (← readPort)

/-- Read an address. -/
def ofText? (text : String) : Option SocketAddress :=
  match readV4.run text.toList <|> readV6.run text.toList with
  | some (a, []) => some a
  | _ => none

/-- The groups in front of `::` and behind it are filled up with zeros to the eight of an address. -/
theorem length_ofHalves {front back : List Nat} (h : front.length + back.length ≤ 8) :
    (ofHalves front back).length = 8 := by
  simp [ofHalves]
  omega

end SocketAddress

end DebugAdapter
