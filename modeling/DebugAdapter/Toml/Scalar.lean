import DebugAdapter.Text.Double
import DebugAdapter.Text.Hex
import DebugAdapter.Toml.Basic
import DebugAdapter.Width

/-!
# TOML scalars

Reading strings of all four kinds, and the words that write numbers, truth values and dates. A reader
takes what it reads off the front of a text and gives the rest.
-/

namespace DebugAdapter.Toml

/-- A reader: what it reads, and the rest of the text. -/
abbrev ReadM := StateT (List Char) Option

/-- A blank inside a line. -/
def isSpace (c : Char) : Bool :=
  c == ' ' || c == '\t'

/-- A character that may stand in a comment or a string. -/
def isPrintable (c : Char) : Bool :=
  c == '\t' || (0x20 ≤ c.toNat && c.toNat != 0x7F)

/-- The character with a code. -/
def charOfCode? (code : Nat) : Option Char :=
  if (0xD800 ≤ code ∧ code ≤ 0xDFFF) ∨ 0x10FFFF < code then none else some (Char.ofNat code)

/-- The character that hexadecimal digits mean. -/
def charOfDigits? (digits : List Char) : Option Char := do
  charOfCode? (← digits.foldlM (fun n c => (Text.hexValue? c).map (n * 16 + ·)) 0)

/-- The character that a letter after a backslash means. -/
def unescape? : Char → Option Char
  | 'b' => some '\x08'
  | 't' => some '\t'
  | 'n' => some '\n'
  | 'f' => some '\x0c'
  | 'r' => some '\r'
  | '"' => some '"'
  | '\\' => some '\\'
  | _ => none

/-- Put a character in front of what was read. -/
def prepend (c : Char) : List Char × List Char → List Char × List Char
  | (s, rest) => (c :: s, rest)

/-- The rest of a basic string, after its quote. -/
def basicString : List Char → Option (List Char × List Char)
  | '"' :: rest => some ([], rest)
  | '\\' :: 'u' :: a :: b :: c :: d :: rest => do
    return prepend (← charOfDigits? [a, b, c, d]) (← basicString rest)
  | '\\' :: 'U' :: a :: b :: c :: d :: e :: f :: g :: h :: rest => do
    return prepend (← charOfDigits? [a, b, c, d, e, f, g, h]) (← basicString rest)
  | '\\' :: c :: rest => do return prepend (← unescape? c) (← basicString rest)
  | c :: rest => if isPrintable c ∧ c ≠ '\\' then (basicString rest).map (prepend c) else none
  | [] => none

/-- The rest of a literal string, after its quote. -/
def literalString : List Char → Option (List Char × List Char)
  | [] => none
  | c :: rest =>
    if c = '\'' then some ([], rest)
    else if isPrintable c then (literalString rest).map (prepend c)
    else none

/-- The end of a string of several lines, if it is there: up to two quotes in front of the closing
ones belong to the string. -/
def multilineEnd? (quote : Char) (s : List Char) : Option (List Char × List Char) :=
  let quotes := (s.takeWhile (· == quote)).length
  if quotes < 3 then none
  else
    let inside := min (quotes - 3) 2
    some (List.replicate inside quote, s.drop (inside + 3))

/-- How the blanks behind a backslash at the end of a line are passed over. -/
inductive Trimming
  | none
  /-- Still on the line of the backslash. -/
  | line
  /-- On a line behind it. -/
  | after
  deriving DecidableEq, Repr

/-- The rest of a basic string of several lines. -/
def multilineBasic (trim : Trimming) : List Char → Option (List Char × List Char)
  | [] => none
  | c :: rest =>
    if trim = .line ∧ isSpace c then multilineBasic .line rest
    else if trim = .line ∧ c ≠ '\n' ∧ ¬(c = '\r' ∧ rest.head? = some '\n') then none
    else if trim ≠ .none ∧ (isSpace c ∨ c = '\n' ∨ (c = '\r' ∧ rest.head? = some '\n')) then
      multilineBasic (if c = '\n' then .after else trim) rest
    else
      -- outside of a trimmed stretch: the end, an escape, a line end, or any other character
      match multilineEnd? '"' (c :: rest) with
      | some found => some found
      | none =>
        if c = '\\' then
          match rest with
          | 'u' :: a :: b :: c :: d :: rest => do
            return prepend (← charOfDigits? [a, b, c, d]) (← multilineBasic .none rest)
          | 'U' :: a :: b :: c :: d :: e :: f :: g :: h :: rest => do
            return prepend (← charOfDigits? [a, b, c, d, e, f, g, h]) (← multilineBasic .none rest)
          | c :: rest =>
            match unescape? c with
            | some c => (multilineBasic .none rest).map (prepend c)
            | none =>
              if isSpace c then multilineBasic .line rest
              else if c = '\n' then multilineBasic .after rest
              else if c = '\r' ∧ rest.head? = some '\n' then multilineBasic .line rest
              else none
          | [] => none
        else if c = '\r' ∧ rest.head? = some '\n' then multilineBasic .none rest
        else if c = '\n' ∨ isPrintable c then (multilineBasic .none rest).map (prepend c)
        else none

/-- The rest of a literal string of several lines. -/
def multilineLiteral : List Char → Option (List Char × List Char)
  | [] => none
  | c :: rest =>
    match multilineEnd? '\'' (c :: rest) with
    | some found => some found
    | none =>
      if c = '\r' ∧ rest.head? = some '\n' then multilineLiteral rest
      else if c = '\n' ∨ isPrintable c then (multilineLiteral rest).map (prepend c)
      else none

/-- Pass over a line end right behind the opening quotes. -/
def dropFirstLineEnd : List Char → List Char
  | '\n' :: rest => rest
  | '\r' :: '\n' :: rest => rest
  | s => s

/-- Read a string of any kind. -/
def readString : List Char → Option (List Char × List Char)
  | '"' :: '"' :: '"' :: rest => multilineBasic .none (dropFirstLineEnd rest)
  | '\'' :: '\'' :: '\'' :: rest => multilineLiteral (dropFirstLineEnd rest)
  | '"' :: rest => basicString rest
  | '\'' :: rest => literalString rest
  | _ => none

/-- Digits of a base with single underscores between them: the number they write. -/
def readDigits? (base : Nat) (s : List Char) : Option Nat :=
  let digit (c : Char) : Option Nat := (Text.hexValue? c).filter (· < base)
  let rec go (n : Nat) (afterDigit : Bool) : List Char → Option Nat
    | [] => if afterDigit then some n else none
    | c :: rest =>
      if c = '_' then if afterDigit then go n false rest else none
      else (digit c).bind fun d => go (n * base + d) true rest
  go 0 false s

/-- An unsigned decimal number without leading zeros. -/
def readUnsigned? (s : List Char) : Option Nat :=
  if s.head? = some '0' ∧ s ≠ ['0'] then none else readDigits? 10 s

/-- Split off a sign: true for a minus. -/
def splitSign : List Char → Bool × List Char
  | '-' :: rest => (true, rest)
  | '+' :: rest => (false, rest)
  | s => (false, s)

/-- An integer, which has to fit 64 bits. -/
def readInteger? (s : List Char) : Option Int := do
  let n : Int ← match s with
    | '0' :: 'x' :: digits => (readDigits? 16 digits).map Int.ofNat
    | '0' :: 'o' :: digits => (readDigits? 8 digits).map Int.ofNat
    | '0' :: 'b' :: digits => (readDigits? 2 digits).map Int.ofNat
    | s =>
      let (negative, digits) := splitSign s
      (readUnsigned? digits).map fun n => if negative then -(n : Int) else n
  if fitsInt64 n then some n else none

/-- A text writes a number with a fraction, an exponent, or one of the words for what is no finite
number. A positive number that is too large for a double is refused. -/
def isFloat (s : List Char) : Bool :=
  let (negative, s) := splitSign s
  if s = ['n', 'a', 'n'] ∨ s = ['i', 'n', 'f'] then true
  else
    let mantissa := s.takeWhile fun c => c != 'e' && c != 'E'
    let whole := mantissa.takeWhile (· != '.')
    let fraction := mantissa.drop whole.length
    let (negativeExponent, exponent) := splitSign ((s.drop mantissa.length).drop 1)
    let digits (s : List Char) := s.filter Char.isDigit
    let scale : Int := Text.digitsValue (digits exponent)
    let shift := (if negativeExponent then -scale else scale) - (digits fraction).length
    (readUnsigned? whole).isSome &&
      (fraction.isEmpty || (readDigits? 10 (fraction.drop 1)).isSome) &&
      (mantissa.length == s.length || (readDigits? 10 exponent).isSome) &&
      !(fraction.isEmpty && mantissa.length == s.length) &&
      (negative || !Text.exceedsDouble (digits whole ++ digits fraction) shift)

/-- A number of two digits up to a bound. -/
def isTwoDigits (low high : Nat) (s : List Char) : Bool :=
  s.length == 2 && (s.all Char.isDigit) && (readDigits? 10 s).any fun n => low ≤ n && n ≤ high

/-- A calendar date. -/
def isDate (s : List Char) : Bool :=
  match s with
  | [y₁, y₂, y₃, y₄, '-', m₁, m₂, '-', d₁, d₂] =>
    [y₁, y₂, y₃, y₄].all Char.isDigit && isTwoDigits 1 12 [m₁, m₂] &&
      (let year := (readDigits? 10 [y₁, y₂, y₃, y₄]).getD 0
       let month := (readDigits? 10 [m₁, m₂]).getD 0
       let leap := (year % 4 == 0 && year % 100 != 0) || year % 400 == 0
       let last :=
        if month == 2 then if leap then 29 else 28 else if [4, 6, 9, 11].contains month then 30 else 31
       isTwoDigits 1 last [d₁, d₂])
  | _ => false

/-- A time of the day, perhaps with a fraction of a second. -/
def isTime (s : List Char) : Bool :=
  match s with
  | h₁ :: h₂ :: ':' :: m₁ :: m₂ :: ':' :: s₁ :: s₂ :: rest =>
    isTwoDigits 0 23 [h₁, h₂] && isTwoDigits 0 59 [m₁, m₂] && isTwoDigits 0 60 [s₁, s₂] &&
      (match rest with
       | [] => true
       | '.' :: digits => !digits.isEmpty && digits.all Char.isDigit
       | _ => false)
  | _ => false

/-- An offset from universal time, or none. -/
def isOffset (s : List Char) : Bool :=
  match s with
  | [] | ['Z'] | ['z'] => true
  | [sign, h₁, h₂, ':', m₁, m₂] =>
    (sign == '+' || sign == '-') && isTwoDigits 0 23 [h₁, h₂] && isTwoDigits 0 59 [m₁, m₂]
  | _ => false

/-- A date, a time, or both with a mark or a blank between them, and then perhaps an offset. -/
def isDateTime (s : List Char) : Bool :=
  isDate s || isTime s ||
    (isDate (s.take 10) && (match s.drop 10 with
      | mark :: rest =>
        let time := rest.takeWhile fun c => c.isDigit || c == ':' || c == '.'
        (mark == 'T' || mark == 't' || mark == ' ') && isTime time && isOffset (rest.drop time.length)
      | [] => false))

/-- A character of a word that writes a number, a truth value or a date. -/
def isWordChar (c : Char) : Bool :=
  c.isAlphanum || c == '+' || c == '-' || c == '_' || c == '.' || c == ':'

/-- The word in front of a text. A date takes the time behind a blank with it. -/
def spanWord (s : List Char) : List Char × List Char :=
  let word := s.takeWhile isWordChar
  let rest := s.drop word.length
  match rest with
  | ' ' :: c :: _ =>
    if isDate word ∧ c.isDigit then
      let more := (rest.drop 1).takeWhile isWordChar
      (word ++ ' ' :: more, rest.drop (more.length + 1))
    else (word, rest)
  | _ => (word, rest)

/-- The value that a word writes. -/
def readWord? (word : List Char) : Option Toml :=
  if word = ['t', 'r', 'u', 'e'] then some (.bool true)
  else if word = ['f', 'a', 'l', 's', 'e'] then some (.bool false)
  else
    match readInteger? word with
    | some n => some (.integer n)
    | none => if isDateTime word then some .date else if isFloat word then some .float else none

end DebugAdapter.Toml
