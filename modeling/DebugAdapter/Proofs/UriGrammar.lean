import Mathlib.Data.List.TakeDrop
import DebugAdapter.Proofs.Utf8Exact

/-!
# The URIs that name a path

The grammar of the URIs that are read as a path: the scheme, no host or the local one, and a text that begins
with a slash and spells the bytes of the path (`Names`). A percent sign spells a byte together with the two
characters behind it. These are two digits, or a plus sign and a digit (`SignedPair`): a plus sign is taken
where a number is read.

## Key results

- `percentDecode?_eq_some_iff`: the bytes that a text spells
- `ofUri?_eq_some_iff`: a URI is read as a path exactly if it names the path
-/

namespace DebugAdapter.Path

/-! ## The grammar -/

/-- A hexadecimal digit of either case, and its value. -/
def IsDigit (c : Char) (n : Nat) : Prop :=
  "0123456789abcdef".toList[n]? = some c ∨ "0123456789ABCDEF".toList[n]? = some c

/-- Two hexadecimal digits, and the byte that they mean. -/
def DigitPair (a b : Char) (byte : UInt8) : Prop :=
  ∃ high low, IsDigit a high ∧ IsDigit b low ∧ byte = UInt8.ofNat (high * 16 + low)

/-- Two characters that are taken for a byte: two digits, or a plus sign and a digit. -/
def SignedPair (a b : Char) (byte : UInt8) : Prop :=
  DigitPair a b byte ∨ a = '+' ∧ ∃ low, IsDigit b low ∧ byte = UInt8.ofNat low

/-- Each percent sign in a text is followed by two characters that mean a byte, and these are the bytes of
the text. -/
inductive Spells (Pair : Char → Char → UInt8 → Prop) : List Char → List UInt8 → Prop
  | nil : Spells Pair [] []
  | plain {c : Char} {rest : List Char} {bytes : List UInt8} (other : c ≠ '%')
      (spells : Spells Pair rest bytes) : Spells Pair (c :: rest) (String.utf8EncodeChar c ++ bytes)
  | escape {a b : Char} {byte : UInt8} {rest : List Char} {bytes : List UInt8} (pair : Pair a b byte)
      (spells : Spells Pair rest bytes) : Spells Pair ('%' :: a :: b :: rest) (byte :: bytes)

/-- The path that is written with slashes, and with one in front: a path with a drive letter has
backslashes, and nothing in front. -/
def native : List Char → List Char
  | '/' :: letter :: ':' :: rest =>
    if letter.isAlpha then letter :: ':' :: backward rest else '/' :: letter :: ':' :: rest
  | path => path

/-- A URI names a path: it is made of the scheme, no host or the local one, and a text that begins with a
slash and spells the bytes of the path. -/
def Names (Pair : Char → Char → UInt8 → Prop) (uri path : String) : Prop :=
  ∃ host rest written, (host = [] ∨ host = "localhost".toList) ∧
    uri.toList = "file://".toList ++ host ++ '/' :: rest ∧
    Spells Pair ('/' :: rest) (Text.Utf8.encode written) ∧
    path = String.ofList (native written.toList)

/-! ### Escapes -/

instance (c : Char) (n : Nat) : Decidable (IsDigit c n) :=
  inferInstanceAs (Decidable (_ ∨ _))

/-- Exactly the sixteen digits, in lower or upper case, have a value, each its own. -/
theorem hexValue?_eq_some_iff {c : Char} {n : Nat} : Text.hexValue? c = some n ↔ IsDigit c n := by
  constructor
  · -- the digits are consecutive in each of three ranges, and there are few enough to be tried
    have decimal : ∀ k < 10, IsDigit (Char.ofNat (48 + k)) k := by decide
    have letter : ∀ k < 6, IsDigit (Char.ofNat (97 + k)) (10 + k) ∧ IsDigit (Char.ofNat (65 + k)) (10 + k) := by
      decide
    have named : ∀ {k m : Nat}, c.toNat = m + k → Char.ofNat (m + k) = c := fun code =>
      code ▸ Char.ofNat_toNat c
    -- characters are compared by their numbers
    have range : ∀ {low high : Char}, low ≤ c ∧ c ≤ high → low.toNat ≤ c.toNat ∧ c.toNat ≤ high.toNat :=
      fun h => ⟨UInt32.le_iff_toNat_le.1 h.1, UInt32.le_iff_toNat_le.1 h.2⟩
    intro h
    rw [Text.hexValue?] at h
    split at h
    · next within =>
      have within : 48 ≤ c.toNat ∧ c.toNat ≤ 57 := range within
      obtain rfl := Option.some.inj h
      have digit := decimal (c.toNat - 48) (by omega)
      rwa [named (by omega)] at digit
    split at h
    · next within =>
      have within : 97 ≤ c.toNat ∧ c.toNat ≤ 102 := range within
      have digit := (letter (c.toNat - 97) (by omega)).1
      rwa [named (by omega), show 10 + (c.toNat - 97) = n from by have := Option.some.inj h; omega] at digit
    split at h
    · next within =>
      have within : 65 ≤ c.toNat ∧ c.toNat ≤ 70 := range within
      have digit := (letter (c.toNat - 65) (by omega)).2
      rwa [named (by omega), show 10 + (c.toNat - 65) = n from by have := Option.some.inj h; omega] at digit
    · cases h
  · -- the value of each of the sixteen digits, in both spellings
    have values : ∀ n < 16, "0123456789abcdef".toList[n]?.bind Text.hexValue? = some n ∧
        "0123456789ABCDEF".toList[n]?.bind Text.hexValue? = some n := by decide
    rintro (h | h)
    all_goals
      have bound : n < 16 := (List.getElem?_eq_some_iff.1 h).1
      have value := values n bound
      rw [h] at value
    · exact value.1
    · exact value.2

/-- Two characters after a percent sign give a byte if they are two digits or a plus sign and a digit. -/
theorem percentByte?_eq_some_iff {a b : Char} {byte : UInt8} :
    percentByte? a b = some byte ↔ SignedPair a b byte := by
  have unsigned : ∀ n, ¬IsDigit '+' n := by
    intro n digit
    have value := hexValue?_eq_some_iff.2 digit
    cases value
  simp only [percentByte?, Option.bind_eq_bind, Option.bind_eq_some_iff, hexValue?_eq_some_iff]
  -- the plus sign is looked for in the first place only, and it is no digit itself
  constructor
  · rintro ⟨low, digit, h⟩
    split at h
    · next plus =>
      exact .inr ⟨plus, low, digit, (Option.some.inj h).symm⟩
    · obtain ⟨high, digit', h⟩ := Option.bind_eq_some_iff.1 h
      exact .inl ⟨high, low, hexValue?_eq_some_iff.1 digit', digit, (Option.some.inj h).symm⟩
  · rintro (⟨high, low, digit', digit, rfl⟩ | ⟨rfl, low, digit, rfl⟩)
    · have ne : a ≠ '+' := by
        rintro rfl
        exact unsigned high digit'
      refine ⟨low, digit, ?_⟩
      rw [if_neg ne, hexValue?_eq_some_iff.2 digit']
      rfl
    · exact ⟨low, digit, rfl⟩

/-- A text that spells bytes is decoded as these. -/
theorem percentDecode?_eq_some_iff {s : List Char} {bytes : List UInt8} :
    percentDecode? s = some bytes ↔ Spells SignedPair s bytes := by
  constructor
  · intro h
    -- the cases of the decoder are the ways a text may go on
    fun_induction percentDecode? s generalizing bytes with
    | case1 =>
      obtain rfl := Option.some.inj h
      exact .nil
    | case2 a b rest ih =>
      obtain ⟨byte, pair, h⟩ := Option.bind_eq_some_iff.1 h
      obtain ⟨more, rest, h⟩ := Option.bind_eq_some_iff.1 h
      obtain rfl := Option.some.inj h
      exact .escape (percentByte?_eq_some_iff.1 pair) (ih rest)
    -- an escape that is cut short is refused
    | case3 => cases h
    | case4 c rest other ne ih =>
      obtain ⟨more, rest, rfl⟩ := Option.map_eq_some_iff.1 h
      exact .plain ne (ih rest)
  · intro h
    induction h with
    | nil => rfl
    | plain other spells ih =>
      rw [percentDecode?, if_neg other, ih]
      · rfl
      · exact fun _ _ _ percent => absurd percent other
    | escape pair spells ih =>
      simp only [percentDecode?, percentByte?_eq_some_iff.2 pair, ih]
      rfl

/-! ### The path in a URI -/

/-- What is in front of the first slash has none. -/
private theorem span_slash {front rest : List Char} (free : '/' ∉ front) :
    (front ++ '/' :: rest).span (· != '/') = (front, '/' :: rest) := by
  have all : ∀ c ∈ front, (c != '/') = true := by
    intro c mem
    rw [bne_iff_ne]
    rintro rfl
    exact free mem
  have stop : ('/' :: rest).takeWhile (· != '/') = [] ∧ ('/' :: rest).dropWhile (· != '/') = '/' :: rest :=
    ⟨rfl, rfl⟩
  rw [List.span_eq_takeWhile_dropWhile, List.takeWhile_append_of_pos all, List.dropWhile_append_of_pos all,
    stop.1, stop.2, List.append_nil]

/-- A text with a slash is what is in front of the first one, and what begins there. -/
private theorem exists_of_span {s front path : List Char} (h : s.span (· != '/') = (front, path))
    (some : path.isEmpty = false) : ∃ rest, path = '/' :: rest ∧ s = front ++ '/' :: rest := by
  rw [List.span_eq_takeWhile_dropWhile] at h
  obtain ⟨rfl, rfl⟩ := Prod.mk.inj h
  cases slash : s.dropWhile (· != '/') with
  | nil => rw [slash] at some; cases some
  | cons c rest =>
    have first := List.head?_dropWhile_not (· != '/') s
    rw [slash] at first
    obtain rfl : c = '/' := by simpa using first
    exact ⟨rest, rfl, by rw [← slash, List.takeWhile_append_dropWhile]⟩

/-- The path in a URI begins at the slash behind the host. -/
theorem localPart?_eq_some_iff {uri path : List Char} :
    localPart? uri = some path ↔ ∃ host rest : List Char, (host = [] ∨ host = "localhost".toList) ∧
      uri = "file://".toList ++ host ++ '/' :: rest ∧ path = '/' :: rest := by
  have free : '/' ∉ "localhost".toList := by decide
  unfold localPart?
  generalize "file://".toList = scheme, "localhost".toList = localhost at free ⊢
  dsimp only
  constructor
  · intro h
    split at h
    · next fits =>
      obtain ⟨behind, rfl⟩ := List.isPrefixOf_iff_prefix.1 fits
      rw [List.drop_left] at h
      cases spans : behind.span (· != '/') with
      | mk host path' =>
        rw [spans] at h
        dsimp only at h
        split at h
        · cases h
        · next some =>
          -- the path begins with the slash where the span ends
          obtain ⟨rest, rfl, rfl⟩ := exists_of_span spans (by simpa using some)
          split at h
          · next known =>
            obtain rfl := Option.some.inj h
            refine ⟨host, rest, ?_, (List.append_assoc ..).symm, rfl⟩
            simpa using known
          · cases h
    · cases h
  · rintro ⟨host, rest, known, rfl, rfl⟩
    -- neither of the two hosts has a slash, so the span ends where the path begins
    have spans : (host ++ '/' :: rest).span (· != '/') = (host, '/' :: rest) := by
      refine span_slash ?_
      rcases known with rfl | rfl
      · exact List.not_mem_nil
      · exact free
    have fits : scheme.isPrefixOf (scheme ++ host ++ '/' :: rest) = true := by
      rw [List.isPrefixOf_iff_prefix, List.append_assoc]
      exact List.prefix_append _ _
    have behind : (scheme ++ host ++ '/' :: rest).drop scheme.length = host ++ '/' :: rest := by
      rw [List.append_assoc, List.drop_left]
    have allowed : (decide (host = []) || decide (host = localhost)) = true := by simpa using known
    rw [if_pos fits, behind, spans]
    dsimp only
    rw [List.isEmpty_cons, if_neg Bool.false_ne_true, if_pos allowed]

/-- A text whose bytes begin with that of a slash begins with a slash. -/
private theorem exists_of_encode {s : String} {bytes : List UInt8}
    (h : Text.Utf8.encode s = String.utf8EncodeChar '/' ++ bytes) : ∃ rest, s.toList = '/' :: rest := by
  have read : Text.Utf8.decodeFrom none (Text.Utf8.encode s) = some '/' :: Text.Utf8.decodeFrom none bytes := by
    rw [h, Text.Utf8.decodeFrom_utf8EncodeChar]
  rw [Text.Utf8.encode] at read
  cases letters : s.toList with
  | nil => simp [letters, Text.Utf8.decodeFrom] at read
  | cons c rest =>
    rw [letters, List.flatMap_cons, Text.Utf8.decodeFrom_utf8EncodeChar] at read
    obtain rfl := Option.some.inj (List.cons.inj read).1
    exact ⟨rest, rfl⟩

/-- What is spelled by a text that begins with a slash begins with a slash. -/
theorem Spells.exists_of_slash {Pair : Char → Char → UInt8 → Prop} {rest : List Char} {s : String}
    (h : Spells Pair ('/' :: rest) (Text.Utf8.encode s)) : ∃ more, s.toList = '/' :: more := by
  generalize same : Text.Utf8.encode s = bytes at h
  cases h with
  | plain _ _ => exact exists_of_encode same

/-- A path that begins with a slash is spelled as a path with a drive letter if that follows. -/
theorem native_slash (rest : List Char) : native ('/' :: rest) =
    if startsWithDrive rest then backward rest else '/' :: rest := by
  have same : ∀ c, c ≠ '/' → (if c = '/' then '\\' else c) = c := fun c ne => if_neg ne
  unfold native
  -- `native` looks at the three characters together, the drive test at the last two of them
  split
  · next letter rest' e =>
    obtain rfl := (List.cons.inj e).2
    rw [startsWithDrive]
    by_cases drive : letter.isAlpha = true
    · have ne : letter ≠ '/' := by
        rintro rfl
        cases drive
      rw [if_pos drive, if_pos drive, backward, backward, List.map_cons, List.map_cons, same letter ne,
        same ':' (by decide)]
    · rw [if_neg drive, if_neg drive]
  · next other =>
    rw [if_neg]
    unfold startsWithDrive
    split
    · next letter rest' => exact absurd rfl (other letter rest')
    · exact Bool.false_ne_true

/-- A URI is read as a path exactly if it names the path. -/
theorem ofUri?_eq_some_iff {uri path : String} : ofUri? uri = some path ↔ Names SignedPair uri path := by
  -- the two ways of treating a drive are the one spelling `native`
  have spelled : ∀ {written : String} {rest : List Char}, written.toList = '/' :: rest →
      String.ofList (if startsWithDrive (written.toList.drop 1) then backward (written.toList.drop 1)
        else written.toList) = String.ofList (native written.toList) := by
    intro written rest letters
    rw [letters, native_slash, List.drop_one, List.tail_cons]
  constructor
  · -- forward, the parts are read one after the other; backward, each reading is given its part
    intro h
    obtain ⟨_, found, h⟩ := Option.bind_eq_some_iff.1 h
    obtain ⟨bytes, decoded, h⟩ := Option.bind_eq_some_iff.1 h
    obtain ⟨written, read, given⟩ := Option.bind_eq_some_iff.1 h
    obtain ⟨host, rest, known, uri, rfl⟩ := localPart?_eq_some_iff.1 found
    obtain rfl := Text.Utf8.decode?_eq_some_iff.1 read
    have spells := percentDecode?_eq_some_iff.1 decoded
    obtain ⟨more, letters⟩ := spells.exists_of_slash
    exact ⟨host, rest, written, known, uri, spells, (Option.some.inj given).symm.trans (spelled letters)⟩
  · rintro ⟨host, rest, written, known, uri, spells, rfl⟩
    obtain ⟨more, letters⟩ := spells.exists_of_slash
    have found := localPart?_eq_some_iff.2 ⟨host, rest, known, uri, rfl⟩
    rw [ofUri?, found, ← spelled letters]
    simp only [Option.bind_eq_bind, Option.bind_some, percentDecode?_eq_some_iff.2 spells,
      Text.Utf8.decode?_encode]
    rfl

end DebugAdapter.Path
