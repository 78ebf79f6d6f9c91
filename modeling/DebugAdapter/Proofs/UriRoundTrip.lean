import DebugAdapter.Path.Uri

/-!
# Paths that went through a URI

A path is put into a URI byte by byte and read back byte by byte. Each of the three layers is undone by
its counterpart: characters are encoded as bytes, bytes are written with percent signs, and the scheme
is put in front. What does not come back is the spelling of separators, and the slash in front of a
drive letter; what comes back is the canonical spelling of a path (`canonical`).

## Key results

- `Text.Utf8.decode?_encode`: a text is read back from its bytes
- `percentDecode?_flatMap_percentEncode`: bytes are read back from a URI
- `ofUri?_of_toUri?`: the path that a URI was made of comes back in its canonical spelling
- `forward_canonical`: but for a drive letter behind a slash, only separators are spelled anew
-/

namespace DebugAdapter

/-! ## Characters as bytes -/

namespace Text.Utf8

/-- The first byte of several begins a character. -/
private theorem decodeFrom_first {b : Nat} {p : Pending} (hb : b < 256) (first : firstByte b = .more p)
    (rest : List UInt8) : decodeFrom none (UInt8.ofNat b :: rest) = decodeFrom (some p) rest := by
  have byte : (UInt8.ofNat b).toNat = b := by
    rw [UInt8.toNat_ofNat']
    omega
  simp only [decodeFrom, advance, beginChar, byte, first, List.nil_append]

/-- A byte that is not the last one continues the character under way. -/
private theorem decodeFrom_next {p : Pending} {b : Nat} (low : p.low ≤ b) (high : b ≤ p.high)
    (hb : b < 256) (owed : 1 < p.owed) (rest : List UInt8) :
    decodeFrom (some p) (UInt8.ofNat b :: rest) =
      decodeFrom (some ⟨p.payload * 64 + b % 64, p.owed - 1, 0x80, 0xBF⟩) rest := by
  have byte : (UInt8.ofNat b).toNat = b := by
    rw [UInt8.toNat_ofNat']
    omega
  have more : ¬p.owed ≤ 1 := by omega
  simp only [decodeFrom, advance, byte, low, high, and_self, if_true, more, if_false, List.nil_append]

/-- The last byte completes the character under way. -/
private theorem decodeFrom_last {p : Pending} {b : Nat} (low : p.low ≤ b) (high : b ≤ p.high)
    (hb : b < 256) (owed : p.owed ≤ 1) (rest : List UInt8) :
    decodeFrom (some p) (UInt8.ofNat b :: rest) =
      some (Char.ofNat (p.payload * 64 + b % 64)) :: decodeFrom none rest := by
  have byte : (UInt8.ofNat b).toNat = b := by
    rw [UInt8.toNat_ofNat']
    omega
  simp only [decodeFrom, advance, byte, low, high, and_self, if_true, owed, List.cons_append,
    List.nil_append]

/-- A first byte of two, three or four, with the range of the byte after it. -/
private theorem firstByte_two {n : Nat} (low : 2 ≤ n) (high : n < 32) :
    firstByte (n + 192) = .more ⟨n, 1, 0x80, 0xBF⟩ := by
  have : (n + 192) % 0x20 = n := by omega
  simp only [firstByte]
  rw [if_neg (by omega), if_neg (by omega), if_pos (by omega), this]

/-- The first byte of a character of three bytes gives four bits and bounds for the next byte. -/
private theorem firstByte_three {n : Nat} (h : n < 16) : firstByte (n + 224) =
    .more ⟨n, 2, if n = 0 then 0xA0 else 0x80, if n = 13 then 0x9F else 0xBF⟩ := by
  have : (n + 224) % 0x10 = n := by omega
  simp only [firstByte]
  rw [if_neg (by omega), if_neg (by omega), if_neg (by omega)]
  -- the first and the fourteenth of them leave less room for the second byte
  by_cases h0 : n = 0
  · subst h0
    rfl
  by_cases h13 : n = 13
  · subst h13
    rfl
  rw [if_neg (by omega), if_neg (by omega), if_pos (by omega), if_neg h0, if_neg h13, this]

/-- The first byte of a character of four bytes gives three bits and bounds for the next byte. -/
private theorem firstByte_four {n : Nat} (h : n < 5) : firstByte (n + 240) =
    .more ⟨n, 3, if n = 0 then 0x90 else 0x80, if n = 4 then 0x8F else 0xBF⟩ := by
  have : n = 0 ∨ n = 1 ∨ n = 2 ∨ n = 3 ∨ n = 4 := by omega
  rcases this with rfl | rfl | rfl | rfl | rfl <;> rfl

/-- A character is read back from its bytes. -/
theorem decodeFrom_utf8EncodeChar (c : Char) (rest : List UInt8) :
    decodeFrom none (String.utf8EncodeChar c ++ rest) = some c :: decodeFrom none rest := by
  have valid : c.val.toNat < 0xD800 ∨ 0xDFFF < c.val.toNat ∧ c.val.toNat < 0x110000 := c.valid
  have whole : Char.ofNat c.val.toNat = c := Char.ofNat_toNat c
  simp only [String.utf8EncodeChar]
  generalize c.val.toNat = v at valid whole ⊢
  -- by the number of bytes: the bits of the number are spread over them, and put together again
  by_cases one : v ≤ 127
  · have byte : (UInt8.ofNat v).toNat = v := by
      rw [UInt8.toNat_ofNat']
      omega
    rw [if_pos one, List.cons_append, List.nil_append, decodeFrom_ascii (by omega), byte, whole]
  by_cases two : v ≤ 2047
  · have payload : v / 64 % 32 * 64 + (v % 64 + 128) % 64 = v := by omega
    rw [if_neg one, if_pos two, List.cons_append, List.cons_append, List.nil_append,
      decodeFrom_first (by omega) (firstByte_two (by omega) (by omega)),
      decodeFrom_last (by simp) (by simp only; omega) (by omega) (by simp), payload, whole]
  by_cases three : v ≤ 65535
  · have payload : (v / 4096 % 16 * 64 + (v / 64 % 64 + 128) % 64) * 64 + (v % 64 + 128) % 64 = v := by
      omega
    rw [if_neg one, if_neg two, if_pos three, List.cons_append, List.cons_append, List.cons_append,
      List.nil_append, decodeFrom_first (by omega) (firstByte_three (by omega)),
      decodeFrom_next (by simp only; split <;> omega) (by simp only; split <;> omega) (by omega)
        (by simp),
      decodeFrom_last (by simp) (by simp only; omega) (by omega) (by simp), payload, whole]
  · have payload : ((v / 262144 % 8 * 64 + (v / 4096 % 64 + 128) % 64) * 64 +
        (v / 64 % 64 + 128) % 64) * 64 + (v % 64 + 128) % 64 = v := by
      omega
    rw [if_neg one, if_neg two, if_neg three, List.cons_append, List.cons_append, List.cons_append,
      List.cons_append, List.nil_append,
      decodeFrom_first (by omega) (firstByte_four (by omega)),
      decodeFrom_next (by simp only; split <;> omega) (by simp only; split <;> omega) (by omega)
        (by simp),
      decodeFrom_next (by simp) (by simp only; omega) (by omega) (by simp),
      decodeFrom_last (by simp) (by simp only; omega) (by omega) (by simp), payload, whole]

/-- A text is read back from its bytes. -/
theorem decode?_encode (s : String) : decode? (encode s) = some s := by
  -- each character is read back from its own bytes, whatever comes after them
  have chars : ∀ l : List Char, decode (l.flatMap String.utf8EncodeChar) = l.map some := by
    intro l
    induction l with
    | nil => rfl
    | cons c l ih =>
      rw [decode] at ih ⊢
      rw [List.flatMap_cons, decodeFrom_utf8EncodeChar, ih, List.map_cons]
  have whole : (s.toList.map some).mapM id = some s.toList := by
    induction s.toList with
    | nil => rfl
    | cons c l ih => simp [ih]
  rw [decode?, encode, chars, whole, Option.map_some, String.ofList_toList]

end Text.Utf8

namespace Path

/-! ## Bytes in a URI -/

/-- The value of a written digit is the number it was written for, below 16. -/
private theorem hexValue?_hexDigitUpper (n : Nat) :
    Text.hexValue? (Text.hexDigitUpper n) = some (n % 16) := by
  have digits : ∀ d < 16, Text.hexValue? (Text.hexDigitUpper d) = some d := by decide
  have same : Text.hexDigitUpper n = Text.hexDigitUpper (n % 16) := by
    simp only [Text.hexDigitUpper, Nat.mod_mod]
  rw [same, digits _ (Nat.mod_lt _ (by decide))]

/-- No digit is a plus sign. -/
private theorem hexDigitUpper_ne_plus (n : Nat) : Text.hexDigitUpper n ≠ '+' := by
  intro plus
  have value := hexValue?_hexDigitUpper n
  rw [plus] at value
  exact nomatch value

/-- A byte that stands for itself is a character other than the percent sign. -/
private theorem plain_byte {b : UInt8} (plain : isPlainByte b = true) :
    Char.ofNat b.toNat ≠ '%' ∧ String.utf8EncodeChar (Char.ofNat b.toNat) = [b] := by
  have all : ∀ n < 256, isPlainByte (UInt8.ofNat n) = true →
      Char.ofNat n ≠ '%' ∧ String.utf8EncodeChar (Char.ofNat n) = [UInt8.ofNat n] := by
    decide +kernel
  have this := all b.toNat b.toNat_lt
  rw [UInt8.ofNat_toNat] at this
  exact this plain

/-- A byte is read back as it was written. -/
private theorem percentDecode?_percentEncode_append (b : UInt8) (rest : List Char) :
    percentDecode? (percentEncode b ++ rest) = (percentDecode? rest).map (b :: ·) := by
  rw [percentEncode]
  -- a plain byte stands for itself, any other is written with two digits
  split
  · next plain =>
    obtain ⟨ne, bytes⟩ := plain_byte plain
    rw [List.cons_append, List.nil_append, percentDecode?, if_neg ne, bytes]
    · rfl
    · exact fun _ _ _ percent => absurd percent ne
  · have byte : percentByte? (Text.hexDigitUpper (b.toNat / 16)) (Text.hexDigitUpper b.toNat) =
        some b := by
      have high : b.toNat / 16 % 16 = b.toNat / 16 := by
        have := b.toNat_lt
        omega
      have whole : b.toNat / 16 * 16 + b.toNat % 16 = b.toNat := Nat.div_add_mod' ..
      simp only [percentByte?, hexValue?_hexDigitUpper, Option.bind_eq_bind, Option.bind_some,
        hexDigitUpper_ne_plus, if_false, high, whole, UInt8.ofNat_toNat]
      rfl
    simp only [Text.hexFixed, List.nil_append, List.cons_append, percentDecode?, byte,
      Option.bind_eq_bind, Option.bind_some]
    cases percentDecode? rest <;> rfl

/-- Bytes are read back as they were written. -/
theorem percentDecode?_flatMap_percentEncode (bytes : List UInt8) :
    percentDecode? (bytes.flatMap percentEncode) = some bytes := by
  induction bytes with
  | nil => rfl
  | cons b bytes ih =>
    rw [List.flatMap_cons, percentDecode?_percentEncode_append, ih]
    rfl

/-! ## Separators -/

/-- Turning the slashes of a text forward is turning those of its parts. -/
@[simp] theorem forward_append (s t : List Char) : forward (s ++ t) = forward s ++ forward t :=
  List.map_append

/-- Turning the slashes forward twice is turning them once. -/
@[simp] theorem forward_forward (s : List Char) : forward (forward s) = forward s := by
  simp only [forward, List.map_map]
  refine List.map_congr_left fun c _ => ?_
  simp only [Function.comp]
  split <;> simp_all

/-- Slashes that are turned backward and then forward are all forward. -/
@[simp] theorem forward_backward (s : List Char) : forward (backward s) = forward s := by
  simp only [forward, backward, List.map_map]
  refine List.map_congr_left fun c _ => ?_
  simp only [Function.comp]
  split <;> simp_all

/-- The spelling of a path that comes back from a URI: a path with a drive letter has backslashes and
no slash in front, any other path has slashes. -/
def canonical (path : List Char) : List Char :=
  let path := forward path
  if startsWithDrive path then backward path
  else if startsWithDrive (path.drop 1) ∧ path.head? = some '/' then backward (path.drop 1)
  else path

/-- Unless a drive letter stands behind a slash, only separators are spelled anew. -/
theorem forward_canonical {path : List Char}
    (drive : ∀ rest, forward path = '/' :: rest → startsWithDrive rest = false) :
    forward (canonical path) = forward path := by
  rw [canonical]
  split
  · rw [forward_backward, forward_forward]
  split
  · next behind =>
    obtain ⟨isDrive, first⟩ := behind
    obtain ⟨rest, spelled⟩ := List.head?_eq_some_iff.1 first
    rw [spelled, List.drop_one, List.tail_cons, drive rest spelled] at isDrive
    exact nomatch isDrive
  · rw [forward_forward]

/-! ## URIs -/

/-- A path in a URI begins with a slash. -/
private theorem exists_uriPath? {path p : List Char} (h : uriPath? path = some p) :
    ∃ rest, p = '/' :: rest ∧
      (if startsWithDrive rest then backward rest else p) = canonical path := by
  -- a path that begins with a slash is kept, one that begins with a drive gets a slash in front
  simp only [uriPath?] at h
  split at h
  · next first =>
    obtain rfl := Option.some.inj h
    obtain ⟨rest, spelled⟩ := List.head?_eq_some_iff.1 first
    -- a slash is no letter of a drive
    have noDrive : startsWithDrive ('/' :: rest) = false := by
      unfold startsWithDrive
      split
      · next e =>
        obtain rfl := (List.cons.inj e).1
        decide
      · rfl
    refine ⟨rest, spelled, ?_⟩
    simp only [canonical, spelled, noDrive, List.drop_one, List.tail_cons, List.head?_cons,
      and_true, Bool.false_eq_true, if_false]
  split at h
  · next drive =>
    obtain rfl := Option.some.inj h
    exact ⟨_, rfl, by simp only [canonical, drive, if_true]⟩
  · exact nomatch h

/-- What is behind the scheme of a URI that was made of a path begins with a slash. -/
private theorem localPart?_scheme (rest : List Char) :
    localPart? ("file://" ++ String.ofList ('/' :: rest)).toList = some ('/' :: rest) := by
  have scheme : "file://".toList.isPrefixOf ("file://" ++ String.ofList ('/' :: rest)).toList = true := by
    simp
  rw [localPart?, if_pos scheme, String.toList_append, List.drop_left, String.toList_ofList]
  rfl

/-- The path that a URI was made of comes back in its canonical spelling. -/
theorem ofUri?_of_toUri? {path uri : String} (h : toUri? path = some uri) :
    ofUri? uri = some (String.ofList (canonical path.toList)) := by
  rw [toUri?, Option.map_eq_some_iff] at h
  obtain ⟨p, hp, rfl⟩ := h
  obtain ⟨rest, rfl, spelled⟩ := exists_uriPath? hp
  -- the first slash is a plain byte, so the local part begins with it
  have behind : (Text.Utf8.encode (String.ofList ('/' :: rest))).flatMap percentEncode =
      '/' :: (Text.Utf8.encode (String.ofList rest)).flatMap percentEncode := by
    simp only [Text.Utf8.encode, String.toList_ofList, List.flatMap_cons]
    rfl
  have part : localPart? ("file://" ++ String.ofList
      ((Text.Utf8.encode (String.ofList ('/' :: rest))).flatMap percentEncode)).toList =
      some ((Text.Utf8.encode (String.ofList ('/' :: rest))).flatMap percentEncode) := by
    rw [behind, localPart?_scheme]
  simp only [ofUri?, part, Option.bind_eq_bind, Option.bind_some,
    percentDecode?_flatMap_percentEncode, Text.Utf8.decode?_encode, String.toList_ofList,
    List.drop_one, List.tail_cons, spelled]
  rfl

end Path

end DebugAdapter
