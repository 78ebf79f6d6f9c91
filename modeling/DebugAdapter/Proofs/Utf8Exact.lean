import DebugAdapter.Proofs.UriRoundTrip

/-!
# Bytes that are a text

A text is read back from its bytes (`decode?_encode`), and from no others: what is read without a malformed
part begins with the bytes of its first character. The ranges of the second byte are what keeps a character
from being written with more bytes than it needs, and keeps surrogates and numbers beyond the last code point
out.

## Key results

- `decode?_eq_some_iff`: the bytes that are read as a text are those of the text
- `eq_of_mem_utf8EncodeChar`: a byte of seven bits is all of its character
-/

namespace DebugAdapter.Text.Utf8

/-- The code point that was put together is that of the character, unless it is none. -/
private theorem utf8EncodeChar_ofNat {v : Nat} (valid : v.isValidChar) :
    String.utf8EncodeChar (Char.ofNat v) =
      if v ≤ 0x7F then [UInt8.ofNat v]
      else if v ≤ 0x7FF then [UInt8.ofNat (v / 64 % 32 + 192), UInt8.ofNat (v % 64 + 128)]
      else if v ≤ 0xFFFF then
        [UInt8.ofNat (v / 4096 % 16 + 224), UInt8.ofNat (v / 64 % 64 + 128), UInt8.ofNat (v % 64 + 128)]
      else [UInt8.ofNat (v / 262144 % 8 + 240), UInt8.ofNat (v / 4096 % 64 + 128),
        UInt8.ofNat (v / 64 % 64 + 128), UInt8.ofNat (v % 64 + 128)] := by
  have code : (Char.ofNat v).val.toNat = v := by
    rw [Char.ofNat, dif_pos valid]
    rfl
  simp only [String.utf8EncodeChar, code]

/-- A code point of two bytes. -/
private theorem utf8EncodeChar_two {n x : Nat} (long : 2 ≤ n) (small : n < 0x20) (hx : x < 64) :
    String.utf8EncodeChar (Char.ofNat (n * 64 + x)) = [UInt8.ofNat (n + 0xC0), UInt8.ofNat (x + 0x80)] := by
  have high : (n * 64 + x) / 64 % 32 = n := by omega
  have low : (n * 64 + x) % 64 = x := by omega
  rw [utf8EncodeChar_ofNat (.inl (by omega)), if_neg (by omega), if_pos (by omega), high, low]

/-- A code point of three bytes, which is no surrogate. -/
private theorem utf8EncodeChar_three {n x y : Nat} (small : n < 0x10) (hx : x < 64) (hy : y < 64)
    (long : n = 0 → 0x20 ≤ x) (legal : n = 13 → x < 0x20) :
    String.utf8EncodeChar (Char.ofNat ((n * 64 + x) * 64 + y)) =
      [UInt8.ofNat (n + 0xE0), UInt8.ofNat (x + 0x80), UInt8.ofNat (y + 0x80)] := by
  have valid : ((n * 64 + x) * 64 + y).isValidChar := by
    rcases Nat.lt_or_ge ((n * 64 + x) * 64 + y) 0xD800 with below | above
    · exact .inl below
    · exact .inr ⟨by omega, by omega⟩
  have high : ((n * 64 + x) * 64 + y) / 4096 % 16 = n := by omega
  have middle : ((n * 64 + x) * 64 + y) / 64 % 64 = x := by omega
  have low : ((n * 64 + x) * 64 + y) % 64 = y := by omega
  rw [utf8EncodeChar_ofNat valid, if_neg (by omega), if_neg (by omega), if_pos (by omega), high, middle, low]

/-- A code point of four bytes. -/
private theorem utf8EncodeChar_four {n x y z : Nat} (small : n < 5) (hx : x < 64) (hy : y < 64) (hz : z < 64)
    (long : n = 0 → 0x10 ≤ x) (legal : n = 4 → x < 0x10) :
    String.utf8EncodeChar (Char.ofNat (((n * 64 + x) * 64 + y) * 64 + z)) =
      [UInt8.ofNat (n + 0xF0), UInt8.ofNat (x + 0x80), UInt8.ofNat (y + 0x80), UInt8.ofNat (z + 0x80)] := by
  have valid : (((n * 64 + x) * 64 + y) * 64 + z).isValidChar := .inr ⟨by omega, by omega⟩
  have high : (((n * 64 + x) * 64 + y) * 64 + z) / 262144 % 8 = n := by omega
  have second : (((n * 64 + x) * 64 + y) * 64 + z) / 4096 % 64 = x := by omega
  have third : (((n * 64 + x) * 64 + y) * 64 + z) / 64 % 64 = y := by omega
  have low : (((n * 64 + x) * 64 + y) * 64 + z) % 64 = z := by omega
  rw [utf8EncodeChar_ofNat valid, if_neg (by omega), if_neg (by omega), if_neg (by omega), high, second, third,
    low]

/-- Where a character under way is completed, the byte after it is in range. -/
private theorem exists_next {p : Pending} {bytes : List UInt8} {l : List Char}
    (h : decodeFrom (some p) bytes = l.map some) :
    ∃ b rest, bytes = b :: rest ∧ p.low ≤ b.toNat ∧ b.toNat ≤ p.high ∧
      if p.owed ≤ 1 then
        ∃ l', l = Char.ofNat (p.payload * 64 + b.toNat % 64) :: l' ∧ decodeFrom none rest = l'.map some
      else decodeFrom (some ⟨p.payload * 64 + b.toNat % 64, p.owed - 1, 0x80, 0xBF⟩) rest = l.map some := by
  -- an end before the last byte leaves a malformed part
  cases bytes with
  | nil => cases l <;> simp [decodeFrom] at h
  | cons b rest =>
    by_cases fits : p.low ≤ b.toNat ∧ b.toNat ≤ p.high
    · refine ⟨b, rest, rfl, fits.1, fits.2, ?_⟩
      simp only [decodeFrom, advance, if_pos fits] at h
      split at h
      · next last =>
        rw [if_pos last]
        cases l with
        | nil => simp at h
        | cons c l =>
          simp only [List.cons_append, List.nil_append, List.map_cons, List.cons.injEq,
            Option.some.injEq] at h
          exact ⟨l, by rw [h.1], h.2⟩
      · next more =>
        rw [if_neg more]
        simpa using h
    · -- a byte that does not fit leaves a malformed part
      simp only [decodeFrom, advance, if_neg fits] at h
      cases l <;> simp at h

/-- A byte that goes on with a character holds six bits of it. -/
private theorem payload_of_range {b : UInt8} (low : 0x80 ≤ b.toNat) (high : b.toNat ≤ 0xBF) :
    b.toNat % 64 + 0x80 = b.toNat := by
  omega

/-- A character of two bytes. -/
private theorem exists_character_two {b : UInt8} {rest : List UInt8} {l : List Char}
    (low : 0xC2 ≤ b.toNat) (high : b.toNat < 0xE0)
    (h : decodeFrom (some ⟨b.toNat % 0x20, 1, 0x80, 0xBF⟩) rest = l.map some) :
    ∃ c l' rest', l = c :: l' ∧ b :: rest = String.utf8EncodeChar c ++ rest' ∧
      decodeFrom none rest' = l'.map some := by
  obtain ⟨b₁, rest', rfl, low₁, high₁, last⟩ := exists_next h
  rw [if_pos (Nat.le_refl 1)] at last
  obtain ⟨l', rfl, after⟩ := last
  refine ⟨_, l', rest', rfl, ?_, after⟩
  have first : b.toNat % 0x20 + 0xC0 = b.toNat := by omega
  dsimp only
  rw [utf8EncodeChar_two (by omega) (by omega) (Nat.mod_lt _ (by decide)), first,
    payload_of_range low₁ high₁, UInt8.ofNat_toNat, UInt8.ofNat_toNat]
  rfl

/-- A character of three bytes. The range of the second byte keeps it long enough, and no surrogate. -/
private theorem exists_character_three {b : UInt8} {n low high : Nat} {rest : List UInt8} {l : List Char}
    (first : b.toNat = n + 0xE0) (small : n < 16) (above : if n = 0 then 0xA0 ≤ low else 0x80 ≤ low)
    (below : if n = 13 then high ≤ 0x9F else high ≤ 0xBF)
    (h : decodeFrom (some ⟨n, 2, low, high⟩) rest = l.map some) :
    ∃ c l' rest', l = c :: l' ∧ b :: rest = String.utf8EncodeChar c ++ rest' ∧
      decodeFrom none rest' = l'.map some := by
  obtain ⟨b₁, rest₁, rfl, low₁, high₁, more⟩ := exists_next h
  rw [if_neg (by simp)] at more
  obtain ⟨b₂, rest', rfl, low₂, high₂, last⟩ := exists_next more
  rw [if_pos (by simp)] at last
  obtain ⟨l', rfl, after⟩ := last
  refine ⟨_, l', rest', rfl, ?_, after⟩
  dsimp only at low₁ high₁ low₂ high₂ ⊢
  -- the bounds of the second byte rule out overlong forms and surrogates
  obtain ⟨least, greatest, long, legal⟩ : 0x80 ≤ b₁.toNat ∧ b₁.toNat ≤ 0xBF ∧
      (n = 0 → 0x20 ≤ b₁.toNat % 64) ∧ (n = 13 → b₁.toNat % 64 < 0x20) := by
    split at above <;> split at below <;> omega
  rw [utf8EncodeChar_three small (Nat.mod_lt _ (by decide)) (Nat.mod_lt _ (by decide)) long legal, ← first,
    payload_of_range least greatest, payload_of_range low₂ high₂, UInt8.ofNat_toNat, UInt8.ofNat_toNat,
    UInt8.ofNat_toNat]
  rfl

/-- A character of four bytes. The range of the second byte keeps it long enough, and a code point. -/
private theorem exists_character_four {b : UInt8} {n low high : Nat} {rest : List UInt8} {l : List Char}
    (first : b.toNat = n + 0xF0) (small : n < 5) (above : if n = 0 then 0x90 ≤ low else 0x80 ≤ low)
    (below : if n = 4 then high ≤ 0x8F else high ≤ 0xBF)
    (h : decodeFrom (some ⟨n, 3, low, high⟩) rest = l.map some) :
    ∃ c l' rest', l = c :: l' ∧ b :: rest = String.utf8EncodeChar c ++ rest' ∧
      decodeFrom none rest' = l'.map some := by
  -- three bytes follow, each within the range that the one before allows
  obtain ⟨b₁, rest₁, rfl, low₁, high₁, more⟩ := exists_next h
  rw [if_neg (by simp)] at more
  obtain ⟨b₂, rest₂, rfl, low₂, high₂, more⟩ := exists_next more
  rw [if_neg (by simp)] at more
  obtain ⟨b₃, rest', rfl, low₃, high₃, last⟩ := exists_next more
  rw [if_pos (by simp)] at last
  obtain ⟨l', rfl, after⟩ := last
  refine ⟨_, l', rest', rfl, ?_, after⟩
  dsimp only at low₁ high₁ low₂ high₂ low₃ high₃ ⊢
  -- the bounds of the second byte rule out overlong forms and numbers past the last character
  obtain ⟨least, greatest, long, legal⟩ : 0x80 ≤ b₁.toNat ∧ b₁.toNat ≤ 0xBF ∧
      (n = 0 → 0x10 ≤ b₁.toNat % 64) ∧ (n = 4 → b₁.toNat % 64 < 0x10) := by
    split at above <;> split at below <;> omega
  rw [utf8EncodeChar_four small (Nat.mod_lt _ (by decide)) (Nat.mod_lt _ (by decide))
    (Nat.mod_lt _ (by decide)) long legal, ← first, payload_of_range least greatest,
    payload_of_range low₂ high₂, payload_of_range low₃ high₃, UInt8.ofNat_toNat, UInt8.ofNat_toNat,
    UInt8.ofNat_toNat, UInt8.ofNat_toNat]
  rfl

/-- Bytes without a malformed part begin with those of the first character that is read. -/
private theorem exists_character {b : UInt8} {rest : List UInt8} {l : List Char}
    (h : decodeFrom none (b :: rest) = l.map some) :
    ∃ c l' rest', l = c :: l' ∧ b :: rest = String.utf8EncodeChar c ++ rest' ∧
      decodeFrom none rest' = l'.map some := by
  -- by the first byte, in the order in which the decoder tells its ranges apart
  have bound := b.toNat_lt
  have step : decodeFrom none (b :: rest) = (beginChar b.toNat).1 ++ decodeFrom (beginChar b.toNat).2 rest :=
    rfl
  rw [step, beginChar] at h
  by_cases ascii : b.toNat < 0x80
  · rw [firstByte, if_pos ascii] at h
    cases l with
    | nil => cases h
    | cons c l =>
      obtain ⟨same, after⟩ := List.cons.inj h
      obtain rfl := Option.some.inj same
      -- a byte below 0x80 is a character by itself
      refine ⟨_, l, rest, rfl, ?_, after⟩
      rw [utf8EncodeChar_ofNat (.inl (by omega)), if_pos (by omega), UInt8.ofNat_toNat]
      rfl
  rw [firstByte, if_neg ascii] at h
  -- a byte that continues a character, or begins an overlong one, is no first byte
  by_cases early : b.toNat < 0xC2
  · rw [if_pos early] at h
    cases l <;> cases h
  rw [if_neg early] at h
  by_cases two : b.toNat < 0xE0
  · rw [if_pos two] at h
    exact exists_character_two (by omega) two h
  rw [if_neg two] at h
  -- the least and the greatest of the first bytes leave less room for the second one
  by_cases least : b.toNat = 0xE0
  · rw [if_pos least] at h
    exact exists_character_three (n := 0) least (by decide) (by simp) (by simp) h
  rw [if_neg least] at h
  by_cases surrogates : b.toNat = 0xED
  · rw [if_pos surrogates] at h
    exact exists_character_three (n := 13) surrogates (by decide) (by simp) (by simp) h
  rw [if_neg surrogates] at h
  by_cases three : b.toNat < 0xF0
  · rw [if_pos three] at h
    refine exists_character_three (n := b.toNat % 0x10) (by omega) (by omega) ?_ ?_ h
    all_goals exact (if_neg (by omega)).mpr (Nat.le_refl _)
  rw [if_neg three] at h
  by_cases least : b.toNat = 0xF0
  · rw [if_pos least] at h
    exact exists_character_four (n := 0) least (by decide) (by simp) (by simp) h
  rw [if_neg least] at h
  by_cases four : b.toNat < 0xF4
  · rw [if_pos four] at h
    refine exists_character_four (n := b.toNat % 8) (by omega) (by omega) ?_ ?_ h
    all_goals exact (if_neg (by omega)).mpr (Nat.le_refl _)
  rw [if_neg four] at h
  by_cases greatest : b.toNat = 0xF4
  · rw [if_pos greatest] at h
    exact exists_character_four (n := 4) greatest (by decide) (by simp) (by simp) h
  · rw [if_neg greatest] at h
    cases l <;> cases h

/-- What is read without a malformed part is written as those bytes. -/
private theorem flatMap_of_decodeFrom {bytes : List UInt8} {l : List Char}
    (h : decodeFrom none bytes = l.map some) : l.flatMap String.utf8EncodeChar = bytes := by
  -- on the characters: each takes its own bytes off the front
  induction l generalizing bytes with
  | nil =>
    cases bytes with
    | nil => rfl
    | cons b rest =>
      obtain ⟨c, l', rest', nil, -⟩ := exists_character h
      cases nil
  | cons c l ih =>
    cases bytes with
    | nil => cases h
    | cons b rest =>
      obtain ⟨c', l', rest', same, bytes, after⟩ := exists_character h
      obtain ⟨rfl, rfl⟩ := List.cons.inj same
      rw [List.flatMap_cons, ih after, bytes]

/-- No part is malformed. -/
private theorem eq_map_some_of_mapM {found : List (Option Char)} {l : List Char}
    (h : found.mapM id = some l) : found = l.map some := by
  induction found generalizing l with
  | nil =>
    obtain rfl : [] = l := Option.some.inj h
    rfl
  | cons o found ih =>
    rw [List.mapM_cons] at h
    obtain ⟨c, whole, h⟩ := Option.bind_eq_some_iff.1 h
    obtain ⟨l', rest, h⟩ := Option.bind_eq_some_iff.1 h
    obtain rfl := Option.some.inj h
    rw [show o = some c from whole, ih rest, List.map_cons]

/-- The bytes that are read as a text are those of the text. -/
theorem decode?_eq_some_iff {bytes : List UInt8} {s : String} :
    decode? bytes = some s ↔ bytes = encode s := by
  refine ⟨fun h => ?_, fun h => h ▸ decode?_encode s⟩
  obtain ⟨l, whole, rfl⟩ := Option.map_eq_some_iff.1 h
  rw [encode, String.toList_ofList, flatMap_of_decodeFrom (eq_map_some_of_mapM whole)]

/-- A byte of seven bits is all of its character. -/
theorem eq_of_mem_utf8EncodeChar {c : Char} {b : UInt8} (mem : b ∈ String.utf8EncodeChar c)
    (ascii : b.toNat < 0x80) : c = Char.ofNat b.toNat := by
  -- a byte below 0x80 is none of the larger ones
  have large : ∀ n : Nat, 0x80 ≤ n → n < 0x100 → ¬b = UInt8.ofNat n := by
    rintro n low high rfl
    rw [UInt8.toNat_ofNat'] at ascii
    omega
  simp only [String.utf8EncodeChar] at mem
  -- by the number of bytes: a character of more than one has none below 0x80
  split at mem
  · next single =>
    have byte : (UInt8.ofNat c.val.toNat).toNat = c.val.toNat := by
      rw [UInt8.toNat_ofNat']
      omega
    rw [List.mem_singleton.1 mem, byte]
    exact (Char.ofNat_toNat c).symm
  split at mem
  · simp only [List.mem_cons, List.not_mem_nil, or_false] at mem
    rcases mem with mem | mem
    all_goals exact absurd mem (large _ (by omega) (by omega))
  split at mem
  · simp only [List.mem_cons, List.not_mem_nil, or_false] at mem
    rcases mem with mem | mem | mem
    all_goals exact absurd mem (large _ (by omega) (by omega))
  · simp only [List.mem_cons, List.not_mem_nil, or_false] at mem
    rcases mem with mem | mem | mem | mem
    all_goals exact absurd mem (large _ (by omega) (by omega))

end DebugAdapter.Text.Utf8
