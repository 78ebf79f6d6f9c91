import DebugAdapter.Proofs.UriGrammar

/-!
# Reading a URI by byte offsets

A URI may be read in place: the first slash is looked for, the bytes are taken one by one, and texts are cut
at the offsets that were found (`readUri`). A text cannot be cut behind its end or inside a character, so a cut
may fail. Where a percent sign is followed by less than two bytes, or by a part of a character, that makes the
URI malformed. All other cuts must succeed, and they do: what is read is what `ofUri?` gives.

## Key results

- `cut?_append`: a text is cut between its characters
- `percentBytes?_eq`: bytes that are taken by offsets are those that are decoded
- `readUri_eq`: no cut fails but where that makes the URI malformed
- `ofUri?_exactly`: the URIs that are read as a path, and that reading them by offsets never fails
- `signed_escape_names`: an escape with a plus sign, which has one digit only
-/

namespace DebugAdapter.Path

/-! ## Cuts -/

/-- The number of bytes of a text. -/
def byteCount (s : List Char) : Nat :=
  (s.flatMap String.utf8EncodeChar).length

/-- The parts of a text before and behind an offset in bytes; none if that is behind the end or inside a
character. -/
def cut? (offset : Nat) : List Char → Option (List Char × List Char)
  | [] => if offset = 0 then some ([], []) else none
  | c :: s =>
    if offset = 0 then some ([], c :: s)
    else if c.utf8Size ≤ offset then (cut? (offset - c.utf8Size) s).map (Prod.map (c :: ·) id)
    else none

@[simp] theorem byteCount_nil : byteCount [] = 0 := rfl

/-- The first character adds its own bytes to those of the rest. -/
@[simp] theorem byteCount_cons (c : Char) (s : List Char) : byteCount (c :: s) = c.utf8Size + byteCount s := by
  rw [byteCount, List.flatMap_cons, List.length_append, String.length_utf8EncodeChar, byteCount]

/-- The bytes of two texts in a row add up. -/
@[simp] theorem byteCount_append (s t : List Char) : byteCount (s ++ t) = byteCount s + byteCount t := by
  rw [byteCount, List.flatMap_append, List.length_append, byteCount, byteCount]

/-- Cutting at the beginning puts nothing in front. -/
@[simp] theorem cut?_zero (s : List Char) : cut? 0 s = some ([], s) := by
  cases s <;> rfl

/-- What is cut behind some text is cut there behind it. -/
theorem cut?_append_left (s : List Char) (offset : Nat) (t : List Char) :
    cut? (byteCount s + offset) (s ++ t) = (cut? offset t).map (Prod.map (s ++ ·) id) := by
  induction s with
  | nil =>
    rw [byteCount_nil, Nat.zero_add, List.nil_append]
    exact (Option.map_id_fun' ▸ rfl)
  | cons c s ih =>
    have size := c.utf8Size_pos
    have rest : c.utf8Size + byteCount s + offset - c.utf8Size = byteCount s + offset := by omega
    rw [byteCount_cons, List.cons_append, cut?, if_neg (by omega), if_pos (by omega), rest, ih,
      Option.map_map]
    rfl

/-- A text is cut between its characters. -/
theorem cut?_append (s t : List Char) : cut? (byteCount s) (s ++ t) = some (s, t) := by
  have cut := cut?_append_left s 0 t
  rw [cut?_zero, Nat.add_zero] at cut
  rw [cut, Option.map_some]
  simp

/-! ## Escapes -/

/-- The byte that a text of hexadecimal digits means, with a plus sign in front or without one. -/
def byteOf? (digits : List Char) : Option UInt8 := do
  let digits := match digits with
    | '+' :: d :: rest => d :: rest
    | _ => digits
  if digits.isEmpty then none
  let values ← digits.mapM Text.hexValue?
  let n := values.foldl (fun n d => n * 16 + d) 0
  if n < 256 then return UInt8.ofNat n else none

/-- The bytes from an offset on, where the two behind a percent sign are taken together. -/
def percentBytes? (s : List Char) (offset : Nat) : Option (List UInt8) :=
  match h : (s.flatMap String.utf8EncodeChar)[offset]? with
  | none => some []
  | some b =>
    if b = 0x25 then do
      let (front, _) ← cut? (offset + 3) s
      let (_, digits) ← cut? (offset + 1) front
      let byte ← byteOf? digits
      return byte :: (← percentBytes? s (offset + 3))
    else (percentBytes? s (offset + 1)).map (b :: ·)
termination_by byteCount s - offset
decreasing_by
  all_goals
    have within : offset < byteCount s := (List.getElem?_eq_some_iff.1 h).1
    omega

/-- A character of more than one byte is no digit. -/
theorem hexValue?_of_utf8Size {c : Char} (h : 1 < c.utf8Size) : Text.hexValue? c = none := by
  have large : ¬c.val ≤ 127 := by
    intro small
    rw [Char.utf8Size_eq_one_iff.2 small] at h
    exact Nat.lt_irrefl 1 h
  have below : ∀ {high : Char}, high.val ≤ 127 → ¬c ≤ high := fun ascii fits =>
    large (UInt32.le_trans fits ascii)
  rw [Text.hexValue?, if_neg fun h => below (by decide) h.2, if_neg fun h => below (by decide) h.2,
    if_neg fun h => below (by decide) h.2]

/-- The value of a digit is below 16. -/
private theorem hexValue?_lt {c : Char} {n : Nat} (h : Text.hexValue? c = some n) : n < 16 := by
  have code : ∀ {high : Char}, c ≤ high → c.toNat ≤ high.toNat := UInt32.le_iff_toNat_le.1
  -- in each of the three ranges the value is bounded by that of the last digit
  rw [Text.hexValue?] at h
  split at h
  · next within =>
    have bound : c.toNat ≤ 57 := code within.2
    cases h
    omega
  split at h
  · next within =>
    have bound : c.toNat ≤ 102 := code within.2
    cases h
    omega
  split at h
  · next within =>
    have bound : c.toNat ≤ 70 := code within.2
    cases h
    omega
  · cases h

/-- Two characters mean the byte that they are read as. -/
theorem byteOf?_pair (a b : Char) : byteOf? [a, b] = percentByte? a b := by
  -- a sign in front leaves one digit, so both readings are of that digit alone
  by_cases plus : a = '+'
  · subst plus
    cases low : Text.hexValue? b with
    | none => simp [byteOf?, percentByte?, low]
    | some low =>
      have := hexValue?_lt low
      simp [byteOf?, percentByte?, low]
      omega
  · cases low : Text.hexValue? b with
    | none => cases high : Text.hexValue? a <;> simp [byteOf?, plus, percentByte?, low, high]
    | some low' =>
      cases high : Text.hexValue? a with
      | none => simp [byteOf?, plus, percentByte?, low, high]
      | some high' =>
        have := hexValue?_lt low
        have := hexValue?_lt high
        simp [byteOf?, plus, percentByte?, low, high]
        omega

/-! ## The bytes of a URI -/

section

variable {s : List Char} {offset : Nat} {b : UInt8}

/-- Behind the last byte nothing is left to be read. -/
private theorem percentBytes?_end (h : (s.flatMap String.utf8EncodeChar)[offset]? = none) :
    percentBytes? s offset = some [] := by
  rw [percentBytes?]
  split
  · rfl
  · next b some => rw [h] at some; cases some

/-- A byte that is no percent sign stands for itself. -/
private theorem percentBytes?_other (h : (s.flatMap String.utf8EncodeChar)[offset]? = some b)
    (other : b ≠ 0x25) : percentBytes? s offset = (percentBytes? s (offset + 1)).map (b :: ·) := by
  rw [percentBytes?]
  split
  · next none => rw [h] at none; cases none
  · next b' some =>
    obtain rfl := Option.some.inj (h.symm.trans some)
    rw [if_neg other]

/-- At a percent sign the next two bytes are cut out and read as digits. -/
private theorem percentBytes?_percent (h : (s.flatMap String.utf8EncodeChar)[offset]? = some 0x25) :
    percentBytes? s offset = do
      let (front, _) ← cut? (offset + 3) s
      let (_, digits) ← cut? (offset + 1) front
      let byte ← byteOf? digits
      return byte :: (← percentBytes? s (offset + 3)) := by
  rw [percentBytes?]
  split
  · next none => rw [h] at none; cases none
  · next b' some =>
    obtain rfl := Option.some.inj (h.symm.trans some)
    rw [if_pos rfl]

/-- Bytes that are no percent signs are taken as they are. -/
private theorem percentBytes?_skip (mid more : List UInt8) (offset : Nat)
    (here : (s.flatMap String.utf8EncodeChar).drop offset = mid ++ more) (none : 0x25 ∉ mid) :
    percentBytes? s offset = (percentBytes? s (offset + mid.length)).map (mid ++ ·) := by
  -- on the bytes that are skipped, with the offset moving along
  induction mid generalizing offset with
  | nil =>
    rw [List.length_nil, Nat.add_zero]
    exact (Option.map_id_fun' ▸ rfl)
  | cons b mid ih =>
    have first : (s.flatMap String.utf8EncodeChar)[offset]? = some b := by
      rw [← Nat.add_zero offset, ← List.getElem?_drop, here]
      rfl
    have rest : (s.flatMap String.utf8EncodeChar).drop (offset + 1) = mid ++ more := by
      rw [← List.drop_drop, here]
      rfl
    have other : b ≠ 0x25 := fun same => none (same ▸ List.mem_cons_self)
    rw [percentBytes?_other first other, ih _ rest fun mem => none (List.mem_cons_of_mem _ mem),
      Option.map_map, List.length_cons, Nat.add_comm mid.length, ← Nat.add_assoc]
    rfl

end

/-- Only a percent sign has its byte. -/
private theorem percent_not_mem {c : Char} (other : c ≠ '%') : 0x25 ∉ String.utf8EncodeChar c := fun mem =>
  other (Text.Utf8.eq_of_mem_utf8EncodeChar mem (by decide))

/-- Where two bytes are cut out and mean a byte, they are two characters. -/
private theorem exists_pair {rest front back : List Char} {byte : UInt8}
    (cut : cut? 2 rest = some (front, back)) (read : byteOf? front = some byte) :
    ∃ a b, rest = a :: b :: back ∧ front = [a, b] ∧ a.utf8Size = 1 ∧ b.utf8Size = 1 := by
  cases rest with
  | nil => cases cut
  | cons a rest =>
    have size := a.utf8Size_pos
    rw [cut?, if_neg (by decide)] at cut
    -- two bytes are cut out: one character of two, or two of one
    split at cut
    · obtain ⟨⟨front', back'⟩, behind, same⟩ := Option.map_eq_some_iff.1 cut
      obtain ⟨rfl, rfl⟩ := Prod.mk.inj same
      dsimp only [id] at read ⊢
      by_cases whole : a.utf8Size = 2
      · -- one character of two bytes means no byte
        rw [whole, Nat.sub_self, cut?_zero] at behind
        obtain ⟨rfl, rfl⟩ := Prod.mk.inj (Option.some.inj behind)
        simp [byteOf?, hexValue?_of_utf8Size (c := a) (by omega)] at read
      -- so the first character has one byte, and the second one the byte that is left
      have one : a.utf8Size = 1 := by omega
      rw [one] at behind
      cases rest with
      | nil => cases behind
      | cons b rest =>
        have size := b.utf8Size_pos
        rw [cut?, if_neg (by decide)] at behind
        split at behind
        · have one' : b.utf8Size = 1 := by omega
          rw [one', Nat.sub_self, cut?_zero] at behind
          obtain ⟨rfl, rfl⟩ := Prod.mk.inj (Option.some.inj behind)
          exact ⟨a, b, rfl, rfl, one, one'⟩
        · cases behind
    · cases cut

/-- Two characters that mean a byte have a byte each. -/
private theorem utf8Size_of_percentByte? {a b : Char} {byte : UInt8} (h : percentByte? a b = some byte) :
    a.utf8Size = 1 ∧ b.utf8Size = 1 := by
  -- a character of more than one byte is no digit
  have single : ∀ {c : Char} {n : Nat}, Text.hexValue? c = some n → c.utf8Size = 1 := by
    intro c n value
    have size := c.utf8Size_pos
    by_contra more
    rw [hexValue?_of_utf8Size (by omega)] at value
    cases value
  obtain ⟨low, digit, h⟩ := Option.bind_eq_some_iff.1 h
  refine ⟨?_, single digit⟩
  split at h
  · next plus =>
    subst plus
    rfl
  · obtain ⟨high, digit, -⟩ := Option.bind_eq_some_iff.1 h
    exact single digit

/-- Behind a percent sign, the next two bytes are cut out. -/
private theorem percentBytes?_escape (done rest : List Char) :
    percentBytes? (done ++ '%' :: rest) (byteCount done) = do
      let (digits, _) ← cut? 2 rest
      let byte ← byteOf? digits
      return byte :: (← percentBytes? (done ++ '%' :: rest) (byteCount done + 3)) := by
  -- the percent sign stands right behind the bytes of what is done
  have here : ((done ++ '%' :: rest).flatMap String.utf8EncodeChar)[byteCount done]? = some 0x25 := by
    rw [List.flatMap_append, byteCount, List.getElem?_append_right (Nat.le_refl _), Nat.sub_self]
    rfl
  have count : byteCount done + 1 = byteCount (done ++ ['%']) := by
    rw [byteCount_append]
    rfl
  have count' : byteCount done + 3 = byteCount (done ++ ['%']) + 2 := by omega
  have front : cut? (byteCount done + 3) (done ++ '%' :: rest) =
      (cut? 2 rest).map (Prod.map (done ++ ['%'] ++ ·) id) := by
    rw [count', ← cut?_append_left, List.append_assoc]
    rfl
  rw [percentBytes?_percent here, front]
  cases cut? 2 rest with
  | none => rfl
  | some parts =>
    simp only [Option.map_some, Option.bind_eq_bind, Option.bind_some, Prod.map_fst, count, cut?_append]

/-- Bytes that are taken by offsets are those that are decoded. -/
theorem percentBytes?_eq (done rest : List Char) :
    percentBytes? (done ++ rest) (byteCount done) = percentDecode? rest := by
  -- along the decoding: what is done grows by each character, and the offset by its bytes
  fun_induction percentDecode? rest generalizing done with
  | case1 =>
    refine percentBytes?_end (List.getElem?_eq_none ?_)
    rw [List.append_nil]
    exact Nat.le_refl _
  | case2 a b rest ih =>
    rw [percentBytes?_escape]
    cases pair : percentByte? a b with
    | none =>
      -- the bytes that are cut out may be one character, or be cut inside one
      cases cut : cut? 2 (a :: b :: rest) with
      | none => rfl
      | some parts =>
        cases read : byteOf? parts.1 with
        | none => simp [read]
        | some byte =>
          obtain ⟨a', b', same, front, -, -⟩ := exists_pair cut read
          obtain ⟨same, same', -⟩ : a = a' ∧ b = b' ∧ rest = parts.2 := by simpa using same
          rw [front, byteOf?_pair, ← same, ← same', pair] at read
          cases read
    | some byte =>
      obtain ⟨one, one'⟩ := utf8Size_of_percentByte? pair
      have two : byteCount [a, b] = 2 := by
        rw [byteCount_cons, byteCount_cons, byteCount_nil, one, one']
      have cut : cut? 2 (a :: b :: rest) = some ([a, b], rest) := two ▸ cut?_append [a, b] rest
      have count : byteCount done + 3 = byteCount (done ++ ['%', a, b]) := by
        rw [byteCount_append, byteCount_cons, two]
        rfl
      have behind := ih (done ++ ['%', a, b])
      rw [List.append_assoc, ← count] at behind
      simp only [cut, Option.bind_eq_bind, Option.bind_some, byteOf?_pair, pair]
      exact congrArg (Option.bind · _) behind
  | case3 rest short =>
    rw [percentBytes?_escape]
    cases cut : cut? 2 rest with
    | none => rfl
    | some parts =>
      cases read : byteOf? parts.1 with
      | none => simp [read]
      | some byte =>
        obtain ⟨a, b, rfl, -, -, -⟩ := exists_pair cut read
        exact absurd rfl (short a b parts.2 rfl)
  -- any other character has no byte that is a percent sign, so all of its bytes are passed over
  | case4 c rest other ne ih =>
    have here : ((done ++ c :: rest).flatMap String.utf8EncodeChar).drop (byteCount done) =
        String.utf8EncodeChar c ++ rest.flatMap String.utf8EncodeChar := by
      rw [List.flatMap_append, byteCount, List.drop_left, List.flatMap_cons]
    have count : byteCount done + (String.utf8EncodeChar c).length = byteCount (done ++ [c]) := by
      rw [byteCount_append, byteCount_cons, byteCount_nil, String.length_utf8EncodeChar, Nat.add_zero]
    have behind := ih (done ++ [c])
    rw [List.append_assoc] at behind
    rw [percentBytes?_skip _ _ _ here (percent_not_mem ne), count]
    exact congrArg (Option.map _) behind

/-! ## The path in a URI -/

/-- The offset of the first slash. -/
def slashAt? : List Char → Option Nat
  | [] => none
  | c :: s => if c = '/' then some 0 else (slashAt? s).map (c.utf8Size + ·)

/-- The first two bytes are those of a drive letter and a colon. -/
def drivesBytes (s : List Char) : Bool :=
  match s.flatMap String.utf8EncodeChar with
  | letter :: colon :: _ => letter < 0x80 && (Char.ofNat letter.toNat).isAlpha && colon == 0x3A
  | _ => false

/-- The path that is decoded from a text that begins with a slash: the slash is cut off to look for a drive
letter. -/
def readPath (s : List Char) : Option (Option String) :=
  match (percentBytes? s 0).bind Text.Utf8.decode? with
  | none => some none
  | some path => do
    let (_, withoutRoot) ← cut? 1 path.toList
    return some (if drivesBytes withoutRoot then String.ofList (backward withoutRoot) else path)

/-- The path of a URI that is read by offsets; none at all if a cut fails that must not. -/
def readUri (uri : String) : Option (Option String) :=
  let scheme := "file://".toList
  if scheme.isPrefixOf uri.toList then
    let rest := uri.toList.drop scheme.length
    match slashAt? rest with
    | none => some none
    | some 0 => readPath rest
    | some (offset + 1) => do
      let (host, path) ← cut? (offset + 1) rest
      if host = "localhost".toList then readPath path else some none
  else some none

/-- The first slash is behind all that has none. -/
private theorem slashAt?_eq (s : List Char) : slashAt? s =
    if (s.dropWhile (· != '/')).isEmpty then none else some (byteCount (s.takeWhile (· != '/'))) := by
  induction s with
  | nil => rfl
  | cons c s ih =>
    by_cases slash : c = '/'
    · subst slash
      rfl
    · have other : (c != '/') = true := bne_iff_ne.2 slash
      rw [slashAt?, if_neg slash, ih, List.dropWhile_cons, List.takeWhile_cons, if_pos other, if_pos other,
        byteCount_cons]
      split <;> rfl

/-- A letter of the alphabet has one byte. -/
private theorem utf8EncodeChar_of_isAlpha {c : Char} (h : c.isAlpha = true) :
    c.toNat < 0x80 ∧ String.utf8EncodeChar c = [UInt8.ofNat c.toNat] := by
  have small : c.toNat < 0x80 := by
    have range : (decide (65 ≤ c.val ∧ c.val ≤ 90) ||
        decide (97 ≤ c.val) && decide (c.val ≤ 122)) = true := h
    simp only [Bool.or_eq_true, Bool.and_eq_true, decide_eq_true_eq, UInt32.le_iff_toNat_le] at range
    have high : c.toNat ≤ 90 ∨ c.toNat ≤ 122 := range.imp And.right And.right
    omega
  have single : c.val ≤ 127 := UInt32.le_iff_toNat_le.2 (Nat.le_of_lt_succ small)
  exact ⟨small, String.utf8EncodeChar_eq_singleton (Char.utf8Size_eq_one_iff.2 single)⟩

/-- A text whose first byte has seven bits begins with the character of that byte. -/
private theorem exists_of_flatMap {s : List Char} {b : UInt8} {bytes : List UInt8}
    (h : s.flatMap String.utf8EncodeChar = b :: bytes) (ascii : b.toNat < 0x80) :
    ∃ s', s = Char.ofNat b.toNat :: s' := by
  cases s with
  | nil => cases h
  | cons c s =>
    -- the first byte belongs to the first character, and a small byte is all of its character
    have mem : b ∈ String.utf8EncodeChar c := by
      cases own : String.utf8EncodeChar c with
      | nil =>
        have size := c.utf8Size_pos
        rw [← String.length_utf8EncodeChar, own] at size
        cases size
      | cons b' own' =>
        rw [List.flatMap_cons, own] at h
        exact (List.cons.inj h).1 ▸ List.mem_cons_self
    exact ⟨s, by rw [Text.Utf8.eq_of_mem_utf8EncodeChar mem ascii]⟩

/-- The bytes are those of a drive letter and a colon if the characters are. -/
private theorem drivesBytes_eq (s : List Char) : drivesBytes s = startsWithDrive s := by
  rw [Bool.eq_iff_iff]
  constructor
  · intro h
    unfold drivesBytes at h
    split at h
    · next letter colon bytes e =>
      obtain ⟨⟨ascii, alpha⟩, same⟩ : (letter < 0x80 ∧ (Char.ofNat letter.toNat).isAlpha = true) ∧
          colon = 0x3A := by
        simpa using h
      obtain ⟨s, rfl⟩ := exists_of_flatMap e ascii
      -- the letter has one byte, so the next byte is that of the next character
      have alone := (utf8EncodeChar_of_isAlpha alpha).2
      rw [List.flatMap_cons, alone] at e
      obtain ⟨s, rfl⟩ := exists_of_flatMap (List.cons.inj e).2 (same ▸ by decide)
      rw [same]
      exact alpha
    · cases h
  · -- a letter and a colon have one byte each
    intro h
    unfold startsWithDrive at h
    split at h
    · next letter rest =>
      obtain ⟨small, single⟩ := utf8EncodeChar_of_isAlpha h
      have byte : (UInt8.ofNat letter.toNat).toNat = letter.toNat := by
        rw [UInt8.toNat_ofNat']
        omega
      -- a letter is its own byte
      have ascii : UInt8.ofNat letter.toNat < 0x80 := by
        rw [UInt8.lt_iff_toNat_lt, byte]
        exact small
      rw [drivesBytes, List.flatMap_cons, single, List.flatMap_cons]
      change (decide (UInt8.ofNat letter.toNat < 0x80) &&
        (Char.ofNat (UInt8.ofNat letter.toNat).toNat).isAlpha && true) = true
      rw [byte, Char.ofNat_toNat, h, decide_eq_true ascii]
      rfl
    · cases h

/-- A path is decoded from what begins with a slash, and the slash is cut off. -/
private theorem readPath_eq (rest : List Char) : readPath ('/' :: rest) = some (do
    let path := (← Text.Utf8.decode? (← percentDecode? ('/' :: rest))).toList
    let withoutRoot := path.drop 1
    return String.ofList (if startsWithDrive withoutRoot then backward withoutRoot else path)) := by
  have bytes := percentBytes?_eq [] ('/' :: rest)
  rw [List.nil_append, byteCount_nil] at bytes
  rw [readPath, bytes]
  -- a path that is read begins with a slash, so the cut after one byte is exact
  cases decoded : percentDecode? ('/' :: rest) with
  | none => rfl
  | some bytes =>
    rw [Option.bind_some]
    simp only [Option.bind_eq_bind, Option.bind_some]
    cases read : Text.Utf8.decode? bytes with
    | none => rfl
    | some path =>
      obtain rfl := Text.Utf8.decode?_eq_some_iff.1 read
      -- what was decoded begins with the slash that was read
      obtain ⟨more, letters⟩ := (percentDecode?_eq_some_iff.1 decoded).exists_of_slash
      have cut : cut? 1 path.toList = some (['/'], more) := by
        rw [letters]
        exact cut?_append ['/'] more
      dsimp only [Option.bind_some]
      rw [cut, letters, List.drop_one, List.tail_cons, ← drivesBytes_eq, ← letters]
      rw [Option.bind_some]
      split
      · rfl
      · rw [String.ofList_toList]
        rfl

/-- No cut fails but where that makes the URI malformed, and what is read is the path of the URI. -/
theorem readUri_eq (uri : String) : readUri uri = some (ofUri? uri) := by
  rw [readUri, ofUri?, localPart?]
  generalize "file://".toList = scheme, "localhost".toList = localhost
  dsimp only
  split
  · -- what is behind the scheme is cut at its first slash
    generalize uri.toList.drop scheme.length = rest
    have parts : rest.takeWhile (· != '/') ++ rest.dropWhile (· != '/') = rest :=
      List.takeWhile_append_dropWhile
    rw [slashAt?_eq, List.span_eq_takeWhile_dropWhile]
    dsimp only
    cases slash : rest.dropWhile (· != '/') with
    | nil => rfl
    | cons c path =>
      obtain rfl : c = '/' := by
        have first := List.head?_dropWhile_not (· != '/') rest
        rw [slash] at first
        simpa using first
      rw [slash] at parts
      cases front : rest.takeWhile (· != '/') with
      | nil =>
        rw [front, List.nil_append] at parts
        subst parts
        rw [List.isEmpty_cons, if_neg Bool.false_ne_true, byteCount_nil]
        exact readPath_eq path
      | cons h host =>
        -- the host has characters, so the slash is at a positive offset, and the cut there is exact
        have size := h.utf8Size_pos
        obtain ⟨offset, count⟩ : ∃ offset, byteCount (h :: host) = offset + 1 :=
          ⟨byteCount (h :: host) - 1, by rw [byteCount_cons]; omega⟩
        rw [front] at parts
        have cut : cut? (offset + 1) rest = some (h :: host, '/' :: path) := by
          rw [← count, ← parts]
          exact cut?_append (h :: host) ('/' :: path)
        rw [List.isEmpty_cons, if_neg Bool.false_ne_true, count]
        dsimp only
        rw [cut]
        simp only [Option.bind_eq_bind, Option.bind_some]
        -- only one host that has characters is allowed
        by_cases known : h :: host = localhost
        · have allowed : (decide (h :: host = []) || decide (h :: host = localhost)) = true := by
            simp [known]
          rw [if_pos known, if_pos allowed]
          exact readPath_eq path
        · simp [known]
  · rfl

/-- A URI is read as a path exactly if it names the path, with an escape made of two digits, or of a plus sign
and a digit. Reading it by offsets gives the same, and no cut fails that must not. -/
theorem ofUri?_exactly (uri : String) :
    (∀ path, ofUri? uri = some path ↔ Names SignedPair uri path) ∧ readUri uri = some (ofUri? uri) :=
  ⟨fun _ => ofUri?_eq_some_iff, readUri_eq uri⟩

/-- An escape with a plus sign is read, though it does not have two digits. -/
theorem signed_escape_names : ofUri? "file:///%+1" = some "/\x01" ∧
    ¬∃ path, Names DigitPair "file:///%+1" path := by
  have unsigned : ∀ {b : Char} {byte : UInt8}, ¬DigitPair '+' b byte := by
    rintro b byte ⟨high, low, digit, -⟩
    have value := hexValue?_eq_some_iff.2 digit
    cases value
  refine ⟨by decide +kernel, ?_⟩
  rintro ⟨path, host, rest, written, rfl | rfl, uri, spells, -⟩
  · -- without a host, the percent sign and the plus sign would have to be an escape of two digits
    have parts : "file:///%+1".toList = "file://".toList ++ ['/', '%', '+', '1'] := by decide
    rw [parts, List.append_nil] at uri
    obtain rfl : ['%', '+', '1'] = rest := (List.cons.inj (List.append_cancel_left uri)).2
    generalize Text.Utf8.encode written = bytes at spells
    cases spells with
    | plain other spells =>
      cases spells with
      | plain other spells => exact other rfl
      | escape pair spells => exact unsigned pair
  · have differ := congrArg (·[7]?) uri
    cases differ

end DebugAdapter.Path
