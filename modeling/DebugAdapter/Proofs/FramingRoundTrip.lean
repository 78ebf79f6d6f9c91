import DebugAdapter.Protocol.Framing
import Mathlib.Data.List.TakeWhile

/-!
# Reading back what was written

Messages are written one after the other, and the stream is cut anywhere. The reader then gives the
messages that are there as a whole, and after them it sees the end of the stream exactly if the cut is
between two messages.

Nothing in a body can mislead the reader, since a body is taken by its length. A header that is cut in
its first line has begun and never ends, whatever that line says until there; this is the same for the
name, the colon and the digits, so no case is made for them. A header that is cut between the two bytes
of its blank line counts as complete, and then it is the body that is missing: no body is empty.

## Key results

- `Header.line_of_nonblank`: a header does not end with a line that is not blank
- `readFrame_frame_append`: a message is read back, and what follows it is left
- `readFrame_of_cut`: from a part of a message nothing is read, and the reader fails
- `readAll_of_cut`: the two together, for any messages and any cut
-/

namespace DebugAdapter

/-! ## ASCII text -/

namespace Text

/-- Characters as bytes, if they are ASCII characters. -/
def asciiBytes (s : List Char) : List UInt8 :=
  s.map fun c => UInt8.ofNat c.toNat

namespace Utf8

/-- ASCII text is encoded with one byte for each character. -/
theorem encode_ascii {s : List Char} (ascii : ∀ c ∈ s, c.toNat < 0x80) :
    encode (String.ofList s) = asciiBytes s := by
  rw [encode, String.toList_ofList, asciiBytes]
  induction s with
  | nil => rfl
  | cons c s ih =>
    have first : String.utf8EncodeChar c = [UInt8.ofNat c.toNat] := by
      have small : c.val.toNat ≤ 127 := Nat.le_of_lt_succ (ascii c List.mem_cons_self)
      rw [String.utf8EncodeChar]
      simp only [small, if_true]
      rfl
    rw [List.flatMap_cons, first, ih fun d hd => ascii d (List.mem_cons_of_mem _ hd)]
    rfl

/-- ASCII bytes are decoded to one character each. -/
theorem decode_ascii {s : List Char} (ascii : ∀ c ∈ s, c.toNat < 0x80) :
    decode (asciiBytes s) = s.map some := by
  rw [decode]
  induction s with
  | nil => rfl
  | cons c s ih =>
    have small := ascii c List.mem_cons_self
    have byte : (UInt8.ofNat c.toNat).toNat = c.toNat :=
      UInt8.toNat_ofNat_of_lt' (Nat.lt_of_lt_of_le small (by decide))
    rw [asciiBytes, List.map_cons, decodeFrom_ascii (by rwa [byte]), byte, Char.ofNat_toNat]
    rw [List.map_cons]
    exact congrArg _ (ih fun d hd => ascii d (List.mem_cons_of_mem _ hd))

/-- ASCII bytes are the text they were made from. -/
theorem decode?_ascii {s : List Char} (ascii : ∀ c ∈ s, c.toNat < 0x80) :
    decode? (asciiBytes s) = some (String.ofList s) := by
  have whole : ∀ s : List Char, (s.map some).mapM id = some s := by
    intro s
    induction s with
    | nil => rfl
    | cons c s ih =>
      rw [List.map_cons, List.mapM_cons, ih]
      rfl
  rw [decode?, decode_ascii ascii, whole]
  rfl

end Utf8

/-! ## Decimal numbers -/

/-- Digits are read as the number they write, if it fits. -/
theorem readDigits_eq_ok {bound : Nat} {excess : NumberError} {s : List Char}
    (digits : ∀ c ∈ s, c.isDigit = true) {acc : Nat} (fits : Nat.ofDigitChars 10 s acc ≤ bound) :
    readDigits bound excess acc s = .ok (Nat.ofDigitChars 10 s acc) := by
  induction s generalizing acc with
  | nil => rfl
  | cons c s ih =>
    have digit := digits c List.mem_cons_self
    have value : digitValue? c = some (c.toNat - 48) := by
      rw [Char.isDigit, Bool.and_eq_true, decide_eq_true_eq, decide_eq_true_eq] at digit
      have range : '0' ≤ c ∧ c ≤ '9' := digit
      rw [digitValue?, if_pos range]
    rw [Nat.ofDigitChars_cons, Nat.mul_comm] at fits ⊢
    -- the value does not shrink by further digits
    have small : acc * 10 + (c.toNat - 48) ≤ bound := by
      refine Nat.le_trans ?_ fits
      rw [Nat.ofDigitChars_eq_ofDigitChars_zero]
      have : 1 ≤ 10 ^ s.length := Nat.one_le_pow _ _ (by decide)
      exact Nat.le_add_right_of_le (Nat.le_mul_of_pos_left _ this)
    simp only [readDigits, value, small, if_true]
    exact ih (fun d hd => digits d (List.mem_cons_of_mem _ hd)) fits

/-- A number that fits is read from its digits, whatever zeros stand in front. -/
theorem readNat_digits {bound : Nat} {s : List Char} (some_digit : s ≠ [])
    (digits : ∀ c ∈ s, c.isDigit = true) (fits : Nat.ofDigitChars 10 s 0 ≤ bound) :
    readNat bound s = .ok (Nat.ofDigitChars 10 s 0) := by
  have read : readDigits bound .tooLarge 0 s = .ok (Nat.ofDigitChars 10 s 0) := readDigits_eq_ok digits fits
  have unsigned : '+' ∉ s := fun h => by cases digits _ h
  unfold readNat
  split
  · exact absurd rfl some_digit
  · exact absurd List.mem_cons_self unsigned
  · exact absurd List.mem_cons_self unsigned
  · exact read

/-- A number that fits is read back from the digits written for it. -/
theorem readNat_toDigits {bound n : Nat} (fits : n ≤ bound) :
    readNat bound (Nat.toDigits 10 n) = .ok n := by
  have digits : ∀ c ∈ Nat.toDigits 10 n, c.isDigit = true := fun c hc =>
    Nat.isDigit_of_mem_toDigits (by decide) (by decide) hc
  rw [readNat_digits Nat.toDigits_ne_nil digits (by rwa [Nat.ofDigitChars_ten_toDigits]),
    Nat.ofDigitChars_ten_toDigits]

end Text

namespace Framing

open Text

/-! ## Lines of a header -/

/-- The name of the header field that tells a length. -/
private def nameOfLength : List Char :=
  ['C', 'o', 'n', 't', 'e', 'n', 't', '-', 'L', 'e', 'n', 'g', 't', 'h']

/-- The line that tells a length, without its end. -/
private def lengthField (n : Nat) : List Char :=
  nameOfLength ++ ':' :: ' ' :: Nat.toDigits 10 n

/-- A character that is visible, or the space. -/
private def isPrintable (c : Char) : Bool :=
  0x20 ≤ c.toNat && c.toNat < 0x80

/-- What is written for a number are decimal digits. -/
private theorem digit_range {n : Nat} {c : Char} (h : c ∈ Nat.toDigits 10 n) :
    48 ≤ c.toNat ∧ c.toNat ≤ 57 := by
  have digit := Nat.isDigit_of_mem_toDigits (by decide) (by decide) h
  simp only [Char.isDigit, Bool.and_eq_true, decide_eq_true_eq, ge_iff_le,
    UInt32.le_iff_toNat_le] at digit
  exact digit

/-- The header field with the length has printable characters only. -/
private theorem isPrintable_lengthField (n : Nat) : ∀ c ∈ lengthField n, isPrintable c = true := by
  intro c hc
  rw [lengthField, List.mem_append, List.mem_cons, List.mem_cons] at hc
  rcases hc with hc | rfl | rfl | hc
  · exact List.all_eq_true.1 (by decide : nameOfLength.all isPrintable = true) c hc
  · decide
  · decide
  · have range := digit_range hc
    simp only [isPrintable, Bool.and_eq_true, decide_eq_true_eq]
    omega

/-- Printable characters with a line end behind them are ASCII. -/
private theorem ascii_of_isPrintable {s : List Char} (hs : ∀ c ∈ s, isPrintable c = true)
    (ends : List Char) (hends : ∀ c ∈ ends, c = '\r' ∨ c = '\n') :
    ∀ c ∈ s ++ ends, c.toNat < 0x80 := by
  intro c hc
  rcases List.mem_append.1 hc with hc | hc
  · have printable := hs c hc
    simp only [isPrintable, Bool.and_eq_true, decide_eq_true_eq] at printable
    exact printable.2
  · rcases hends c hc with rfl | rfl <;> decide

/-- A printable character does not end a line. -/
private theorem not_lineEnd_of_isPrintable {c : Char} (hc : isPrintable c = true) : c ≠ '\r' ∧ c ≠ '\n' := by
  constructor <;> rintro rfl <;> cases hc

/-- A written header is the field with the length, the end of its line and a blank line. -/
theorem headerOf_eq (n : Nat) :
    headerOf n = asciiBytes (lengthField n ++ ['\r']) ++ [10, 13, 10] := by
  have text : "Content-Length: " ++ toString n ++ "\r\n\r\n" =
      String.ofList (lengthField n ++ ['\r', '\n', '\r', '\n']) := by
    apply String.toList_inj.1
    simp [lengthField, nameOfLength]
  have ascii := ascii_of_isPrintable (isPrintable_lengthField n) ['\r', '\n', '\r', '\n']
    (by simp)
  rw [headerOf, text, Utf8.encode_ascii ascii, asciiBytes, asciiBytes, List.map_append,
    List.map_append, List.append_assoc]
  rfl

/-- Only the end of a line is dropped. -/
theorem dropLineEnd_append {s ends : List Char} (hs : ∀ c, s.getLast? = some c → c ≠ '\r' ∧ c ≠ '\n')
    (hends : ∀ c ∈ ends, c = '\r' ∨ c = '\n') : dropLineEnd (s ++ ends) = s := by
  have dropped : ∀ c ∈ ends.reverse, (c = '\r' || c = '\n') = true := by
    intro c hc
    simpa using hends c (List.mem_reverse.1 hc)
  -- what is dropped from the end stops at the last character of the line itself
  have kept : s.reverse.dropWhile (fun c => c = '\r' || c = '\n') = s.reverse := by
    cases reversed : s.reverse with
    | nil => rfl
    | cons c rest =>
      refine List.dropWhile_cons_of_neg ?_
      have last := hs c (by rw [← List.head?_reverse, reversed, List.head?_cons])
      simpa using last
  rw [dropLineEnd, List.reverse_append, List.dropWhile_append_of_pos dropped, kept,
    List.reverse_reverse]

/-- The length is read back from the field it was written in. -/
private theorem contentLength?_lengthField {n : Nat} (fits : n < UInt64.size) :
    contentLength? (lengthField n) = some (.ok n) := by
  have split : splitFirst ':' (lengthField n) = some (nameOfLength, ' ' :: Nat.toDigits 10 n) :=
    splitFirst_append (by decide) _
  have name : sameLetters (trim nameOfLength) "Content-Length".toList = true := by decide
  have digits : ∀ c ∈ Nat.toDigits 10 n, isBlank c = false := by
    intro c hc
    have range := digit_range hc
    simp only [isBlank, Bool.or_eq_false_iff, Bool.and_eq_false_iff, decide_eq_false_iff_not,
      beq_eq_false_iff_ne]
    omega
  -- of the blank behind the colon and the digits, only the blank is trimmed
  have value : trim (' ' :: Nat.toDigits 10 n) = Nat.toDigits 10 n :=
    (congrArg trimEnd (trimStart_append_blank (b := [' ']) (by simp [isBlank]))).trans
      (trim_of_forall_not_blank digits)
  have read := readNat_toDigits (Nat.le_sub_one_of_lt fits : n ≤ UInt64.size - 1)
  simp only [contentLength?, split, Option.bind_eq_bind, Option.bind_some, name, if_true, value, read]

/-- A line with a character other than those of a line end is not blank. -/
private theorem dropLineEnd_ne_nil {s : List Char} {c : Char} (mem : c ∈ s)
    (hc : isPrintable c = true) : dropLineEnd s ≠ [] := by
  intro empty
  have dropped : ∀ d ∈ s.reverse, (d = '\r' || d = '\n') = true :=
    List.dropWhile_eq_nil_iff.1 (List.reverse_eq_nil_iff.1 empty)
  have line_end := dropped c (List.mem_reverse.2 mem)
  rw [Bool.or_eq_true, decide_eq_true_eq, decide_eq_true_eq] at line_end
  rcases line_end with rfl | rfl <;> cases hc

/-- The line with the length sets the length of the header that is being read. -/
theorem Header.line_lengthField (h : Header) {n : Nat} (fits : n < UInt64.size) :
    h.line (asciiBytes (lengthField n ++ ['\r', '\n'])) = .ok (.more ⟨true, some n⟩) := by
  have printable := isPrintable_lengthField n
  have read := Utf8.decode?_ascii (ascii_of_isPrintable printable ['\r', '\n'] (by simp))
  have field : dropLineEnd (lengthField n ++ ['\r', '\n']) = lengthField n :=
    dropLineEnd_append (fun c last => not_lineEnd_of_isPrintable (printable c (List.mem_of_getLast? last)))
      (by simp)
  have some_field : (lengthField n).isEmpty = false := rfl
  simp only [Header.line, read, String.toList_ofList, field, some_field, Bool.false_eq_true, if_false,
    contentLength?_lengthField fits]

/-- A header does not end with a line that is not blank. -/
theorem Header.line_of_nonblank (h : Header) {bytes : List UInt8} {s : String}
    (read : Utf8.decode? bytes = some s) (nonblank : dropLineEnd s.toList ≠ []) :
    (∃ e, h.line bytes = .error e) ∨ ∃ h', h.line bytes = .ok (.more h') ∧ h'.begun = true := by
  have some_field : (dropLineEnd s.toList).isEmpty = false := by
    simpa using nonblank
  simp only [Header.line, read, some_field, Bool.false_eq_true, if_false]
  cases contentLength? (dropLineEnd s.toList) with
  | none => exact .inr ⟨_, rfl, rfl⟩
  | some length =>
    cases length with
    | error e => exact .inl ⟨_, rfl⟩
    | ok n => exact .inr ⟨_, rfl, rfl⟩

/-! ## Headers -/

/-- Reading up to the end of a line hands the line to the header. -/
theorem readHeader_line (h : Header) (line : List UInt8) {bytes : List UInt8} (one : 10 ∉ bytes)
    (rest : List UInt8) :
    readHeader h line (bytes ++ 10 :: rest) =
      match h.line (line.reverse ++ bytes ++ [10]) with
      | .error e => .error e
      | .ok (.more h) => readHeader h [] rest
      | .ok (.complete n) => .ok (some (n, rest)) := by
  induction bytes generalizing line with
  | nil =>
    rw [List.nil_append, List.append_nil, readHeader, List.reverse_cons]
    exact if_pos rfl
  | cons b bytes ih =>
    simp only [List.mem_cons, not_or] at one
    have same : (b :: line).reverse ++ bytes = line.reverse ++ b :: bytes := by simp
    rw [List.cons_append, readHeader, if_neg (Ne.symm one.1), ih _ one.2, same]

/-- Where the stream ends inside a line, what there is of it is handed to the header as its last line. -/
theorem readHeader_end (h : Header) (line : List UInt8) {bytes : List UInt8} (one : 10 ∉ bytes)
    (begun : line.reverse ++ bytes ≠ []) :
    readHeader h line bytes =
      match h.line (line.reverse ++ bytes) with
      | .error e => .error e
      | .ok (.more h) => h.atEnd
      | .ok (.complete n) => .ok (some (n, [])) := by
  -- on the bytes, which all go to the line, as none of them ends it
  induction bytes generalizing line with
  | nil =>
    rw [List.append_nil] at begun ⊢
    have begun : line.isEmpty = false := by simpa using begun
    rw [readHeader, begun]
    rfl
  | cons b bytes ih =>
    simp only [List.mem_cons, not_or] at one
    have same : (b :: line).reverse ++ bytes = line.reverse ++ b :: bytes := by simp
    rw [readHeader, if_neg (Ne.symm one.1), ih _ one.2 (same ▸ begun), same]

/-- The bytes of the first line of a header do not end it. -/
private theorem not_mem_lengthField (n : Nat) : 10 ∉ asciiBytes (lengthField n ++ ['\r']) := by
  intro mem
  obtain ⟨c, hc, byte⟩ := List.mem_map.1 mem
  have small := ascii_of_isPrintable (isPrintable_lengthField n) ['\r'] (by simp) c hc
  have ten : c.toNat = 10 := by
    have := congrArg UInt8.toNat byte
    rwa [UInt8.toNat_ofNat_of_lt' (Nat.lt_trans small (by decide))] at this
  rcases List.mem_append.1 hc with hc | hc
  · have printable := isPrintable_lengthField n c hc
    simp [isPrintable, ten] at printable
  · obtain rfl := List.mem_singleton.1 hc
    cases ten

/-- What follows the first line of a header is read with the length that it tells. -/
private theorem readHeader_lengthField {n : Nat} (fits : n < UInt64.size) (rest : List UInt8) :
    readHeader {} [] (asciiBytes (lengthField n ++ ['\r']) ++ 10 :: rest) =
      readHeader ⟨true, some n⟩ [] rest := by
  have line : asciiBytes (lengthField n ++ ['\r']) ++ [10] =
      asciiBytes (lengthField n ++ ['\r', '\n']) := by
    simp only [asciiBytes, List.map_append, List.append_assoc]
    rfl
  rw [readHeader_line {} [] (not_mem_lengthField n), List.reverse_nil, List.nil_append, line,
    Header.line_lengthField _ fits]

/-- Once the length is known, a blank line completes the header. -/
private theorem readHeader_blank (n : Nat) (rest : List UInt8) :
    readHeader ⟨true, some n⟩ [] (13 :: 10 :: rest) = .ok (some (n, rest)) :=
  rfl

/-- The carriage return of a blank line completes the header also where the stream ends behind it. -/
private theorem readHeader_return (n : Nat) :
    readHeader ⟨true, some n⟩ [] [13] = .ok (some (n, [])) :=
  rfl

/-! ## Frames -/

/-- A message is read back, and what follows it is left. -/
theorem readFrame_frame_append {m : Json} (fits : (bodyOf m).length < UInt64.size)
    (rest : List UInt8) : readFrame (frame m ++ rest) = .ok (some (bodyOf m, rest)) := by
  have header : readHeader {} [] (frame m ++ rest) =
      .ok (some ((bodyOf m).length, bodyOf m ++ rest)) := by
    rw [frame, headerOf_eq, List.append_assoc, List.append_assoc]
    exact (readHeader_lengthField fits _).trans (readHeader_blank _ _)
  rw [readFrame, header]
  simp

/-- A header that is cut in its first line has begun and does not end. -/
private theorem readFrame_of_cut_line {n : Nat} {stream : List UInt8}
    (cut : stream <+: asciiBytes (lengthField n ++ ['\r'])) (begun : stream ≠ []) :
    ∃ e, readFrame stream = .error e := by
  obtain ⟨k, rfl⟩ : ∃ k, stream = asciiBytes ((lengthField n ++ ['\r']).take k) :=
    ⟨stream.length, by rw [asciiBytes, List.map_take]; exact List.prefix_iff_eq_take.1 cut⟩
  have one : 10 ∉ asciiBytes ((lengthField n ++ ['\r']).take k) := fun mem =>
    not_mem_lengthField n (cut.subset mem)
  have ascii : ∀ c ∈ (lengthField n ++ ['\r']).take k, c.toNat < 0x80 := fun c hc =>
    ascii_of_isPrintable (isPrintable_lengthField n) _ (by simp) c (List.mem_of_mem_take hc)
  -- a part of the line that has begun is not blank, so the header is still open where the stream ends
  have nonblank : dropLineEnd ((lengthField n ++ ['\r']).take k) ≠ [] := by
    cases k with
    | zero => exact absurd rfl begun
    | succ k => exact dropLineEnd_ne_nil (c := 'C') List.mem_cons_self (by decide)
  rw [readFrame, readHeader_end {} [] one begun]
  rcases Header.line_of_nonblank {} (Utf8.decode?_ascii ascii) (by rwa [String.toList_ofList]) with
    ⟨e, line⟩ | ⟨h', line, open'⟩
  · rw [List.reverse_nil, List.nil_append, line]
    exact ⟨e, rfl⟩
  · rw [List.reverse_nil, List.nil_append, line]
    simp only [Header.atEnd, open', if_true]
    exact ⟨_, rfl⟩

/-- A body that is cut short is not taken. -/
private theorem readFrame_of_short {stream rest : List UInt8} {n : Nat}
    (header : readHeader {} [] stream = .ok (some (n, rest))) (short : rest.length < n) :
    readFrame stream = .error .unexpectedEnd := by
  rw [readFrame, header]
  exact if_pos short

/-- From a part of a message nothing is read, and the reader fails. -/
theorem readFrame_of_cut {m : Json} (fits : (bodyOf m).length < UInt64.size)
    (some_body : bodyOf m ≠ []) {stream : List UInt8} (cut : stream <+: frame m)
    (part : stream ≠ frame m) (begun : stream ≠ []) : ∃ e, readFrame stream = .error e := by
  have whole : frame m =
      asciiBytes (lengthField (bodyOf m).length ++ ['\r']) ++ 10 :: 13 :: 10 :: bodyOf m := by
    rw [frame, headerOf_eq, List.append_assoc]
    rfl
  rw [whole] at cut part
  -- a cut inside the first line leaves a line without an end
  rcases List.prefix_or_prefix_of_prefix cut (List.prefix_append _ _) with line | ⟨rest, rfl⟩
  · exact readFrame_of_cut_line line begun
  rw [List.prefix_append_right_inj] at cut
  have header := fun rest => readHeader_lengthField fits rest
  -- the cut is in the first line, after it, in the blank line, or in the body
  rcases List.prefix_cons_iff.1 cut with rfl | ⟨rest, rfl, after⟩
  · rw [List.append_nil] at begun ⊢
    exact readFrame_of_cut_line (List.prefix_refl _) begun
  rcases List.prefix_cons_iff.1 after with rfl | ⟨rest, rfl, blank⟩
  · rw [readFrame, header]
    exact ⟨_, rfl⟩
  rcases List.prefix_cons_iff.1 blank with rfl | ⟨body, rfl, short⟩
  · refine ⟨_, readFrame_of_short ((header _).trans (readHeader_return _)) ?_⟩
    exact List.length_pos_iff.2 some_body
  · -- with a complete header, bytes of the body are missing
    refine ⟨_, readFrame_of_short ((header _).trans (readHeader_blank _ _)) ?_⟩
    refine Nat.lt_of_le_of_ne short.length_le fun same => part ?_
    rw [short.eq_of_length same]

/-! ## Streams -/

/-- A frame that cannot be read ends the reading with its failure. -/
theorem readAll_of_error {stream : List UInt8} {e : FrameError}
    (read : readFrame stream = .error e) : readAll stream = { failure := some e } := by
  rw [readAll]
  split
  · next read' => rw [Except.error.inj (read.symm.trans read')]
  · next read' => cases read.symm.trans read'
  · next read' => cases read.symm.trans read'

/-- A frame with a message adds it to what is read behind it. -/
theorem readAll_of_message {stream body rest : List UInt8} {m : Json}
    (read : readFrame stream = .ok (some (body, rest))) (parsed : Json.parseBytes? body = some m) :
    readAll stream = { readAll rest with
      messages := m :: (readAll rest).messages
      bodies := body :: (readAll rest).bodies } := by
  -- each way of going on but one contradicts what was read
  rw [readAll]
  split
  · next read' => cases read.symm.trans read'
  · next read' => cases read.symm.trans read'
  · next read' =>
    cases read.symm.trans read'
    dsimp only
    split
    · next parsed' => cases parsed.symm.trans parsed'
    · next parsed' =>
      cases parsed.symm.trans parsed'
      rfl

/-- A body that is no JSON ends the reading, and is the last body that was taken. -/
theorem readAll_of_malformed {stream body rest : List UInt8}
    (read : readFrame stream = .ok (some (body, rest))) (malformed : Json.parseBytes? body = none) :
    readAll stream = { bodies := [body], failure := some .malformedJson } := by
  rw [readAll]
  split
  · next read' => cases read.symm.trans read'
  · next read' => cases read.symm.trans read'
  · next read' =>
    cases read.symm.trans read'
    dsimp only
    split
    · rfl
    · next parsed => cases malformed.symm.trans parsed

/-- The reading ends without a failure where the stream ends between frames. -/
theorem readAll_of_end {stream : List UInt8} (read : readFrame stream = .ok none) :
    readAll stream = {} := by
  rw [readAll]
  split
  · next read' => cases read.symm.trans read'
  · rfl
  · next read' => cases read.symm.trans read'

/-- Nothing is read from an empty stream. -/
theorem readAll_nil : readAll [] = {} :=
  readAll_of_end rfl

/-! ## Any messages and any cut -/

/-- A written message has bytes. -/
private theorem frame_ne_nil (m : Json) : frame m ≠ [] := by
  rw [frame, headerOf_eq]
  simp

/-- Writing messages writes the first and then the others. -/
private theorem writeAll_take_succ (m : Json) (rest : List Json) (j : Nat) :
    writeAll ((m :: rest).take (j + 1)) = frame m ++ writeAll (rest.take j) :=
  rfl

/-- Without a whole message at its front, a stream has none. -/
private theorem take_prefix_of_part {m : Json} {rest : List Json} {stream : List UInt8}
    (part : ¬frame m <+: stream) (j : Nat) :
    writeAll ((m :: rest).take j) <+: stream ↔ j = 0 := by
  cases j with
  | zero => exact ⟨fun _ => rfl, fun _ => List.nil_prefix⟩
  | succ j =>
    refine ⟨fun whole => absurd ?_ part, fun h => absurd h (Nat.succ_ne_zero j)⟩
    exact (List.prefix_append _ _).trans (writeAll_take_succ m rest j ▸ whole)

/-- The first `k` messages are all that is whole in a stream, and are what is read from it. -/
private structure ReadsFirst (messages : List Json) (stream : List UInt8) (k : Nat) : Prop where
  le : k ≤ messages.length
  whole_iff : ∀ j ≤ messages.length, writeAll (messages.take j) <+: stream ↔ j ≤ k
  messages_eq : (readAll stream).messages = messages.take k
  bodies_eq : (readAll stream).bodies = (messages.take k).map bodyOf
  failure_iff : (readAll stream).failure = none ↔ ∃ j, stream = writeAll (messages.take j)

/-- With no messages and no bytes, all there is has been read. -/
private theorem readsFirst_nil : ReadsFirst [] [] 0 where
  le := Nat.le_refl _
  whole_iff := by
    intro j hj
    rw [List.take_nil]
    exact ⟨fun _ => hj, fun _ => List.prefix_refl _⟩
  messages_eq := by rw [readAll_nil]; rfl
  bodies_eq := by rw [readAll_nil]; rfl
  failure_iff := by
    rw [readAll_nil]
    exact ⟨fun _ => ⟨0, rfl⟩, fun _ => rfl⟩

/-- A whole message is read first, and the others after it. -/
private theorem ReadsFirst.cons {m : Json} {rest : List Json} {after : List UInt8} {k : Nat}
    (h : ReadsFirst rest after k) (fit : (bodyOf m).length < UInt64.size)
    (parsed : Json.parseBytes? (bodyOf m) = some m) :
    ReadsFirst (m :: rest) (frame m ++ after) (k + 1) := by
  have read := readAll_of_message (readFrame_frame_append fit after) parsed
  exact
  { le := Nat.succ_le_succ h.le
    whole_iff := by
      intro j hj
      -- behind the first frame, the counts of `after` are shifted by one
      cases j with
      | zero => exact ⟨fun _ => Nat.zero_le _, fun _ => List.nil_prefix⟩
      | succ j =>
        rw [writeAll_take_succ, List.prefix_append_right_inj,
          h.whole_iff j (Nat.le_of_succ_le_succ hj), Nat.succ_le_succ_iff]
    messages_eq := by
      rw [read]
      exact congrArg (m :: ·) h.messages_eq
    bodies_eq := by
      rw [read]
      exact congrArg (bodyOf m :: ·) h.bodies_eq
    failure_iff := by
      rw [read]
      refine h.failure_iff.trans ⟨?_, ?_⟩
      · rintro ⟨j, rfl⟩
        exact ⟨j + 1, (writeAll_take_succ m rest j).symm⟩
      · -- a stream that starts with a frame is not written by no message
        rintro ⟨j, same⟩
        cases j with
        | zero => exact absurd (List.append_eq_nil_iff.1 same).1 (frame_ne_nil m)
        | succ j => exact ⟨j, List.append_cancel_left same⟩ }

/-- Nothing is read if the first message is not whole. -/
private theorem readsFirst_of_part {m : Json} {rest : List Json} {stream : List UInt8}
    (fit : (bodyOf m).length < UInt64.size) (parsed : Json.parseBytes? (bodyOf m) = some m)
    (cut : stream <+: writeAll (m :: rest)) (part : ¬frame m <+: stream) :
    ReadsFirst (m :: rest) stream 0 := by
  have first : stream <+: frame m :=
    (List.prefix_or_prefix_of_prefix cut (List.prefix_append _ _)).resolve_right part
  -- without the first frame no more than nothing is complete
  have only : ∀ j, writeAll ((m :: rest).take j) <+: stream ↔ j ≤ 0 := fun j =>
    (take_prefix_of_part part j).trans Nat.le_zero.symm
  have read : (readAll stream).messages = [] ∧ (readAll stream).bodies = [] ∧
      ((readAll stream).failure = none ↔ stream = []) := by
    -- only the empty stream ends cleanly before the first message is complete
    by_cases begun : stream = []
    · subst begun
      rw [readAll_nil]
      exact ⟨rfl, rfl, fun _ => rfl, fun _ => rfl⟩
    · have some_body : bodyOf m ≠ [] := fun empty => by
        rw [empty] at parsed
        cases parsed
      obtain ⟨e, failed⟩ := readFrame_of_cut fit some_body first
        (fun same => part (same ▸ List.prefix_refl _)) begun
      rw [readAll_of_error failed]
      exact ⟨rfl, rfl, fun h => (by cases h), fun h => absurd h begun⟩
  refine ⟨Nat.zero_le _, fun j _ => only j, read.1, read.2.1, read.2.2.trans ⟨?_, ?_⟩⟩
  · rintro rfl
    exact ⟨0, rfl⟩
  · -- a stream that ends between two messages has none of them
    rintro ⟨j, same⟩
    have zero := Nat.le_zero.1 ((only j).1 (same ▸ List.prefix_refl _))
    rw [zero] at same
    exact same

/-- A cut of a written stream has some number of its messages whole, and these are what is read. -/
private theorem exists_readsFirst {messages : List Json}
    (parses : ∀ m ∈ messages, Json.parseBytes? (bodyOf m) = some m)
    (fits : ∀ m ∈ messages, (bodyOf m).length < UInt64.size)
    {stream : List UInt8} (cut : stream <+: writeAll messages) :
    ∃ k, ReadsFirst messages stream k := by
  -- the stream is cut in its first message, or it is that message and a cut stream of the others
  induction messages generalizing stream with
  | nil =>
    obtain rfl := List.prefix_nil.1 cut
    exact ⟨0, readsFirst_nil⟩
  | cons m rest ih =>
    have parsed := parses m List.mem_cons_self
    have fit := fits m List.mem_cons_self
    by_cases whole : frame m <+: stream
    · obtain ⟨after, rfl⟩ := whole
      have cut' : after <+: writeAll rest := (List.prefix_append_right_inj (frame m)).1 cut
      obtain ⟨k, h⟩ := ih (fun m' hm => parses m' (List.mem_cons_of_mem _ hm))
        (fun m' hm => fits m' (List.mem_cons_of_mem _ hm)) cut'
      exact ⟨k + 1, h.cons fit parsed⟩
    · exact ⟨0, readsFirst_of_part fit parsed cut whole⟩

/-- Let messages be written that are read back from their texts, none of them longer than a machine word
can tell, and let the stream be cut anywhere. Then `k` messages are there as a whole, those are read,
and the reader ends without a failure exactly if the cut is between two messages. -/
theorem readAll_of_cut {messages : List Json}
    (parses : ∀ m ∈ messages, Json.parseBytes? (bodyOf m) = some m)
    (fits : ∀ m ∈ messages, (bodyOf m).length < UInt64.size)
    {stream : List UInt8} (cut : stream <+: writeAll messages) :
    ∃ k ≤ messages.length,
      (∀ j ≤ messages.length, writeAll (messages.take j) <+: stream ↔ j ≤ k) ∧
      (readAll stream).messages = messages.take k ∧
      (readAll stream).bodies = (messages.take k).map bodyOf ∧
      ((readAll stream).failure = none ↔ ∃ j, stream = writeAll (messages.take j)) := by
  obtain ⟨k, h⟩ := exists_readsFirst parses fits cut
  exact ⟨k, h.le, h.whole_iff, h.messages_eq, h.bodies_eq, h.failure_iff⟩

/-- Two messages, the second of which is cut between the two bytes of its blank line. -/
theorem readAll_of_cut_in_blank_line :
    let messages : List Json := [.null, .obj [("a", .int 1)]]
    let stream := (writeAll messages).take 45
    (∀ m ∈ messages, Json.parseBytes? (bodyOf m) = some m) ∧
    (∀ m ∈ messages, (bodyOf m).length < UInt64.size) ∧ stream <+: writeAll messages ∧
    (readAll stream).messages = [.null] ∧ (readAll stream).failure ≠ none := by
  intro messages stream
  have parses : ∀ m ∈ messages, Json.parseBytes? (bodyOf m) = some m := by
    intro m hm
    simp only [messages, List.mem_cons, List.not_mem_nil, or_false] at hm
    rcases hm with rfl | rfl <;> rfl
  have fits : ∀ m ∈ messages, (bodyOf m).length < UInt64.size := by decide
  have cut : stream <+: writeAll messages := List.take_prefix ..
  refine ⟨parses, fits, cut, ?_⟩
  -- exactly the first message is there completely
  obtain ⟨k, hk, complete, read, -, ends⟩ := readAll_of_cut parses fits cut
  have first : 1 ≤ k := (complete 1 (by decide)).1 (by decide)
  have second : ¬2 ≤ k := fun h => absurd ((complete 2 (by decide)).2 h) (by decide)
  obtain rfl : k = 1 := by omega
  refine ⟨read, fun clean => ?_⟩
  -- a clean end would be right behind a message, and no message ends at byte 45
  obtain ⟨j, same⟩ := ends.1 clean
  have length : (writeAll (messages.take j)).length = 45 := by
    rw [← same]
    decide
  -- neither a part of the messages nor all of them are written in 45 bytes
  rcases Nat.lt_or_ge j 2 with small | large
  · have : ∀ i < 2, (writeAll (messages.take i)).length ≠ 45 := by decide
    exact this j small length
  · rw [List.take_of_length_le large] at length
    revert length
    decide

end Framing

end DebugAdapter
