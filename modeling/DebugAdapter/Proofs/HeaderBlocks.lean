import DebugAdapter.Proofs.FramingRoundTrip
import DebugAdapter.Proofs.Utf8Exact

/-!
# Headers of any shape

A client may put blank lines in front of a header, end its lines with or without a carriage return, add
fields of any name in any order, and tell the length more than once. The reader follows the last length that
it was told and takes the body by it, so what is in the body does not matter.

Whatever the stream is, it is read from front to back: each read takes a header and a body from where the one
before it ended.

## Key results

- `HeaderLine.readHeader_tells`, `HeaderLine.readHeader_other`: what a line of a header changes
- `Sent.readFrame_sent`: a message is read whatever its header is, and what follows it is left
- `Reading.of_readAll`: how a stream is read, one message after the other
- `readAll_exact`: messages with any headers, and what is read from any stream
-/

namespace DebugAdapter

open Text

/-! ## Numerals -/

/-- Digits that may have a plus sign in front tell a number that a machine word can hold. -/
def Text.Numeral (text : List Char) (n : Nat) : Prop :=
  ∃ sign digits, text = sign ++ digits ∧ (sign = [] ∨ sign = ['+']) ∧ digits ≠ [] ∧
    (∀ c ∈ digits, c.isDigit = true) ∧ Nat.ofDigitChars 10 digits 0 = n ∧ n < UInt64.size

/-- A numeral is read as its number, with a plus sign or without. -/
theorem Text.Numeral.readNat {text : List Char} {n : Nat} (h : Numeral text n) :
    readNat (UInt64.size - 1) text = .ok n := by
  obtain ⟨sign, digits, rfl, signed, some_digit, are_digits, rfl, fits⟩ := h
  have read := readNat_digits some_digit are_digits (Nat.le_sub_one_of_lt fits)
  -- behind a plus sign the digits are read in the same way
  rcases signed with rfl | rfl
  · exact read
  · cases digits with
    | nil => exact absurd rfl some_digit
    | cons c digits => exact readDigits_eq_ok are_digits (Nat.le_sub_one_of_lt fits)

namespace Framing

/-! ## Lines -/

/-- A line with carriage returns and a line feed behind its text. -/
def lineBytes (text : List Char) (returns : Nat) : List UInt8 :=
  Utf8.encode (String.ofList (text ++ List.replicate returns '\r' ++ ['\n']))

/-- The newline is the last byte of a line. -/
theorem lineBytes_eq (text : List Char) (returns : Nat) :
    lineBytes text returns = Utf8.encode (String.ofList (text ++ List.replicate returns '\r')) ++ [10] := by
  simp only [lineBytes, Utf8.encode, String.toList_ofList, List.flatMap_append]
  rfl

/-- Only a line feed has its byte. -/
theorem newline_not_mem {text : List Char} (one_line : '\n' ∉ text) (returns : Nat) :
    10 ∉ Utf8.encode (String.ofList (text ++ List.replicate returns '\r')) := by
  rw [Utf8.encode, String.toList_ofList, List.mem_flatMap]
  rintro ⟨c, hc, mem⟩
  -- a byte of the ASCII range is the encoding of its own character only
  have newline : c = '\n' := Utf8.eq_of_mem_utf8EncodeChar mem (by decide)
  subst newline
  rcases List.mem_append.1 hc with hc | hc
  · exact one_line hc
  · exact absurd (List.eq_of_mem_replicate hc) (by decide)

/-- A header goes on behind a line that does not end it. -/
theorem readHeader_more {h h' : Header} {text : List Char} (one_line : '\n' ∉ text) {returns : Nat}
    (line : h.line (lineBytes text returns) = .ok (.more h')) (rest : List UInt8) :
    readHeader h [] (lineBytes text returns ++ rest) = readHeader h' [] rest := by
  rw [lineBytes_eq] at line ⊢
  rw [List.append_assoc, List.singleton_append, readHeader_line h [] (newline_not_mem one_line returns),
    List.reverse_nil, List.nil_append]
  simp only [line]

/-- What follows a line that ends a header is left. -/
theorem readHeader_complete {h : Header} {n : Nat} {text : List Char} (one_line : '\n' ∉ text) {returns : Nat}
    (line : h.line (lineBytes text returns) = .ok (.complete n)) (rest : List UInt8) :
    readHeader h [] (lineBytes text returns ++ rest) = .ok (some (n, rest)) := by
  rw [lineBytes_eq] at line ⊢
  rw [List.append_assoc, List.singleton_append, readHeader_line h [] (newline_not_mem one_line returns),
    List.reverse_nil, List.nil_append]
  simp only [line]

/-- Dropping the end of a line leaves its text, with as many carriage returns as it may have. -/
theorem dropLineEnd_line {text : List Char} (one_line : '\n' ∉ text) (whole : text.getLast? ≠ some '\r')
    (returns : Nat) : dropLineEnd (text ++ List.replicate returns '\r' ++ ['\n']) = text := by
  rw [List.append_assoc]
  -- the text itself ends with none of the characters that are dropped
  refine dropLineEnd_append (fun c last => ⟨?_, ?_⟩) fun c hc => ?_
  · rintro rfl
    exact whole last
  · rintro rfl
    exact one_line (List.mem_of_getLast? last)
  · rcases List.mem_append.1 hc with hc | hc
    · exact .inl (List.eq_of_mem_replicate hc)
    · exact .inr (List.mem_singleton.1 hc)

/-- Lines without a text are passed over until the header begins. -/
theorem readHeader_skips {h : Header} (open' : h.begun = false) (returns : Nat) (rest : List UInt8) :
    readHeader h [] (lineBytes [] returns ++ rest) = readHeader h [] rest := by
  have line : h.line (lineBytes [] returns) = .ok (.more h) := by
    have text : dropLineEnd ([] ++ List.replicate returns '\r' ++ ['\n']) = [] :=
      dropLineEnd_line (by simp) (by simp) returns
    simp only [Header.line, lineBytes, Utf8.decode?_encode, String.toList_ofList, text, List.isEmpty_nil,
      if_true, open', Bool.false_eq_true, if_false]
  exact readHeader_more (by simp) line rest

/-- A line without a text ends a header. -/
theorem readHeader_ends (n returns : Nat) (rest : List UInt8) :
    readHeader ⟨true, some n⟩ [] (lineBytes [] returns ++ rest) = .ok (some (n, rest)) := by
  have line : Header.line ⟨true, some n⟩ (lineBytes [] returns) = .ok (.complete n) := by
    have text : dropLineEnd ([] ++ List.replicate returns '\r' ++ ['\n']) = [] :=
      dropLineEnd_line (by simp) (by simp) returns
    simp only [Header.line, lineBytes, Utf8.decode?_encode, String.toList_ofList, text, List.isEmpty_nil,
      if_true]
  exact readHeader_complete (by simp) line rest

/-! ## Fields -/

/-- A field with the name of the length: what stands in front of the first colon is that name, whatever the
case of its letters and the blanks around it. -/
def FieldOfLength (field value : List Char) : Prop :=
  ∃ name, field = name ++ ':' :: value ∧ ':' ∉ name ∧
    (trim name).map Char.toLower = "content-length".toList

/-- A field that is named for the length tells what its value reads as. -/
theorem contentLength?_of_field {field value : List Char} (h : FieldOfLength field value) :
    contentLength? field = some (readNat (UInt64.size - 1) (trim value)) := by
  obtain ⟨name, rfl, first, same⟩ := h
  have letters : sameLetters (trim name) "Content-Length".toList = true := by
    rw [sameLetters, same]
    decide
  simp only [contentLength?, splitFirst_append first, Option.bind_eq_bind, Option.bind_some, letters, if_true]

/-- A field with another name, or with no colon, tells no length. -/
theorem contentLength?_of_other {field : List Char} (h : ∀ value, ¬FieldOfLength field value) :
    contentLength? field = none := by
  rw [contentLength?]
  cases split : splitFirst ':' field with
  | none => rfl
  | some parts =>
    obtain ⟨name, value⟩ := parts
    -- otherwise the field would tell a length, with what stands behind its first colon
    have other : sameLetters (trim name) "Content-Length".toList = false := by
      rw [Bool.eq_false_iff]
      intro same
      refine h value ⟨name, eq_of_splitFirst split, not_mem_of_splitFirst split, ?_⟩
      rw [eq_of_beq same]
      decide
    simp only [Option.bind_eq_bind, Option.bind_some, other, Bool.false_eq_true, if_false]

/-- A line of a header: a text, and the carriage returns in front of the line feed, mostly none or one. -/
structure HeaderLine where
  text : List Char
  returns : Nat
  some_text : text ≠ []
  one_line : '\n' ∉ text
  /-- All the carriage returns at the end are counted. -/
  whole : text.getLast? ≠ some '\r'

namespace HeaderLine

variable (line : HeaderLine)

def bytes : List UInt8 :=
  lineBytes line.text line.returns

/-- The line tells a length of the body. -/
def Tells (n : Nat) : Prop :=
  ∃ value, FieldOfLength line.text value ∧ Numeral (trim value) n

/-- The line is another field, or none. -/
def IsOther : Prop :=
  ∀ value, ¬FieldOfLength line.text value

variable {line}

/-- A line that tells a length sets it, also if one was told before. -/
theorem readHeader_tells {n : Nat} (tells : line.Tells n) (h : Header) (rest : List UInt8) :
    readHeader h [] (line.bytes ++ rest) = readHeader ⟨true, some n⟩ [] rest := by
  obtain ⟨value, field, numeral⟩ := tells
  have step : h.line line.bytes = .ok (.more ⟨true, some n⟩) := by
    simp only [Header.line, bytes, lineBytes, Utf8.decode?_encode, String.toList_ofList,
      dropLineEnd_line line.one_line line.whole, List.isEmpty_iff, line.some_text, if_false,
      contentLength?_of_field field, numeral.readNat]
  exact readHeader_more line.one_line step rest

/-- A line from which no length is read is another line. -/
theorem isOther_of_contentLength? (other : contentLength? line.text = none) : line.IsOther := by
  intro value field
  rw [contentLength?_of_field field] at other
  cases other

/-- Another line is passed over; the header has begun behind it. -/
theorem readHeader_other (other : line.IsOther) (h : Header) (rest : List UInt8) :
    readHeader h [] (line.bytes ++ rest) = readHeader { h with begun := true } [] rest := by
  have step : h.line line.bytes = .ok (.more { h with begun := true }) := by
    simp only [Header.line, bytes, lineBytes, Utf8.decode?_encode, String.toList_ofList,
      dropLineEnd_line line.one_line line.whole, List.isEmpty_iff, line.some_text, if_false,
      contentLength?_of_other other]
  exact readHeader_more line.one_line step rest

end HeaderLine

/-! ## Headers -/

/-- Lines that are other fields do not change the length. -/
theorem readHeader_others {lines : List HeaderLine} (others : ∀ line ∈ lines, line.IsOther)
    (length : Option Nat) (rest : List UInt8) :
    readHeader ⟨true, length⟩ [] (lines.flatMap HeaderLine.bytes ++ rest) =
      readHeader ⟨true, length⟩ [] rest := by
  induction lines with
  | nil => rfl
  | cons line lines ih =>
    obtain ⟨other, others⟩ := List.forall_mem_cons.1 others
    rw [List.flatMap_cons, List.append_assoc, HeaderLine.readHeader_other other, ih others]

/-- Lines that tell lengths that can be read are all read. -/
theorem exists_readHeader_lines {lines : List HeaderLine}
    (valid : ∀ line ∈ lines, line.IsOther ∨ ∃ n, line.Tells n) (h : Header) (rest : List UInt8) :
    ∃ h', readHeader h [] (lines.flatMap HeaderLine.bytes ++ rest) = readHeader h' [] rest := by
  induction lines generalizing h with
  | nil => exact ⟨h, rfl⟩
  | cons line lines ih =>
    obtain ⟨first, valid⟩ := List.forall_mem_cons.1 valid
    rw [List.flatMap_cons, List.append_assoc]
    rcases first with other | ⟨n, tells⟩
    · rw [HeaderLine.readHeader_other other]
      exact ih valid _
    · rw [HeaderLine.readHeader_tells tells]
      exact ih valid _

/-- Blank lines in front of a header are passed over. -/
theorem readHeader_blanks (blanks : List Nat) (rest : List UInt8) :
    readHeader {} [] (blanks.flatMap (lineBytes []) ++ rest) = readHeader {} [] rest := by
  induction blanks with
  | nil => rfl
  | cons returns blanks ih =>
    rw [List.flatMap_cons, List.append_assoc, readHeader_skips rfl, ih]

/-- A message as a client may send it: blank lines, a header, the blank line behind it and a body. The last
line of the header that tells a length tells that of the body. -/
structure Sent where
  /-- The carriage returns of each blank line in front. -/
  blanks : List Nat
  earlier : List HeaderLine
  telling : HeaderLine
  later : List HeaderLine
  /-- The carriage returns of the blank line behind the header. -/
  returns : Nat
  body : List UInt8
  message : Json
  earlier_valid : ∀ line ∈ earlier, line.IsOther ∨ ∃ n, line.Tells n
  tells : telling.Tells body.length
  later_other : ∀ line ∈ later, line.IsOther
  parses : Json.parseBytes? body = some message

namespace Sent

def header (m : Sent) : List UInt8 :=
  m.blanks.flatMap (lineBytes []) ++ (m.earlier ++ m.telling :: m.later).flatMap HeaderLine.bytes ++
    lineBytes [] m.returns

def bytes (m : Sent) : List UInt8 :=
  m.header ++ m.body

/-- The header of what was sent is read to its end, with the length of the body. -/
theorem readHeader_header (m : Sent) (rest : List UInt8) :
    readHeader {} [] (m.header ++ rest) = .ok (some (m.body.length, rest)) := by
  simp only [header, List.flatMap_append, List.flatMap_cons, List.append_assoc]
  rw [readHeader_blanks]
  -- whatever the earlier lines have told is replaced by what the telling line tells
  obtain ⟨h, earlier⟩ := exists_readHeader_lines m.earlier_valid {}
    (m.telling.bytes ++ (m.later.flatMap HeaderLine.bytes ++ (lineBytes [] m.returns ++ rest)))
  rw [earlier, HeaderLine.readHeader_tells m.tells, readHeader_others m.later_other, readHeader_ends]

/-- A message is read whatever its header is, and what follows it is left. -/
theorem readFrame_sent (m : Sent) (rest : List UInt8) :
    readFrame (m.bytes ++ rest) = .ok (some (m.body, rest)) := by
  rw [readFrame, bytes, List.append_assoc, readHeader_header]
  simp

/-- All messages are read, and then the end of the stream is clean. -/
theorem readAll_sent (messages : List Sent) :
    readAll (messages.flatMap bytes) =
      { messages := messages.map message, bodies := messages.map body } := by
  induction messages with
  | nil => exact readAll_nil
  | cons m messages ih =>
    rw [List.flatMap_cons, readAll_of_message (m.readFrame_sent _) m.parses, ih]
    rfl

end Sent

/-! ## Any stream -/

/-- What is left behind a header is the end of the stream. -/
theorem readHeader_suffix {h : Header} {line stream rest : List UInt8} {n : Nat}
    (ok : readHeader h line stream = .ok (some (n, rest))) : rest <:+ stream := by
  induction stream generalizing h line with
  | nil => exact List.length_eq_zero_iff.1 (Nat.le_zero.1 (length_readHeader_le ok).1) ▸ List.nil_suffix
  | cons b tail ih =>
    simp only [readHeader] at ok
    split at ok
    · split at ok
      · cases ok
      · exact (ih ok).trans (List.suffix_cons b tail)
      · cases ok
        exact List.suffix_cons _ _
    · exact (ih ok).trans (List.suffix_cons b tail)

/-- A read takes a header and the body behind it. -/
theorem exists_header_of_readFrame {stream body rest : List UInt8}
    (ok : readFrame stream = .ok (some (body, rest))) : ∃ header, stream = header ++ body ++ rest := by
  unfold readFrame at ok
  split at ok
  · cases ok
  · cases ok
  · next read =>
    split at ok
    · cases ok
    · cases ok
      obtain ⟨header, rfl⟩ := readHeader_suffix read
      exact ⟨header, by rw [List.append_assoc, List.take_append_drop]⟩

/-- Reading a stream by `reads` reads, each of which begins where the one before it ended. The slices are the
headers and bodies that were read, and `rest` is what is left. -/
inductive Reading : (reads : Nat) → (stream : List UInt8) → (slices : List (List UInt8 × List UInt8)) →
    (rest : List UInt8) → Received → Prop
  | ended {stream} : readFrame stream = .ok none → Reading 1 stream [] stream {}
  | failed {stream e} : readFrame stream = .error e → Reading 1 stream [] stream { failure := some e }
  | malformed {header body rest} : readFrame (header ++ body ++ rest) = .ok (some (body, rest)) →
      Json.parseBytes? body = none →
      Reading 1 (header ++ body ++ rest) [(header, body)] rest
        { bodies := [body], failure := some .malformedJson }
  | message {reads header body rest slices left m received} :
      readFrame (header ++ body ++ rest) = .ok (some (body, rest)) → Json.parseBytes? body = some m →
      Reading reads rest slices left received →
      Reading (reads + 1) (header ++ body ++ rest) ((header, body) :: slices) left
        { received with messages := m :: received.messages, bodies := body :: received.bodies }

namespace Reading

variable {reads : Nat} {stream rest : List UInt8} {slices : List (List UInt8 × List UInt8)}
  {received : Received}

/-- The slices that are read make up the stream, with what is left behind them. -/
theorem stream_eq (h : Reading reads stream slices rest received) :
    stream = slices.flatMap (fun slice => slice.1 ++ slice.2) ++ rest := by
  induction h with
  | ended | failed => rfl
  | malformed => simp
  | message _ _ _ ih =>
    simp only [List.flatMap_cons, List.append_assoc] at ih ⊢
    rw [← ih]

/-- The bodies are the second parts of the slices. -/
theorem bodies_eq (h : Reading reads stream slices rest received) :
    received.bodies = slices.map Prod.snd := by
  induction h with
  | ended | failed | malformed => rfl
  | message _ _ _ ih => exact congrArg _ ih

/-- Each read but the last one takes a byte of the stream. -/
theorem reads_le (h : Reading reads stream slices rest received) : reads ≤ stream.length + 1 := by
  induction h with
  | ended | failed | malformed => exact Nat.le_add_left 1 _
  | message read _ _ ih => exact Nat.succ_le_succ (Nat.le_trans ih (length_readFrame_lt read))

/-- What is read of a stream is a reading of it. -/
theorem of_readAll (stream : List UInt8) :
    ∃ reads slices rest, Reading reads stream slices rest (readAll stream) := by
  -- along the recursion of `readAll`, one read at a time
  induction stream using readAll.induct with
  | case1 stream e read =>
    rw [readAll_of_error read]
    exact ⟨_, _, _, .failed read⟩
  | case2 stream read =>
    rw [readAll_of_end read]
    exact ⟨_, _, _, .ended read⟩
  | case3 stream body rest read shorter malformed =>
    rw [readAll_of_malformed read malformed]
    obtain ⟨header, rfl⟩ := exists_header_of_readFrame read
    exact ⟨_, _, _, .malformed read malformed⟩
  | case4 stream body rest read shorter m parsed ih =>
    rw [readAll_of_message read parsed]
    obtain ⟨header, rfl⟩ := exists_header_of_readFrame read
    obtain ⟨reads, slices, left, reading⟩ := ih
    exact ⟨_, _, _, .message read parsed reading⟩

end Reading

/-- Messages with any headers are read one after the other, and then the end of the stream is clean. Any stream
is read by finitely many reads, and the bodies are slices of it that follow each other. -/
theorem readAll_exact :
    (∀ messages : List Sent, readAll (messages.flatMap Sent.bytes) =
      { messages := messages.map Sent.message, bodies := messages.map Sent.body }) ∧
    ∀ stream, ∃ reads slices rest, Reading reads stream slices rest (readAll stream) ∧
      reads ≤ stream.length + 1 ∧
      stream = slices.flatMap (fun slice => slice.1 ++ slice.2) ++ rest ∧
      (readAll stream).bodies = slices.map Prod.snd := by
  refine ⟨Sent.readAll_sent, fun stream => ?_⟩
  obtain ⟨reads, slices, rest, reading⟩ := Reading.of_readAll stream
  exact ⟨reads, slices, rest, reading, reading.reads_le, reading.stream_eq, reading.bodies_eq⟩

/-- A length that is not the last one. -/
def earlierLength : HeaderLine :=
  ⟨" content-LENGTH\t: 7".toList, 0, by decide, by decide, by decide⟩

/-- The field may be spelled in any case, with blanks around its name and its value. -/
theorem earlierLength_tells : earlierLength.Tells 7 :=
  ⟨" 7".toList, ⟨" content-LENGTH\t".toList, by decide, by decide, by decide⟩,
    [], ['7'], by decide, .inl rfl, by decide, List.all_eq_true.1 rfl, by decide, by decide⟩

/-- Blank lines, another field, a length that is told twice, lines of both kinds, and a body with blank lines
and a header in it. -/
def toldTwice : Sent where
  blanks := [0, 1]
  earlier := [⟨"Host: x".toList, 1, by decide, by decide, by decide⟩, earlierLength]
  telling := ⟨"Content-Length:+23".toList, 1, by decide, by decide, by decide⟩
  later := []
  returns := 0
  body := Utf8.encode "[\n\n\"Content-Length: 1\"]"
  message := .arr [.str "Content-Length: 1"]
  earlier_valid := by
    intro line mem
    simp only [List.mem_cons, List.not_mem_nil, or_false] at mem
    rcases mem with rfl | rfl
    · exact .inl (HeaderLine.isOther_of_contentLength? (by decide))
    · exact .inr ⟨7, earlierLength_tells⟩
  tells := ⟨"+23".toList, ⟨"Content-Length".toList, by decide, by decide, by decide⟩,
    ['+'], ['2', '3'], by decide, .inr rfl, by decide, List.all_eq_true.1 rfl, by decide, by decide⟩
  later_other := by simp
  parses := rfl

theorem readAll_told_twice :
    let text := "\n\r\nHost: x\r\n content-LENGTH\t: 7\nContent-Length:+23\r\n\n[\n\n\"Content-Length: 1\"]"
    (readAll (Utf8.encode text)).messages = [.arr [.str "Content-Length: 1"]] ∧
      (readAll (Utf8.encode text)).failure = none := by
  intro text
  have bytes : Utf8.encode text = [toldTwice].flatMap Sent.bytes := by decide +kernel
  rw [bytes, readAll_exact.1 [toldTwice]]
  exact ⟨rfl, rfl⟩

end Framing
end DebugAdapter
