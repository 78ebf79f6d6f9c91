import DebugAdapter.Json.Printer
import DebugAdapter.Json.Reader
import DebugAdapter.Text.Blank
import DebugAdapter.Text.Decimal
import DebugAdapter.Text.Search

/-!
# Framing

Messages on a byte stream: a header of lines, a blank line, and a body of as many bytes as the header
says. The reader takes blank lines in front of a header, lines that end with or without a carriage
return, header fields of any name, and the name of the length in any case; of several lengths the last
one counts.

Main statement: a message that was read is shorter than the stream it was read from
(`length_readFrame_lt`), so that reading a stream comes to an end.
-/

namespace DebugAdapter.Framing

/-- Why no message could be read. -/
inductive FrameError
  /-- The stream ends inside a header. -/
  | closedInside
  | missingLength
  | badLength (e : Text.NumberError)
  /-- A header line is no text. -/
  | malformedText
  /-- The stream ends inside a body. -/
  | unexpectedEnd
  /-- The body is no JSON. -/
  | malformedJson
  deriving DecidableEq, Repr

/-- The wording of a framing error, as far as there is a fixed one. -/
def FrameError.message : FrameError → String
  | closedInside => "DAP connection closed in the middle of a message"
  | missingLength => "Missing Content-Length header"
  | badLength e => e.message
  | malformedText => "stream did not contain valid UTF-8"
  | unexpectedEnd => "failed to fill whole buffer"
  | malformedJson => "malformed JSON"

/-- What was read of a header. -/
structure Header where
  /-- There was a line that is not blank. -/
  begun : Bool := false
  length : Option Nat := none
  deriving DecidableEq, Repr

/-- What a header line leads to. -/
inductive HeaderStep
  | more (h : Header)
  /-- The header is complete, and a body of this length follows. -/
  | complete (length : Nat)
  deriving DecidableEq, Repr

/-- Drop line ends. -/
def dropLineEnd (line : List Char) : List Char :=
  (line.reverse.dropWhile fun c => c = '\r' || c = '\n').reverse

/-- The length that a header field gives, `none` if it is another field. -/
def contentLength? (field : List Char) : Option (Except Text.NumberError Nat) := do
  let (name, value) ← Text.splitFirst ':' field
  if Text.sameLetters (Text.trim name) "Content-Length".toList then
    some (Text.readNat (UInt64.size - 1) (Text.trim value))
  else none

/-- Take a line of a header. -/
def Header.line (h : Header) (bytes : List UInt8) : Except FrameError HeaderStep :=
  match Text.Utf8.decode? bytes with
  | none => .error .malformedText
  | some text =>
    let field := dropLineEnd text.toList
    -- a blank line ends a header, but only one that has begun
    if field.isEmpty then
      if h.begun then
        match h.length with
        | some n => .ok (.complete n)
        | none => .error .missingLength
      else .ok (.more h)
    else
      match contentLength? field with
      | some (.error e) => .error (.badLength e)
      | some (.ok n) => .ok (.more ⟨true, some n⟩)
      | none => .ok (.more { h with begun := true })

/-- The end of the stream between lines. -/
def Header.atEnd (h : Header) : Except FrameError (Option (Nat × List UInt8)) :=
  if h.begun then .error .closedInside else .ok none

/-- Read a header: the length of the body and what follows the header, or nothing if the stream ends
before one begins. `line` is the line under way, in reverse. -/
def readHeader (h : Header) (line : List UInt8) :
    List UInt8 → Except FrameError (Option (Nat × List UInt8))
  | [] =>
    if line.isEmpty then h.atEnd
    else
      match h.line line.reverse with
      | .error e => .error e
      -- a last line without line end was a line all the same
      | .ok (.more h) => h.atEnd
      | .ok (.complete n) => .ok (some (n, []))
  | b :: rest =>
    if b = 10 then
      match h.line (b :: line).reverse with
      | .error e => .error e
      | .ok (.more h) => readHeader h [] rest
      | .ok (.complete n) => .ok (some (n, rest))
    else readHeader h (b :: line) rest

/-- Read a body of a length, and what follows it. A length beyond the end of the stream is an error of reading.

Memory has no bound here. The program that serves clients reserves a body of the length told before it reads any
of it, so a length that is too large to be reserved ends it with a panic at this point, where `readFrame` goes
on to find the stream too short. -/
def readFrame (stream : List UInt8) : Except FrameError (Option (List UInt8 × List UInt8)) :=
  match readHeader {} [] stream with
  | .error e => .error e
  | .ok none => .ok none
  | .ok (some (n, rest)) =>
    if rest.length < n then .error .unexpectedEnd else .ok (some (rest.take n, rest.drop n))

/-- Reading a header takes bytes off the stream, at least one if there is one. -/
theorem length_readHeader_le {h : Header} {line stream rest : List UInt8} {n : Nat}
    (ok : readHeader h line stream = .ok (some (n, rest))) :
    rest.length ≤ stream.length ∧ (stream ≠ [] → rest.length < stream.length) := by
  -- on the bytes, whatever was read of the line before
  induction stream generalizing h line with
  | nil =>
    unfold readHeader Header.atEnd at ok
    repeat' split at ok
    all_goals simp_all
  | cons b tail ih =>
    simp only [readHeader] at ok
    split at ok
    · split at ok
      · exact nomatch ok
      · have := ih ok
        simp only [List.length_cons]; omega
      · simp only [Except.ok.injEq, Option.some.injEq, Prod.mk.injEq] at ok
        obtain ⟨-, rfl⟩ := ok
        simp
    · have := ih ok
      simp only [List.length_cons]; omega

/-- Reading a message takes at least one byte off the stream, so that reading a stream ends. -/
theorem length_readFrame_lt {stream body rest : List UInt8}
    (ok : readFrame stream = .ok (some (body, rest))) : rest.length < stream.length := by
  unfold readFrame at ok
  split at ok
  · exact nomatch ok
  · exact nomatch ok
  · rename_i n after hr
    split at ok
    · exact nomatch ok
    · simp only [Except.ok.injEq, Option.some.injEq, Prod.mk.injEq] at ok
      obtain ⟨-, rfl⟩ := ok
      -- a header takes at least one byte, so the stream gets shorter with each message
      have := length_readHeader_le hr
      by_cases hs : stream = []
      · subst hs; simp [readHeader, Header.atEnd] at hr
      · have := this.2 hs
        simp only [List.length_drop]; omega

/-- What was read from a stream until its end or the first error: the messages, the bodies that came
in whole, and the error. -/
structure Received where
  messages : List Json := []
  bodies : List (List UInt8) := []
  failure : Option FrameError := none

/-- Read a stream until its end or the first error. -/
def readAll (stream : List UInt8) : Received :=
  match h : readFrame stream with
  | .error e => { failure := some e }
  | .ok none => {}
  | .ok (some (body, rest)) =>
    have := length_readFrame_lt h
    match Json.parseBytes? body with
    | none => { bodies := [body], failure := some .malformedJson }
    | some m =>
      let r := readAll rest
      { r with messages := m :: r.messages, bodies := body :: r.bodies }
termination_by stream.length

/-- A body as it is written. -/
def bodyOf (m : Json) : List UInt8 :=
  Text.Utf8.encode m.text

/-- The line that tells the length of a body, and the blank line after it. -/
def headerOf (length : Nat) : List UInt8 :=
  Text.Utf8.encode ("Content-Length: " ++ toString length ++ "\r\n\r\n")

/-- A message as it is written. -/
def frame (m : Json) : List UInt8 :=
  headerOf (bodyOf m).length ++ bodyOf m

/-- Messages as they are written one after the other. -/
def writeAll (messages : List Json) : List UInt8 :=
  messages.flatMap frame

/-- Which way a body goes. -/
inductive Direction
  /-- From the client. -/
  | incoming
  /-- To the client. -/
  | outgoing
  deriving DecidableEq, Repr

/-- A line of the traffic log. -/
def trafficLine (d : Direction) (body : List UInt8) : List UInt8 :=
  let arrow := match d with
    | .incoming => "<- "
    | .outgoing => "-> "
  Text.Utf8.encode arrow ++ body ++ [10]

end DebugAdapter.Framing
