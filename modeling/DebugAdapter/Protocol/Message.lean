import DebugAdapter.Protocol.ErrorMessage
import DebugAdapter.Protocol.Request

/-!
# Responses and events

What is sent to a client. A message gets its number when it is written, so the numbers on the wire
count up from one.
-/

namespace DebugAdapter

/-- The answer to a request. A failure carries its text. -/
structure Response where
  requestSeq : Int
  command : String
  failure : Option String
  body : Option Json

/-- Something that is told to a client without being asked for. -/
structure Event where
  name : String
  body : Option Json := none

/-- What is sent to a client. -/
inductive Message
  | response (r : Response)
  | event (e : Event)

/-- The answer to a request that was carried out. -/
def Response.success (r : Request) (body : Option Json) : Response :=
  { requestSeq := r.seq, command := r.command, failure := none, body }

/-- The answer to a request that failed. -/
def Response.error (r : Request) (m : ErrorMessage) : Response :=
  { requestSeq := r.seq, command := r.command, failure := some m.text, body := some m.body }

/-- The event with a body; `null` stands for no body. -/
def Event.ofJson (name : String) (body : Json) : Event :=
  { name, body := if body.isNull then none else some body }

/-- A member that is there only if it has a value. -/
def Json.optional (name : String) (value : Option Json) : List (String × Json) :=
  (value.map fun v => (name, v)).toList

/-- A message as it is sent under a number. -/
def Message.toJson (seq : Int) : Message → Json
  | response r => .object
    ([("seq", .int seq), ("type", .str "response"), ("request_seq", .int r.requestSeq),
      ("success", .bool r.failure.isNone), ("command", .str r.command)]
      ++ Json.optional "message" (r.failure.map Json.str) ++ Json.optional "body" r.body)
  | event e => .object
    ([("seq", .int seq), ("type", .str "event"), ("event", .str e.name)]
      ++ Json.optional "body" e.body)

/-- What was written to a client, newest message first. -/
structure Outbox where
  written : List (Int × Message) := []

namespace Outbox

/-- The number of the next message. -/
def nextSeq (o : Outbox) : Int :=
  o.written.length + 1

/-- Write a message. -/
def send (o : Outbox) (m : Message) : Outbox :=
  ⟨(o.nextSeq, m) :: o.written⟩

/-- The messages written, oldest first, as they were sent. -/
def toList (o : Outbox) : List Json :=
  o.written.reverse.map fun (seq, m) => m.toJson seq

end Outbox

end DebugAdapter
