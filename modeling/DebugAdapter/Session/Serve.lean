import DebugAdapter.Protocol.Framing
import DebugAdapter.Session.Lockstep

/-!
# Serving a client

A session over a byte stream: messages are read and handled until the client disconnects, the stream
ends, or it is malformed. Whatever ends a session, the engine is let go.
-/

namespace DebugAdapter.Lockstep

open Framing

variable {σ : Type} [Engine σ] (fuel : Gateway σ → Nat)

/-- A client being served: the session, and the bodies of messages in the order in which they were
read and written. -/
structure Served (σ : Type) where
  live : Live σ
  traffic : List (Direction × List UInt8) := []

/-- The bodies of the messages written. -/
def writtenBodies (o : Outbox) : List (List UInt8) :=
  o.toList.map bodyOf

/-- Record what was written since the outbox held `before` messages. -/
def Served.record (s : Served σ) (before : Nat) : Served σ :=
  { s with
    traffic := s.traffic ++
      ((writtenBodies s.live.system.outbox).drop before).map (Direction.outgoing, ·) }

/-- Let the session do some work. -/
def Served.perform {α : Type} (m : SessionM α) (s : Served σ) : Option α × Served σ :=
  let before := s.live.system.outbox.written.length
  let (a, live) := Lockstep.perform fuel m s.live
  (a, { s with live }.record before)

/-- Take the messages that were read. The result tells whether the session goes on; there is none if it
is kept waiting. -/
def serveMessages : List (List UInt8 × Json) → Served σ → Option Bool × Served σ
  | [], s => (some true, s)
  | (body, m) :: rest, s =>
    let s := { s with traffic := s.traffic ++ [(Direction.incoming, body)] }
    match s.perform fuel (Session.receive m) with
    | (some true, s) => serveMessages rest s
    | (goesOn, s) => (goesOn, s)

/-- The body that came in whole and is no message, if there is one. -/
def malformedBody (r : Received) : List (Direction × List UInt8) :=
  (r.bodies.drop r.messages.length).map (Direction.incoming, ·)

/-- Serve a client whose messages come from a stream. The result is the error that ended the session,
if any. -/
def serve (stream : List UInt8) (live : Live σ) : Option FrameError × Served σ :=
  let received := readAll stream
  match serveMessages fuel (received.bodies.zip received.messages) { live } with
  | (none, s) => (none, s)
  | (some goesOn, s) =>
    -- a body that is no message is read only by a session that goes on up to it
    let s := if goesOn then { s with traffic := s.traffic ++ malformedBody received } else s
    (if goesOn then received.failure else none,
      (s.perform fuel (Session.leave (goesOn && received.failure.isNone))).2)

end DebugAdapter.Lockstep
