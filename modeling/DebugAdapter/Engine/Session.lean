import DebugAdapter.Engine.Basic

/-!
# Engine sessions

An engine that ends its native session at most once: on request, or when it is closed.

Main statement: after `finish`, whatever comes of it, the session counts as ended (`ended_finish`), so a
second one does not reach the engine.
-/

namespace DebugAdapter

/-- An engine in use, and whether its native session was ended. -/
structure EngineSession (σ : Type) where
  engine : σ
  ended : Bool := false

namespace EngineSession

variable {σ : Type}

/-- Run a call on the engine. -/
def call {α : Type} (m : EngineM σ α) (s : EngineSession σ) :
    Except EngineError α × EngineSession σ :=
  let (answer, engine) := m.call s.engine
  (answer, { s with engine })

variable [Engine σ]

/-- End the native session, unless that was tried before. -/
def finish (s : EngineSession σ) : Except EngineError Unit × EngineSession σ :=
  if s.ended then (.ok (), s)
  -- the attempt counts, also if the engine refuses
  else call Engine.endSession { s with ended := true }

/-- End the native session, whatever comes of it, and let the engine go. -/
def close (s : EngineSession σ) : σ :=
  Engine.release s.finish.2.engine

/-- A session that was ended stays ended, also if the engine has refused to end it. -/
theorem ended_finish (s : EngineSession σ) : s.finish.2.ended = true := by
  unfold finish
  split
  · assumption
  · rfl

end EngineSession

end DebugAdapter
