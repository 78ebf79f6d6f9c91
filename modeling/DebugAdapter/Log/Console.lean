import DebugAdapter.Log.Filter
import DebugAdapter.Protocol.Message

/-!
# The log on the client's console

Log records as output events for the client.
-/

namespace DebugAdapter.LogRecord

/-- A record as a line of text. -/
def line (r : LogRecord) : String :=
  "[" ++ r.level.name ++ "] " ++ (r.source.map (· ++ " ")).getD "" ++ r.message ++ "\n"

/-- The event that shows a record on the client's console. -/
def toEvent (r : LogRecord) : Event :=
  .ofJson "output" (.object [("category", .str "console"), ("output", .str r.line)])

end DebugAdapter.LogRecord
