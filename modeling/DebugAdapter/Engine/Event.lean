/-!
# Execution status and native events

What the engine reports about the debuggee's progress.
-/

namespace DebugAdapter

/-- What the debuggee is doing. -/
inductive ExecutionStatus
  | noDebuggee
  | go
  | goHandled
  | goNotHandled
  | stepOver
  | stepInto
  | stepBranch
  | stopped
  deriving DecidableEq, Repr

namespace ExecutionStatus

/-- All statuses. -/
def all : List ExecutionStatus :=
  [noDebuggee, go, goHandled, goNotHandled, stepOver, stepInto, stepBranch, stopped]

/-- The name of a status. -/
def name : ExecutionStatus → String
  | noDebuggee => "no_debuggee"
  | go => "go"
  | goHandled => "go_handled"
  | goNotHandled => "go_not_handled"
  | stepOver => "step_over"
  | stepInto => "step_into"
  | stepBranch => "step_branch"
  | stopped => "break"

/-- The status with a given name. -/
def ofName? (s : String) : Option ExecutionStatus :=
  all.find? (·.name == s)

/-- There is a debuggee and it is not stopped. -/
def isRunning : ExecutionStatus → Bool
  | noDebuggee | stopped => false
  | _ => true

/-- An execution status is found by its name. -/
theorem ofName?_name (s : ExecutionStatus) : ofName? s.name = some s := by
  cases s <;> decide

end ExecutionStatus

/-- What a native wait reports. -/
inductive NativeEvent
  | breakpoint (id : UInt32)
  | exception (code : UInt32) (firstChance : Bool)
  | breakIn
  | threadCreated (thread : UInt32)
  | threadExited (thread : UInt32)
  | processExited (exitCode : UInt32)
  | output (text : String)
  deriving DecidableEq, Repr

namespace NativeEvent

/-- The event reports the end of the process. -/
def isProcessExit : NativeEvent → Bool
  | processExited _ => true
  | _ => false

/-- The event stops the debuggee. -/
def isStop : NativeEvent → Bool
  | breakpoint _ | exception _ _ | breakIn | processExited _ => true
  | _ => false

end NativeEvent

end DebugAdapter
