import DebugAdapter.Engine.Basic
import DebugAdapter.Gateway.Breakpoint
import DebugAdapter.Store.Entity

/-!
# Commands and replies

What the engine thread can be asked to do, what it answers, and how a command can fail. A failure
that comes from the engine carries the engine's error.
-/

namespace DebugAdapter

/-- How far a step goes. -/
inductive StepKind
  | into
  | over
  | out
  deriving DecidableEq, Repr

/-- A program to debug. -/
structure LaunchRequest where
  target : String
  commandLine : String
  sourcePaths : List String := []
  symbolPaths : List String := []
  deriving DecidableEq, Repr

/-- A running process to debug. -/
structure AttachRequest where
  pid : UInt32
  target : Option String := none
  sourcePaths : List String := []
  symbolPaths : List String := []
  deriving DecidableEq, Repr

/-- The process being debugged, with its pointer size in bytes. -/
structure ProcessInfo where
  pid : UInt32
  pointerSize : UInt8
  target : Option String
  deriving DecidableEq, Repr

/-- The steps of starting a debuggee that can fail. -/
inductive LaunchStage
  | creatingProcess
  | attachingToProcess
  | attachingDebugger
  | readingProcessInfo
  | settingSourcePaths
  | settingSymbolPaths
  | readingModuleName
  | loadingSymbols
  deriving DecidableEq, Repr

/-- The name of a step of starting a debuggee. -/
def LaunchStage.text : LaunchStage → String
  | creatingProcess => "creating process"
  | attachingToProcess => "attaching to process"
  | attachingDebugger => "attaching debugger"
  | readingProcessInfo => "reading process info"
  | settingSourcePaths => "setting source paths"
  | settingSymbolPaths => "setting symbol paths"
  | readingModuleName => "reading main module name"
  | loadingSymbols => "loading debug symbols"

/-- Why a debuggee was not started. -/
inductive LaunchFailure
  | engine (stage : LaunchStage) (error : EngineError)
  | noAnswer
  deriving DecidableEq, Repr

/-- The wording of a failure to start. -/
def LaunchFailure.message : LaunchFailure → String
  | engine stage error => "Error " ++ stage.text ++ ": " ++ error.statusWord.text
  | noAnswer => "engine thread did not respond"

/-- Why the debuggee was not resumed or ended. -/
inductive ExecutionFailure
  | continuing (error : EngineError)
  | selectingThread (thread : UInt32) (error : EngineError)
  | stepping (error : EngineError)
  | endingSession (error : EngineError)
  deriving DecidableEq, Repr

/-- The wording of a failure of execution control. -/
def ExecutionFailure.message : ExecutionFailure → String
  | continuing error => "Error continuing: " ++ error.statusWord.text
  | selectingThread thread error =>
    "Could not select thread " ++ toString thread.toNat ++ ": " ++ error.message
  | stepping error => "Error stepping: " ++ error.statusWord.text
  | endingSession error => "Error ending session: " ++ error.statusWord.text

/-- Why a variable was not set, or an expression not evaluated. -/
inductive ValueFailure
  | notFound (name : String)
  | notEvaluated (expression : String)
  | notWritable (name : String)
  | notWritten (name : String)
  deriving DecidableEq, Repr

/-- The wording of a failure with a value. -/
def ValueFailure.message : ValueFailure → String
  | notFound name => "variable `" ++ name ++ "` not found"
  | notEvaluated expression => "unable to evaluate `" ++ expression ++ "`"
  | notWritable name => "variable `" ++ name ++ "` is not writable"
  | notWritten name => "unable to write `" ++ name ++ "`"

/-- The value of an expression. The reference names what it can be expanded by, if anything. -/
structure EvaluateResult where
  value : String := ""
  typeName : String := ""
  reference : Handle := .none
  deriving DecidableEq, Repr

/-- What the engine thread can be asked to do. -/
inductive Command
  | launch (request : LaunchRequest)
  | attach (request : AttachRequest)
  | continue
  | step (kind : StepKind) (thread : Option UInt32)
  | pause
  | terminate
  | setBreakpoints (file : String) (lines : List UInt32)
  | threads
  | stackTrace (thread : UInt32)
  | scopes (frame : Handle)
  | variables (reference : Handle)
  | setVariable (reference : Handle) (name value : String)
  | evaluate (expression : String) (frame : Option Handle)
  | processInfo
  deriving DecidableEq, Repr

/-- The name of a command. -/
def Command.name : Command → String
  | launch _ => "launch"
  | attach _ => "attach"
  | .continue => "continue"
  | step .. => "step"
  | pause => "pause"
  | terminate => "terminate"
  | setBreakpoints .. => "setBreakpoints"
  | threads => "threads"
  | stackTrace _ => "stackTrace"
  | scopes _ => "scopes"
  | .variables _ => "variables"
  | setVariable .. => "setVariable"
  | evaluate .. => "evaluate"
  | processInfo => "processInfo"

/-- The answer to a command. -/
inductive Reply
  | launched (result : Except LaunchFailure ProcessInfo)
  | executed (result : Except ExecutionFailure Unit)
  | breakpoints (results : List BreakpointResult)
  | threads (threads : List (Registered Thread))
  | frames (frames : List (Registered Frame))
  | scopes (scopes : List (Registered Scope))
  | variables (list : List (Registered Variable))
  | variableSet (result : Except ValueFailure (Registered Variable))
  | evaluated (result : Except ValueFailure EvaluateResult)
  | process (info : Option ProcessInfo)

/-- What a caller that gets no answer goes on with. -/
def Command.defaultReply : Command → Reply
  | launch _ | attach _ => .launched (.error .noAnswer)
  | .continue | step .. | pause | terminate => .executed (.ok ())
  | setBreakpoints .. => .breakpoints []
  | threads => .threads []
  | stackTrace _ => .frames []
  | scopes _ => .scopes []
  | .variables _ => .variables []
  | setVariable _ name _ => .variableSet (.error (.notFound name))
  | evaluate .. => .evaluated (.ok {})
  | processInfo => .process none

end DebugAdapter
