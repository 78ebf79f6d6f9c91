import DebugAdapter.Engine.Basic
import DebugAdapter.NamedValue

/-!
# Entities of a stopped debuggee

Threads, stack frames, scopes and variables, and the handles that name them in the protocol. A
thread holds frames, a frame holds scopes, and frames, scopes and variables hold variables.
-/

namespace DebugAdapter

/-- The name of an entity in the protocol. Zero names nothing. -/
structure Handle where
  raw : Int
  deriving DecidableEq, Repr

namespace Handle

/-- The handle that names nothing. -/
def none : Handle := ⟨0⟩

/-- The handle names nothing. -/
def isNone (h : Handle) : Bool :=
  h.raw == 0

/-- The handle as decimal text. -/
def text (h : Handle) : String :=
  toString h.raw

end Handle

/-- The kinds of entities. -/
inductive EntityKind
  | thread
  | frame
  | scope
  | variable
  deriving DecidableEq, Repr

namespace EntityKind

/-- The name of a kind. -/
def name : EntityKind → String
  | thread => "thread"
  | frame => "frame"
  | scope => "scope"
  | .variable => "variable"

/-- The kinds of entity that may be held by an entity of a given kind. -/
def mayHold : (parent child : EntityKind) → Bool
  | thread, frame => true
  | frame, scope => true
  | frame, .variable => true
  | scope, .variable => true
  | .variable, .variable => true
  | _, _ => false

end EntityKind

/-- A thread of the debuggee. -/
structure Thread where
  systemId : UInt32
  name : String
  deriving DecidableEq, Repr

/-- A frame of a thread's stack; frame 0 is the innermost one. -/
structure Frame where
  instructionOffset : UInt64
  order : UInt32
  file : Option String
  line : UInt32
  function : String
  deriving DecidableEq, Repr

/-- A scope of a frame. -/
structure Scope where
  kind : ScopeKind
  deriving DecidableEq, Repr

/-- A variable with its rendering, and the value it was rendered from. -/
structure Variable where
  name : String
  typeName : String
  value : String
  hasChildren : Bool
  origin : NamedValue
  deriving DecidableEq, Repr

/-- The variable that shows a value. -/
def Variable.ofRendering (origin : NamedValue) (r : Rendering) : Variable where
  name := origin.name
  typeName := origin.typeName
  value := r.value
  hasChildren := r.hasChildren
  origin := origin

/-- Anything that has a handle. -/
inductive Entity
  | thread (t : Thread)
  | frame (f : Frame)
  | scope (s : Scope)
  | variable (v : Variable)
  deriving DecidableEq, Repr

namespace Entity

/-- The kind of an entity. -/
def kind : Entity → EntityKind
  | thread _ => .thread
  | frame _ => .frame
  | scope _ => .scope
  | .variable _ => .variable

/-- The thread an entity is. -/
def toThread? : Entity → Option Thread
  | thread t => some t
  | _ => none

/-- The frame an entity is. -/
def toFrame? : Entity → Option Frame
  | frame f => some f
  | _ => none

/-- The scope an entity is. -/
def toScope? : Entity → Option Scope
  | scope s => some s
  | _ => none

/-- The variable an entity is. -/
def toVariable? : Entity → Option Variable
  | .variable v => some v
  | _ => none

end Entity

/-- Something that is registered under a handle. -/
structure Registered (α : Type) where
  handle : Handle
  content : α
  deriving DecidableEq, Repr

/-- The reference a client expands a variable by: none if there is nothing to expand. -/
def Registered.reference (v : Registered Variable) : Handle :=
  if v.content.hasChildren then v.handle else .none

end DebugAdapter
