import DebugAdapter.Gateway.Command
import DebugAdapter.Json.Basic
import DebugAdapter.Memory.Basic
import DebugAdapter.Scripted.World
import DebugAdapter.Text.Hex

/-!
# Scripts

Scripted worlds written down as JSON: an object whose members are the world's tables and settings. The
same form serves for changes to a world. Commands for the engine thread are objects too. What is
missing, or of another form than expected, counts as empty or zero.
-/

namespace DebugAdapter.Scripted

namespace Script

/-- A member that is there and is not `null`. -/
def field? (j : Json) (name : String) : Option Json :=
  (j.member? name).filter (!·.isNull)

/-- A natural number. -/
def nat : Json → Nat
  | .int n => n.toNat
  | _ => 0

/-- A 32 bit word. -/
def word32 (j : Json) : UInt32 := UInt32.ofNat (nat j)

/-- A 64 bit word. -/
def word64 (j : Json) : UInt64 := UInt64.ofNat (nat j)

/-- A text. -/
def text (j : Json) : String := j.toString?.getD ""

/-- A truth value. -/
def flag (j : Json) : Bool := j.toBool?.getD false

/-- The elements of an array. -/
def list (j : Json) : List Json := j.toList?.getD []

/-- The members of an object. -/
def entries : Json → List (String × Json)
  | .obj members => members
  | _ => []

/-- An element of an array. -/
def item (j : Json) (i : Nat) : Json := (list j)[i]?.getD .null

/-- A member of an object. -/
def field (j : Json) (name : String) : Json := (field? j name).getD .null

/-- The number that a name of a member writes. -/
def number (name : String) : UInt32 :=
  UInt32.ofNat (name.toNat?.getD 0)

/-- Bytes as pairs of hexadecimal digits. -/
def hexBytes : List Char → List UInt8
  | a :: b :: rest =>
    UInt8.ofNat ((Text.hexValue? a).getD 0 * 16 + (Text.hexValue? b).getD 0) :: hexBytes rest
  | _ => []

/-- A symbol tag: a name or a number. -/
def tag : Json → SymbolTag
  | .str "base" => .base
  | .str "udt" => .record
  | .str "enum" => .enumeration
  | .str "pointer" => .pointer
  | .str "array" => .array
  | .str "function" => .function
  | .str _ => .null
  | j => .other (word32 j)

/-- A reference to a typed value. -/
def reference (j : Json) : Reference where
  typeId := word32 (field j "t")
  displacement := word64 (field j "at")
  offset := (field? j "o").map word64
  moduleBase := (field? j "m").map word64
  size := (field? j "s").map word32
  tag := (field? j "g").map tag
  word := (field? j "d").map word64

/-- A type. -/
def typeInfo (j : Json) : TypeInfo where
  name := (field? j "name").map text
  size := word32 (field j "size")
  tag := (field? j "tag").map tag
  definition := (field? j "def").map text
  text := (field? j "text").map text
  fields := (list (field j "fields")).map fun f => (text (item f 0), reference (item f 1))
  target := (field? j "deref").map reference
  element := (field? j "elem").map reference
  elementCount := (field? j "elem_count").map word64

/-- The bytes of a stretch of memory, in one of several forms. -/
def segmentBytes (j : Json) : List UInt8 :=
  match field? j "hex", field? j "text", field? j "u64", field? j "u32" with
  | some h, _, _, _ => hexBytes (text h).toList
  | _, some t, _, _ => DebugAdapter.Text.Utf8.encode (text t)
  | _, _, some n, _ => littleEndianBytes 8 (nat n)
  | _, _, _, some n => littleEndianBytes 4 (nat n)
  | _, _, _, _ =>
    let fill := field j "fill"
    List.replicate (nat (item fill 1)) (UInt8.ofNat (nat (item fill 0)))

/-- A stretch of memory. -/
def segment (j : Json) : Segment :=
  ⟨word64 (field j "at"), (segmentBytes j).toArray⟩

/-- A native event. -/
def event (j : Json) : NativeEvent :=
  let thread := word32 (field j "id")
  match text (field j "e") with
  | "breakpoint" => .breakpoint thread
  | "exception" => .exception (word32 (field j "code")) (flag (field j "first"))
  | "thread_created" => .threadCreated thread
  | "thread_exited" => .threadExited thread
  | "process_exited" => .processExited (word32 (field j "code"))
  | "output" => .output (text (field j "text"))
  | _ => .breakIn

/-- The error of a call that is to fail. -/
def engineError : Json → EngineError
  | .str _ => .unsupported
  | j => .status ⟨word32 j⟩

/-- An execution status by its name. -/
def status (j : Json) : ExecutionStatus :=
  (ExecutionStatus.ofName? (text j)).getD .noDebuggee

/-- A stop. -/
def stop (j : Json) : Stop where
  events := (list (field j "events")).map event
  offset := (field? j "at").map word64
  status := (field? j "status").map Script.status
  threads := (field? j "threads").map fun t => (list t).map word32
  current := (field? j "current").map word32
  failure := (field? j "fail").map fun code => ⟨word32 code⟩

/-- A symbol; `null` is one that cannot be read. -/
def symbol (j : Json) : Option SymbolEntry :=
  if j.isNull then none
  else some
    { name := text (field j "name")
      typeName := text (field j "ty")
      valueText := text (field j "text")
      moduleBase := word64 (field j "m")
      offset := word64 (field j "o")
      typeId := word32 (field j "t")
      parent := (field? j "parent").map word32
      subElements := word32 (field j "sub") }

/-- A frame of a call stack. -/
def frame (j : Json) : NativeFrame :=
  ⟨word64 (item j 0), word32 (item j 1)⟩

/-- A list of texts. -/
def texts (j : Json) : List String := (list j).map text

/-- How far a step goes. -/
def stepKind : Json → StepKind
  | .str "into" => .into
  | .str "out" => .out
  | _ => .over

/-- A handle. -/
def handle : Json → Handle
  | .int n => ⟨n⟩
  | _ => ⟨0⟩

/-- A command by its name, with its arguments. -/
def command? (name : String) (j : Json) : Option Command :=
  let sources := texts (field j "source_paths")
  let symbols := texts (field j "symbol_paths")
  match name with
  | "launch" =>
    some (.launch ⟨text (field j "target"), text (field j "command_line"), sources, symbols⟩)
  | "attach" =>
    some (.attach ⟨word32 (field j "pid"), (field? j "target").map text, sources, symbols⟩)
  | "continue" => some .continue
  | "step" => some (.step (stepKind (field j "kind")) ((field? j "thread").map word32))
  | "pause" => some .pause
  | "terminate" => some .terminate
  | "set_breakpoints" =>
    some (.setBreakpoints (text (field j "file")) ((list (field j "lines")).map word32))
  | "threads" => some .threads
  | "stack_trace" => some (.stackTrace (word32 (field j "thread")))
  | "scopes" => some (.scopes (handle (field j "ref")))
  | "variables" => some (.variables (handle (field j "ref")))
  | "set_variable" =>
    some (.setVariable (handle (field j "ref")) (text (field j "name")) (text (field j "value")))
  | "evaluate" =>
    some (.evaluate (text (field j "expression")) ((field? j "frame").map handle))
  | "process_info" => some .processInfo
  | _ => none

/-- A table written as an array. -/
def table? {α : Type} (j : Json) (name : String) (row : Json → α) : Option (List α) :=
  (field? j name).map fun rows => (list rows).map row

/-- A table written as an object. -/
def index? {α : Type} (j : Json) (name : String) (row : String → Json → α) : Option (List α) :=
  (field? j name).map fun rows => (entries rows).map fun (key, value) => row key value

end Script

open Script in
/-- Read a world, or changes to one. -/
def Patch.ofJson (j : Json) : Patch where
  types := index? j "types" fun id t => (number id, typeInfo t)
  expressions := index? j "eval" fun expression r => (expression, reference r)
  autoTypeNames := (field? j "auto_type_names").map text
  shortReads := (field? j "short_reads").map flag
  keepNul := (field? j "keep_nul").map flag
  writeLimit := (field? j "write_limit").map nat
  failures := index? j "fail" fun call e => (call, engineError e)
  badOffsets := table? j "bad_offsets" word64
  threads := table? j "threads" word32
  moduleName := (field? j "module").map text
  pointer32 := (field? j "pointer32").map flag
  lines := table? j "lines" fun l => (text (item l 0), word32 (item l 1), word64 (item l 2))
  source := table? j "source" fun l => (word64 (item l 0), ⟨text (item l 1), word32 (item l 2)⟩)
  found := table? j "found" fun l => (text (item l 0), text (item l 1))
  names := table? j "names" fun l => (word64 (item l 0), text (item l 1))
  callStacks := index? j "stacks" fun thread frames => (number thread, (list frames).map frame)
  symbols := index? j "symbols" fun scope symbols => (scope, (list symbols).map symbol)
  initial := table? j "initial" event
  interruptStop := (field? j "interrupt_stop").map stop
  memory := (list (field j "memory")).map segment
  stops := (list (field j "stops")).map stop
  currentThread := (field? j "current_thread").map word32
  frameIndex := (field? j "frame_index").map word32
  pid := (field? j "pid").map word32
  status := (field? j "status").map Script.status

end DebugAdapter.Scripted
