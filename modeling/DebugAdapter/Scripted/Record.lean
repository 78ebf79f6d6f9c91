import DebugAdapter.Scripted.Script

/-!
# Records

What a scripted engine was made to do, and the typed values it hands out, written down as JSON. Typed
values have the form that scripts have for references, with nothing left out.

Main statement: a script reads a written value as that value (`reference_ofData`).
-/

namespace DebugAdapter.Scripted

namespace Script

/-- A 32 bit word. -/
def ofWord32 (w : UInt32) : Json := .int w.toNat

/-- A 64 bit word. -/
def ofWord64 (w : UInt64) : Json := .int w.toNat

/-- Bytes as pairs of hexadecimal digits. -/
def ofBytes (bytes : List UInt8) : Json :=
  .str (String.ofList (bytes.flatMap fun b => Text.hexFixed Text.hexDigitLower 2 b.toNat))

/-- A text that may be missing. -/
def ofText? (s : Option String) : Json :=
  (s.map Json.str).getD .null

/-- A symbol tag: a name or a number. -/
def ofTag : SymbolTag → Json
  | .null => .str "null"
  | .base => .str "base"
  | .record => .str "udt"
  | .enumeration => .str "enum"
  | .pointer => .str "pointer"
  | .array => .str "array"
  | .function => .str "function"
  | .other n => ofWord32 n

/-- A typed value. -/
def ofData (d : TypedData) : Json :=
  .object [("m", ofWord64 d.moduleBase), ("o", ofWord64 d.offset), ("t", ofWord32 d.typeId),
    ("s", ofWord32 d.size), ("g", ofTag d.tag), ("d", ofWord64 d.word)]

/-- A number of 32 bits is read back as it was written. -/
@[simp] theorem word32_ofWord32 (w : UInt32) : word32 (ofWord32 w) = w := by
  simp [word32, ofWord32, nat]

/-- A number of 64 bits is read back as it was written. -/
@[simp] theorem word64_ofWord64 (w : UInt64) : word64 (ofWord64 w) = w := by
  simp [word64, ofWord64, nat]

/-- The tag of a symbol is read back as it was written. -/
@[simp] theorem tag_ofTag (t : SymbolTag) : tag (ofTag t) = t := by
  cases t <;> simp [tag, ofTag]
  simp [ofWord32, word32, nat]

/-- The members of a written value, in order. -/
theorem ofData_eq (d : TypedData) :
    ofData d = .obj [("d", ofWord64 d.word), ("g", ofTag d.tag), ("m", ofWord64 d.moduleBase),
      ("o", ofWord64 d.offset), ("s", ofWord32 d.size), ("t", ofWord32 d.typeId)] := by
  simp only [ofData, Json.object, Json.insertMember, List.foldl_cons, List.foldl_nil,
    String.reduceEq, String.reduceLT, if_true, if_false]

/-- A tag is never written as `null`, which would count as missing. -/
theorem isNull_ofTag (t : SymbolTag) : (ofTag t).isNull = false := by
  cases t <;> rfl

/-- A value that was recorded is read as a reference to itself, with all its parts given. -/
theorem reference_ofData (d : TypedData) :
    reference (ofData d) =
      { typeId := d.typeId, offset := some d.offset, moduleBase := some d.moduleBase,
        size := some d.size, tag := some d.tag, word := some d.word } := by
  have number (w : Nat) : (Json.int w).isNull = false := rfl
  simp [reference, field, field?, ofData_eq, Json.member?, Json.findMember, Option.filter,
    isNull_ofTag, ofWord64, ofWord32, number, word32, word64, nat]

end Script

open Script in
/-- A call: its name, and then its arguments. -/
def Call.toJson : Call → Json
  | .create path => .arr [.str "create", ofText? path]
  | .clearBreakpoints => .arr [.str "clear_breakpoints"]
  | .createProcess line => .arr [.str "create_process", .str line]
  | .attachProcess pid => .arr [.str "attach_process", ofWord32 pid]
  | .endSession => .arr [.str "end_session"]
  | .setExecutionStatus s => .arr [.str "set_execution_status", .str s.name]
  | .execute c => .arr [.str "execute", .str c]
  | .applySettings s =>
    .arr [.str "apply_settings", .bool s.sourceLevelStepping, ofWord32 s.radix]
  | .setSymbolPath path => .arr [.str "set_symbol_path", .str path]
  | .setSourcePath path => .arr [.str "set_source_path", .str path]
  | .reloadSymbols name => .arr [.str "reload_symbols", .str name]
  | .addCodeBreakpoint id offset =>
    .arr [.str "add_code_breakpoint", ofWord32 id, ofWord64 offset]
  | .removeBreakpoint id => .arr [.str "remove_breakpoint", ofWord32 id]
  | .setCurrentThread thread => .arr [.str "set_current_thread", ofWord32 thread]
  | .setFrameIndex i => .arr [.str "set_scope_frame_index", ofWord32 i]
  | .scopeSymbolGroup kind previous =>
    .arr [.str "scope_symbol_group", .str kind.name, .bool previous]
  | .writeVirtual offset bytes => .arr [.str "write_virtual", ofWord64 offset, ofBytes bytes]

end DebugAdapter.Scripted
