import DebugAdapter.Proofs.FallbackExpansion
import Mathlib.Data.List.TakeWhile

/-!
# How strings are shown

A string with a length is a pointer to bytes and their number. Where the two are found depends on the type:
in fields of a `&str`, or in those of the vector that a `String` is (`StringAt`). What is shown of the bytes
does not: their text in quotes, of at most `maxTextBytes` of them, with `...` if there are more
(`shownText`). A string of which a byte cannot be read is not shown at all, and for one without bytes nothing
is read.

A string without length ends at its terminator. The engine may give the terminator and what follows, or may
cut its answer there: the text is the same, as no answer is longer than asked for (`CutsAt`).

## Key results

- `StringAt.shows_bytes`: a string with a length is shown by its bytes, whatever its layout
- `CutsAt.shownAlike`: a terminated string is shown the same way, cut off or not
- `string_rendering`: both together
-/

namespace DebugAdapter

namespace Visualizer

/-- What is shown of the bytes of a string. -/
def shownText (bytes : List UInt8) : String :=
  Text.Utf8.decodeLossy (bytes.take maxTextBytes) ++ if maxTextBytes < bytes.length then "..." else ""

/-- The number of bytes that are read of a string of `length` bytes. -/
def readLength (length : Nat) : UInt32 :=
  UInt32.ofNat (min length maxTextBytes)

/-- The text of bytes does not change if what follows the first terminator is cut off. -/
theorem terminatedText_takeWhile {raw : List UInt8} (short : raw.length ≤ maxCTextBytes.toNat) :
    terminatedText (raw.takeWhile (· != 0)) = terminatedText raw := by
  -- what counts is whether there is a terminator to cut at
  by_cases ends : 0 ∈ raw
  · have unended : 0 ∉ raw.takeWhile (· != 0) := by
      intro mem
      cases List.mem_takeWhile_imp mem
    -- with a terminator the first bytes are fewer than the most that are read
    have cut : (raw.takeWhile (· != 0)).length < maxCTextBytes.toNat := by
      have first : raw.takeWhile (· != 0) <+: raw := List.takeWhile_prefix _
      have shorter : (raw.takeWhile (· != 0)).length ≠ raw.length := fun same => by
        rw [first.eq_of_length same] at unended
        exact unended ends
      have le := first.length_le
      omega
    rw [terminatedText, terminatedText, List.takeWhile_idem, List.contains_eq_mem, List.contains_eq_mem,
      decide_eq_true ends, decide_eq_false unended, decide_eq_true cut]
    rfl
  · -- without terminator nothing is cut off
    have whole : raw.takeWhile (· != 0) = raw := by
      rw [List.takeWhile_eq_self_iff]
      intro byte mem
      rw [bne_iff_ne]
      rintro rfl
      exact ends mem
    rw [whole]

end Visualizer

variable {σ τ : Type} [DataSpaces σ] [DataSpaces τ]

/-! ## Where the bytes are -/

/-- In states with `U`, a string has the pointer to its bytes at `start`, and the number of bytes is
`length`. -/
inductive StringAt (U : Memory σ → Prop) (v : NamedValue) : (start length : UInt64) → Prop
  /-- A `&str`: the pointer is in the field `data_ptr`, and at the start of the value if there is none. -/
  | view {length pointer : TypedData} (layout : Visualizer.TextLayout.ofTypeName? v.typeName = some .view)
      (counted : Finds U (Memory.field v.data "length") length) (present : length.isNone = false)
      (pointed : Finds U (Memory.field v.data "data_ptr") pointer) :
      StringAt U v (if pointer.isNone then v.data.offset else pointer.offset) length.word
  /-- A `String`: its first field is a vector, whose buffer begins with the pointer. -/
  | owned {first : String} {rest : List String} {vector length buffer : TypedData}
      (layout : Visualizer.TextLayout.ofTypeName? v.typeName = some .owned)
      (named : Finds U (Memory.fieldNames v.data) (first :: rest))
      (inner : Finds U (Memory.field v.data first) vector)
      (counted : Finds U (Memory.field vector "len") length) (present : length.isNone = false)
      (buffered : Finds U (Memory.field vector "buf") buffer) (allocated : buffer.isNone = false) :
      StringAt U v buffer.offset length.word

/-- In states with `U`, an address is stored as a pointer of `size` bytes. -/
def StoredAt (U : Memory σ → Prop) (size : UInt8) (start address : UInt64) : Prop :=
  Finds U (Memory.readBytes start size.toUInt32) (littleEndianBytes size.toNat address.toNat)

/-- In states with `U`, the bytes of a string can be read at an address, as far as they are shown. -/
def ReadableAt (U : Memory σ → Prop) (address : UInt64) (bytes : List UInt8) : Prop :=
  Finds U (Memory.readBytes address (Visualizer.readLength bytes.length)) (bytes.take Visualizer.maxTextBytes)

/-- In states with `U`, fewer bytes can be read at an address than are shown of a string of a length. -/
def UnreadableAt (U : Memory σ → Prop) (address length : UInt64) : Prop :=
  ∃ bytes, Finds U (Memory.readBytes address (Visualizer.readLength length.toNat)) bytes ∧
    bytes.length < (Visualizer.readLength length.toNat).toNat

/-! ## Strings with a length -/

section

variable {P : σ → Prop} {size : UInt8} {U : Memory σ → Prop} {v : NamedValue} {start length address : UInt64}

omit [DataSpaces τ]

/-- A required field that is present is found. -/
theorem Finds.requiredField {data field : TypedData} {name : String}
    (found : Finds U (Memory.field data name) field)
    (present : field.isNone = false) : Finds U (Visualizer.requiredField data name).run (.ok field) := by
  refine Ensures.bindLookEq found ?_
  rw [present]
  exact .pure fun _ h => ⟨rfl, h⟩

/-- A stored address is the pointer that is read. -/
theorem StoredAt.finds (stored : StoredAt (Memory.In P size) size start address) (word : size = 4 ∨ size = 8)
    (fits : size = 4 → address.toNat < UInt32.size) :
    Finds (Memory.In P size) (Memory.readPointer start) address := by
  have bound : address.toNat < Nat.pow 256 size.toNat := by
    rcases word with rfl | rfl
    · exact fits rfl
    · exact address.toNat_lt
  -- a pointer of four or eight bytes is read as a whole
  have reads : Finds (Memory.In P size) (Memory.readUInt start size) address := by
    have narrow : min size 8 = size := by
      rcases word with rfl | rfl <;> rfl
    rw [Memory.readUInt]
    simp only [narrow]
    refine stored.bindEq ?_
    rw [length_littleEndianBytes, if_neg (Nat.lt_irrefl _), List.take_of_length_le (by simp),
      littleEndian_littleEndianBytes]
    refine .pure fun _ h => ⟨?_, h⟩
    rw [Nat.mod_eq_of_lt bound, UInt64.ofNat_toNat]
  refine Ensures.bindGet fun mem h => ?_
  rw [h.2]
  exact reads.of_left

omit [DataSpaces σ] in
/-- A text is shown in quotes, and no text if there is none. -/
private theorem Ensures.quoted {m : VisualM σ String} {r : Except VisualizeError String}
    (text : Ensures U m.run fun r' _ => r' = r) :
    Ensures U (do return Visualizer.quoted (← m) : VisualM σ Rendering).run
      fun r' _ => r' = r.map Visualizer.quoted := by
  refine Ensures.bindExcept text (fun text => .pure fun _ h => ?_) fun e _ h => ?_
  · rw [← h]
    rfl
  · rw [← h]
    rfl

/-- Whatever its layout, a string is shown by the text at its pointer. -/
theorem StringAt.ensures_render (lies : StringAt U v start length) {r : Except VisualizeError String}
    (text : Ensures U (do Visualizer.textAt (← look (Memory.readPointer start)) length : VisualM σ String).run
      fun r' _ => r' = r) :
    Ensures U (Visualizer.string.render v).run fun r' _ => r' = r.map Visualizer.quoted := by
  change Ensures U (Visualizer.renderText v).run _
  unfold Visualizer.renderText
  cases lies with
  | view layout counted present pointed =>
    rw [layout]
    exact Ensures.quoted (Ensures.bindOk (counted.requiredField present) (Ensures.bindLookEq pointed text))
  | owned layout named inner counted present buffered allocated =>
    rw [layout]
    refine Ensures.quoted (Ensures.bindLookEq named (Ensures.bindLookEq inner ?_))
    exact Ensures.bindOk (counted.requiredField present) (Ensures.bindOk (buffered.requiredField allocated) text)

omit [DataSpaces σ] in
/-- The number of bytes that are read is the length of the text, up to the limit. -/
theorem toNat_readLength (length : Nat) :
    (Visualizer.readLength length).toNat = min length Visualizer.maxTextBytes := by
  rw [Visualizer.readLength, UInt32.toNat_ofNat', Nat.mod_eq_of_lt]
  have limit : Visualizer.maxTextBytes = 65536 := rfl
  omega

/-- Of a string without bytes nothing is read. -/
theorem textAt_zero : Ensures U (Visualizer.textAt address 0 : VisualM σ String).run fun r _ => r = .ok "" :=
  fun _ _ => rfl

/-- A text whose bytes can be read. -/
theorem ReadableAt.textAt {bytes : List UInt8} (counted : bytes.length = length.toNat) (some : address ≠ 0)
    (readable : ReadableAt U address bytes) :
    Ensures U (Visualizer.textAt address length : VisualM σ String).run
      fun r _ => r = .ok (Visualizer.shownText bytes) := by
  -- an empty text is shown without a look at the memory
  by_cases empty : length = 0
  · subst empty
    rw [List.eq_nil_of_length_eq_zero counted]
    exact textAt_zero
  · rw [Visualizer.textAt, if_neg empty, if_neg some]
    rw [ReadableAt, counted] at readable
    refine Ensures.bindLookEq readable ?_
    have whole : (bytes.take Visualizer.maxTextBytes).length = min length.toNat Visualizer.maxTextBytes := by
      rw [List.length_take, counted, Nat.min_comm]
    rw [whole, if_neg (Nat.lt_irrefl _)]
    -- the dots are put behind a text whose bytes are not all read
    have more : min length.toNat Visualizer.maxTextBytes < length.toNat ↔
        Visualizer.maxTextBytes < bytes.length := by
      omega
    rw [Visualizer.shownText]
    by_cases long : Visualizer.maxTextBytes < bytes.length
    · rw [if_pos long]
      refine .pure fun _ _ => ?_
      rw [if_pos (more.2 long)]
    · rw [if_neg long, String.append_empty]
      refine .pure fun _ _ => ?_
      rw [if_neg fun less => long (more.1 less)]

/-- A text of which a byte cannot be read. -/
theorem textAt_unreadable (some : length ≠ 0) (unreadable : address = 0 ∨ UnreadableAt U address length) :
    Ensures U (Visualizer.textAt address length : VisualM σ String).run
      fun r _ => r = .error (.unreadable address) := by
  rw [Visualizer.textAt, if_neg some]
  by_cases null : address = 0
  · rw [if_pos null]
    exact fun _ _ => rfl
  · obtain ⟨bytes, read, short⟩ := unreadable.resolve_left null
    rw [if_neg null]
    refine Ensures.bindLookEq read ?_
    rw [toNat_readLength] at short
    rw [if_pos short]
    exact fun _ _ => rfl

/-- In states with `U`, a string is shown by a text, and it has no children. -/
def ShowsText (U : Memory σ → Prop) (v : NamedValue) (text : String) : Prop :=
  (Ensures U (Visualizer.string.render v).run fun r _ => r = .ok (Visualizer.quoted text)) ∧
    Ensures U (Visualizer.string.children v).run fun r _ => r = .ok []

/-- A string without bytes is shown, whatever its pointer is, and if there is one. -/
theorem StringAt.shows_empty (lies : StringAt U v start 0) : ShowsText U v "" :=
  ⟨lies.ensures_render fun _ _ => rfl, fun _ _ => rfl⟩

variable (lies : StringAt (Memory.In P size) v start length) (word : size = 4 ∨ size = 8)
  (fits : size = 4 → address.toNat < UInt32.size) (stored : StoredAt (Memory.In P size) size start address)
include lies word fits stored

/-- A text whose bytes can be read is shown in quotes, cut at the limit. -/
theorem StringAt.shows_bytes {bytes : List UInt8} (counted : bytes.length = length.toNat) (some : address ≠ 0)
    (readable : ReadableAt (Memory.In P size) address bytes) :
    ShowsText (Memory.In P size) v (Visualizer.shownText bytes) :=
  ⟨lies.ensures_render (Ensures.bindLookEq (stored.finds word fits) (readable.textAt counted some)),
    fun _ _ => rfl⟩

/-- A text whose bytes cannot be read is not shown, and the error names the address. -/
theorem StringAt.fails_unreadable (some : length ≠ 0)
    (unreadable : address = 0 ∨ UnreadableAt (Memory.In P size) address length) :
    Ensures (Memory.In P size) (Visualizer.string.render v).run fun r _ => r = .error (.unreadable address) :=
  lies.ensures_render (Ensures.bindLookEq (stored.finds word fits) (textAt_unreadable some unreadable))

end

/-! ## Terminated strings -/

section

variable {U : Memory σ → Prop} {U' : Memory τ → Prop} {v : NamedValue} {address : UInt64}

/-- In states with `U` an engine gives bytes at an address, no more than it is asked for, and in states with
`U'` another engine gives the same ones up to the first terminator. -/
def CutsAt (U : Memory σ → Prop) (U' : Memory τ → Prop) (address : UInt64) : Prop :=
  ∃ raw? : Option (List UInt8), (∀ raw, raw? = some raw → raw.length ≤ Visualizer.maxCTextBytes.toNat) ∧
    Finds U (Memory.readCBytes? address Visualizer.maxCTextBytes) raw? ∧
    Finds U' (Memory.readCBytes? address Visualizer.maxCTextBytes) (raw?.map fun raw => raw.takeWhile (· != 0))

/-- In states with `U` and in states with `U'` the same is shown, or the same failure is met. -/
def ShownAlike (U : Memory σ → Prop) (U' : Memory τ → Prop) (m : VisualM σ Rendering)
    (m' : VisualM τ Rendering) : Prop :=
  ∃ r, (Ensures U m.run fun r' _ => r' = r) ∧ Ensures U' m'.run fun r' _ => r' = r

omit [DataSpaces τ] in
/-- Terminated bytes are shown by their text, if there are any. -/
private theorem ensures_terminatedTextAt {raw? : Option (List UInt8)}
    (read : Finds U (Memory.readCBytes? address Visualizer.maxCTextBytes) raw?) :
    Ensures U (Visualizer.terminatedTextAt address : VisualM σ String).run fun r _ =>
      r = (raw?.map Visualizer.terminatedText).elim (.error (.unreadable address)) .ok := by
  refine Ensures.bindLookEq read ?_
  cases raw? with
  | none => exact fun _ _ => rfl
  | some raw => exact fun _ _ => rfl

/-- The text of terminated bytes is the same, cut off or not. -/
theorem CutsAt.shownAlike (cuts : CutsAt U U' address) : ShownAlike U U'
    (do return Visualizer.quoted (← Visualizer.terminatedTextAt address))
    (do return Visualizer.quoted (← Visualizer.terminatedTextAt address)) := by
  obtain ⟨raw?, short, whole, cut⟩ := cuts
  -- both texts end at the first terminator
  have same : (raw?.map fun raw => raw.takeWhile (· != 0)).map Visualizer.terminatedText =
      raw?.map Visualizer.terminatedText := by
    cases raw? with
    | none => rfl
    | some raw => exact congrArg some (Visualizer.terminatedText_takeWhile (short raw rfl))
  exact ⟨_, (ensures_terminatedTextAt whole).quoted, same ▸ (ensures_terminatedTextAt cut).quoted⟩

/-- A string behind a pointer. -/
theorem CutsAt.pointer_shownAlike {target : TypedData}
    (layout : Visualizer.TextLayout.ofTypeName? v.typeName = some .pointer)
    (points : Finds U (Memory.dereference v.data) target)
    (points' : Finds U' (Memory.dereference v.data) target) (cuts : CutsAt U U' target.offset) :
    ShownAlike U U' (Visualizer.string.render v) (Visualizer.string.render v) := by
  change ShownAlike U U' (Visualizer.renderText v) (Visualizer.renderText v)
  unfold Visualizer.renderText
  rw [layout]
  -- without a target both fail in the same way
  by_cases absent : target.isNone = true
  · refine ⟨.error (.noData v.name), Ensures.bindLookEq points ?_, Ensures.bindLookEq points' ?_⟩
    all_goals
      rw [if_pos absent]
      exact fun _ _ => rfl
  · obtain ⟨r, shown, shown'⟩ := cuts.shownAlike
    refine ⟨r, Ensures.bindLookEq points ?_, Ensures.bindLookEq points' ?_⟩
    · rw [if_neg absent]
      exact shown
    · rw [if_neg absent]
      exact shown'

end

/-- Strings with a length are shown by their bytes, whatever their layout, and not at all if their bytes
cannot be read. Terminated strings are shown the same way whether the engine cuts them or not. -/
theorem string_rendering {P : σ → Prop} {size : UInt8} (word : size = 4 ∨ size = 8) (U : Memory σ → Prop)
    (U' : Memory τ → Prop) :
    (∀ v start length, StringAt (Memory.In P size) v start length →
      (length = 0 → ShowsText (Memory.In P size) v "") ∧
      ∀ address, (size = 4 → address.toNat < UInt32.size) →
        StoredAt (Memory.In P size) size start address →
        (∀ bytes, bytes.length = length.toNat → address ≠ 0 → ReadableAt (Memory.In P size) address bytes →
          ShowsText (Memory.In P size) v (Visualizer.shownText bytes)) ∧
        (length ≠ 0 → address = 0 ∨ UnreadableAt (Memory.In P size) address length →
          Ensures (Memory.In P size) (Visualizer.string.render v).run fun r _ =>
            r = .error (.unreadable address))) ∧
    (∀ v target, Visualizer.TextLayout.ofTypeName? v.typeName = some .pointer →
      Finds U (Memory.dereference v.data) target → Finds U' (Memory.dereference v.data) target →
      CutsAt U U' target.offset →
      ShownAlike U U' (Visualizer.string.render v) (Visualizer.string.render v)) ∧
    (∀ v : NamedValue, CutsAt U U' v.data.offset →
      ShownAlike U U' (Visualizer.wtf8.render v) (Visualizer.wtf8.render v)) := by
  -- the parts: an empty text, a stored one, one that cannot be read, and the two that end in zero
  refine ⟨fun v start length lies => ⟨?_, fun address fits stored => ⟨?_, ?_⟩⟩, ?_, ?_⟩
  · rintro rfl
    exact lies.shows_empty
  · exact fun bytes counted some readable => lies.shows_bytes word fits stored counted some readable
  · exact fun some unreadable => lies.fails_unreadable word fits stored some unreadable
  · exact fun v target layout points points' cuts => cuts.pointer_shownAlike layout points points'
  · exact fun v cuts => cuts.shownAlike

/-! ### Three bytes and a terminator

They are the bytes of a `&str` and of a `String`, and a pointer leads to them. The second one is no part of a
character. -/

namespace Scripted

/-- A world with three strings that have the same bytes. -/
def stringsWorld (keepNul : Bool) : World where
  keepNul := keepNul
  types := [
    (1, { name := some "&str", size := 16, tag := some .record
          fields := [("data_ptr", { typeId := 90 }), ("length", { typeId := 91, displacement := 8 })] }),
    (2, { name := some "alloc::string::String", size := 24, tag := some .record
          fields := [("vec", { typeId := 3 })] }),
    (3, { name := some "alloc::vec::Vec<u8>", size := 24, tag := some .record
          fields := [("buf", { typeId := 90 }), ("len", { typeId := 91, displacement := 16 })] }),
    (4, { name := some "struct &str *", size := 8, tag := some .pointer, target := some { typeId := 92 } }),
    (90, { name := some "u8 *", size := 8, tag := some .pointer, target := some { typeId := 92 } }),
    (91, { name := some "u64", size := 8, tag := some .base }),
    (92, { name := some "u8", size := 1, tag := some .base })]
  memory := [
    ⟨0x100, #[0, 5, 0, 0, 0, 0, 0, 0, 3, 0, 0, 0, 0, 0, 0, 0]⟩,
    ⟨0x200, #[0, 5, 0, 0, 0, 0, 0, 0, 8, 0, 0, 0, 0, 0, 0, 0, 3, 0, 0, 0, 0, 0, 0, 0]⟩,
    ⟨0x500, #[0x61, 0xFF, 0x62, 0, 0x63]⟩]

/-- The memory of that world. -/
def stringsMemory (keepNul : Bool) : Memory World where
  engine := stringsWorld keepNul

/-- The `&str`. -/
def viewedString : NamedValue where
  name := "s"
  typeName := "&str"
  data := ⟨0x140000000, 0x100, 1, 16, .record, 0⟩

/-- The `String`. -/
def ownedString : NamedValue where
  name := "t"
  typeName := "alloc::string::String"
  data := ⟨0x140000000, 0x200, 2, 24, .record, 0⟩

/-- The pointer. -/
def pointedString : NamedValue where
  name := "p"
  typeName := "struct &str *"
  data := ⟨0x140000000, 0x300, 4, 8, .pointer, 0x500⟩

/-- The states of that world. -/
def Strings (keepNul : Bool) : Memory World → Prop :=
  Memory.In (World.At (stringsWorld keepNul).essence) 8

/-- The memory with the texts is in the situation that its engine describes. -/
private theorem strings_here (keepNul : Bool) : Strings keepNul (stringsMemory keepNul) :=
  ⟨World.at_essence _, rfl⟩

/-- The engine with the texts reads the same whenever it is asked. -/
private theorem strings_same (keepNul : Bool) : ReadsSame (World.At (stringsWorld keepNul).essence) :=
  World.steady.readsSame _

/-- The string slice has its pointer and its length in its fields. -/
private theorem viewedString_at : StringAt (Strings false) viewedString 0x100 3 := by
  have same : ReadsSame (World.At (stringsWorld false).essence) := strings_same false
  have here : Strings false (stringsMemory false) := strings_here false
  have counted : Finds (Strings false) (Memory.field viewedString.data "length")
    ⟨0x140000000, 0x108, 91, 8, .base, 3⟩ := (same.field _ _).finds here (by decide +kernel)
  have pointed : Finds (Strings false) (Memory.field viewedString.data "data_ptr")
    ⟨0x140000000, 0x100, 90, 8, .pointer, 0x500⟩ := (same.field _ _).finds here (by decide +kernel)
  exact .view (by decide +kernel) counted rfl pointed

/-- The owned string has its pointer and its length in the words of its value. -/
private theorem ownedString_at : StringAt (Strings false) ownedString 0x200 3 := by
  have same : ReadsSame (World.At (stringsWorld false).essence) := strings_same false
  have here : Strings false (stringsMemory false) := strings_here false
  have named : Finds (Strings false) (Memory.fieldNames ownedString.data) ["vec"] :=
    (same.fieldNames _).finds here (by decide +kernel)
  have inner : Finds (Strings false) (Memory.field ownedString.data "vec")
    ⟨0x140000000, 0x200, 3, 24, .record, 0x500⟩ := (same.field _ _).finds here (by decide +kernel)
  have counted : Finds (Strings false) (Memory.field ⟨0x140000000, 0x200, 3, 24, .record, 0x500⟩ "len")
    ⟨0x140000000, 0x210, 91, 8, .base, 3⟩ := (same.field _ _).finds here (by decide +kernel)
  have buffered : Finds (Strings false) (Memory.field ⟨0x140000000, 0x200, 3, 24, .record, 0x500⟩ "buf")
    ⟨0x140000000, 0x200, 90, 8, .pointer, 0x500⟩ := (same.field _ _).finds here (by decide +kernel)
  exact .owned (by decide +kernel) named inner counted rfl buffered rfl

/-- Eight bytes that make up the address store it. -/
private theorem stored_strings {start : UInt64}
    (given : ((Memory.readBytes start 8).run (stringsMemory false)).1 = [0, 5, 0, 0, 0, 0, 0, 0]) :
    StoredAt (Strings false) 8 start 0x500 :=
  (ReadsSame.readBytes (strings_same false) start 8).finds (strings_here false) (given.trans (by decide))

/-- The bytes at the address can be read. -/
private theorem readable_strings : ReadableAt (Strings false) 0x500 [0x61, 0xFF, 0x62] :=
  (ReadsSame.readBytes (strings_same false) 0x500 3).finds (strings_here false) (by decide +kernel)

/-- The pointer leads to the byte it points to. -/
private theorem points_pointedString (keepNul : Bool) : Finds (Strings keepNul)
    (Memory.dereference pointedString.data) ⟨0x140000000, 0x500, 92, 1, .base, 0x61⟩ := by
  have here : Strings keepNul (stringsMemory keepNul) := strings_here keepNul
  refine (ReadsSame.dereference (strings_same keepNul) _).finds here ?_
  cases keepNul
  · decide +kernel
  · decide +kernel

/-- With and without its terminator kept, the same text is read at the address. -/
private theorem cuts_strings : CutsAt (Strings true) (Strings false) 0x500 := by
  have whole : Finds (Strings true) (Memory.readCBytes? 0x500 Visualizer.maxCTextBytes)
    (some [0x61, 0xFF, 0x62, 0, 0x63]) :=
    (ReadsSame.readCBytes? (strings_same true) _ _).finds (strings_here true) (by decide +kernel)
  have cut : Finds (Strings false) (Memory.readCBytes? 0x500 Visualizer.maxCTextBytes)
    (some [0x61, 0xFF, 0x62]) :=
    (ReadsSame.readCBytes? (strings_same false) _ _).finds (strings_here false) (by decide +kernel)
  refine ⟨_, ?_, whole, cut⟩
  rintro raw ⟨⟩
  decide

/-- All three are shown by the same text. -/
theorem string_rendering_strings :
    ShowsText (Strings false) viewedString "a\uFFFDb" ∧ ShowsText (Strings false) ownedString "a\uFFFDb" ∧
      ShownAlike (Strings true) (Strings false) (Visualizer.string.render pointedString)
        (Visualizer.string.render pointedString) := by
  have word : (8 : UInt8) = 4 ∨ (8 : UInt8) = 8 := .inr rfl
  have rendering := string_rendering (P := World.At (stringsWorld false).essence) word (Strings true)
    (Strings false)
  have text : Visualizer.shownText [0x61, 0xFF, 0x62] = "a\uFFFDb" := by decide +kernel
  obtain ⟨shows, alike, -⟩ := rendering
  refine ⟨?_, ?_, ?_⟩
  · have bytes := ((shows _ _ _ viewedString_at).2 0x500 (by decide) (stored_strings (by decide +kernel))).1
    exact text ▸ bytes _ rfl (by decide) readable_strings
  · have bytes := ((shows _ _ _ ownedString_at).2 0x500 (by decide) (stored_strings (by decide +kernel))).1
    exact text ▸ bytes _ rfl (by decide) readable_strings
  · exact alike _ _ (by decide +kernel) (points_pointedString true) (points_pointedString false) cuts_strings

end Scripted

end DebugAdapter
