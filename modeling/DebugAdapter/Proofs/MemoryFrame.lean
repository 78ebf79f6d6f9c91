import DebugAdapter.Proofs.Keeps
import DebugAdapter.Visualizer.Registry

/-!
# What a look at memory leaves as it is

Looking at the debuggee's values, and decoding them, calls the engine for memory and types only, and
remembers type names. So it keeps whatever these calls keep, and that does not depend on the names
remembered (`Memory.ReadFrame`). Only setting a variable also writes (`Memory.Frame`).

## Key results

- `Memory.ReadFrame.resolve`, `Memory.ReadFrame.children`: so do the visualizers, whichever decodes a
  value
-/

namespace DebugAdapter

/-- A call for memory or types. -/
inductive DataCall {σ : Type} [DataSpaces σ] : {α : Type} → EngineM σ α → Prop
  | typedData (r : TypedRequest) : DataCall (DataSpaces.typedData r)
  | typedText (r : TextRequest) (data : TypedData) : DataCall (DataSpaces.typedText r data)
  | fieldNames (data : TypedData) : DataCall (DataSpaces.fieldNames data)
  | typeName (moduleBase : UInt64) (typeId : UInt32) :
      DataCall (DataSpaces.typeName moduleBase typeId)
  | readVirtual (offset : UInt64) (size : UInt32) : DataCall (DataSpaces.readVirtual offset size)
  | readString (offset : UInt64) (maxLength : UInt32) :
      DataCall (DataSpaces.readString offset maxLength)
  | writeVirtual (offset : UInt64) (bytes : List UInt8) :
      DataCall (DataSpaces.writeVirtual offset bytes)

/-- A call for memory or types that writes nothing. -/
inductive ReadCall {σ : Type} [DataSpaces σ] : {α : Type} → EngineM σ α → Prop
  | typedData (r : TypedRequest) : ReadCall (DataSpaces.typedData r)
  | typedText (r : TextRequest) (data : TypedData) : ReadCall (DataSpaces.typedText r data)
  | fieldNames (data : TypedData) : ReadCall (DataSpaces.fieldNames data)
  | typeName (moduleBase : UInt64) (typeId : UInt32) :
      ReadCall (DataSpaces.typeName moduleBase typeId)
  | readVirtual (offset : UInt64) (size : UInt32) : ReadCall (DataSpaces.readVirtual offset size)
  | readString (offset : UInt64) (maxLength : UInt32) :
      ReadCall (DataSpaces.readString offset maxLength)

variable {σ : Type} [DataSpaces σ]

/-- Reading calls are data calls. -/
theorem ReadCall.data {α : Type} {m : EngineM σ α} (h : ReadCall m) : DataCall m := by
  cases h <;> constructor

/-- What holds of a memory is kept by each call for memory or types that writes nothing, and does not
depend on the type names remembered. -/
structure Memory.ReadFrame (I : Memory σ → Prop) : Prop where
  call : ∀ {α : Type} {m : EngineM σ α}, ReadCall m → ∀ mem, I mem →
    I { mem with engine := (m.call mem.engine).2 }
  typeNames : ∀ mem typeNames, I mem → I { mem with typeNames }

/-- What holds of a memory is kept by each call for memory or types, and does not depend on the type
names remembered. -/
structure Memory.Frame (I : Memory σ → Prop) : Prop where
  call : ∀ {α : Type} {m : EngineM σ α}, DataCall m → ∀ mem, I mem →
    I { mem with engine := (m.call mem.engine).2 }
  typeNames : ∀ mem typeNames, I mem → I { mem with typeNames }

/-- What is kept by every call for data is kept by those that only read. -/
theorem Memory.Frame.reading {I : Memory σ → Prop} (F : Memory.Frame I) : Memory.ReadFrame I where
  call := fun h => F.call h.data
  typeNames := F.typeNames

/-- Writing to the memory keeps what a frame keeps. -/
theorem Memory.Frame.writeBytes {I : Memory σ → Prop} (F : Memory.Frame I) (offset : UInt64)
    (bytes : List UInt8) : Keeps I (Memory.writeBytes offset bytes) :=
  Keeps.bind (F.call (.writeVirtual offset bytes)) fun _ => .pure _

omit [DataSpaces σ] in
/-- Looking keeps what the computation keeps. -/
theorem Keeps.look {α : Type} {I : Memory σ → Prop} {m : MemoryM σ α} (hm : Keeps I m) :
    Keeps I (look m).run :=
  hm.lift

namespace Memory.ReadFrame

variable {I : Memory σ → Prop} (F : Memory.ReadFrame I)
include F

/-! ## Memory -/

/-- A reading call keeps what a frame keeps. -/
theorem ask {α : Type} {m : EngineM σ α} (h : ReadCall m) : Keeps I (Memory.ask m) :=
  fun mem hmem => F.call h mem hmem

/-- So does a request for typed data, of whatever kind. -/
theorem request (r : TypedRequest) : Keeps I (Memory.request r) :=
  (F.ask (.typedData r)).bind fun _ => .pure _

/-- Making typed data at an address is one such request. -/
theorem create (moduleBase offset : UInt64) (typeId : UInt32) :
    Keeps I (Memory.create moduleBase offset typeId) :=
  F.request _

/-- Following a pointer is one such request. -/
theorem dereference (data : TypedData) : Keeps I (Memory.dereference data) :=
  .ite (fun _ => .pure _) fun _ => F.request _

/-- Reading a field is one such request. -/
theorem field (data : TypedData) (name : String) : Keeps I (Memory.field data name) :=
  .ite (fun _ => .pure _) fun _ => F.request _

/-- Reading an element is one such request. -/
theorem arrayElement (data : TypedData) (index : UInt64) :
    Keeps I (Memory.arrayElement data index) :=
  .ite (fun _ => .pure _) fun _ => F.request _

/-- Evaluating an expression only reads. -/
theorem evaluate (expression : String) : Keeps I (Memory.evaluate expression) :=
  F.request _

/-- Reading memory keeps what a frame keeps. -/
theorem readBytes (offset : UInt64) (size : UInt32) : Keeps I (Memory.readBytes offset size) :=
  (F.ask (.readVirtual offset size)).bind fun _ => .pure _

/-- Reading up to a terminator keeps what a frame keeps. -/
theorem readCBytes? (offset : UInt64) (maxLength : UInt32) :
    Keeps I (Memory.readCBytes? offset maxLength) :=
  F.ask (.readString offset maxLength)

/-- Reading a number keeps what a frame keeps. -/
theorem readUInt (offset : UInt64) (size : UInt8) : Keeps I (Memory.readUInt offset size) :=
  (F.readBytes offset _).bind fun _ => .ite (fun _ => .pure _) fun _ => .pure _

/-- Reading a pointer keeps what a frame keeps. -/
theorem readPointer (offset : UInt64) : Keeps I (Memory.readPointer offset) :=
  Keeps.get.bind fun _ => F.readUInt offset _

/-- Resolving a type definition keeps what a frame keeps. -/
theorem typeDefinition (data : TypedData) : Keeps I (Memory.typeDefinition data) :=
  .ite (fun _ => .pure _) fun _ => (F.ask (.typedText _ data)).bind fun _ => .pure _

/-- Asking for the short value keeps what a frame keeps. -/
theorem shortValue (data : TypedData) : Keeps I (Memory.shortValue data) :=
  .ite (fun _ => .pure _) fun _ => (F.ask (.typedText _ data)).bind fun _ => .pure _

/-- Listing the names of the fields keeps what a frame keeps. -/
theorem fieldNames (data : TypedData) : Keeps I (Memory.fieldNames data) :=
  .ite (fun _ => .pure _) fun _ => (F.ask (.fieldNames data)).bind fun _ => .pure _

/-- Reading all fields keeps what is kept at each of them. -/
theorem fields (data : TypedData) : Keeps I (Memory.fields data) := by
  refine (F.fieldNames data).bind fun names => ?_
  refine (Keeps.mapM (fun name => ?_) names).bind fun _ => .pure _
  exact (F.field data name).bind fun _ => .pure _

/-- Looking up a type name fills the table of the names at most. -/
theorem typeName (data : TypedData) : Keeps I (Memory.typeName data) := by
  refine .ite (fun _ => .pure _) fun _ => ?_
  refine Keeps.get.bind fun mem => ?_
  refine (Keeps.modify fun mem h => F.typeNames mem _ h).bind fun _ => ?_
  split
  · exact .pure _
  · refine (F.ask (.typeName _ _)).bind fun _ => ?_
    refine .ite (fun _ => ?_) fun _ => .pure _
    exact (Keeps.modify fun mem h => F.typeNames mem _ h).bind fun _ => .pure _

/-- Naming typed data looks up its type name. -/
theorem named (name : String) (data : TypedData) : Keeps I (Memory.named name data) :=
  (F.typeName data).bind fun _ => .pure _

/-! ## Decoding -/

/-- Counting the elements of an array compares two sizes that are read. -/
theorem arrayLength (array : TypedData) : Keeps I (Visualizer.arrayLength array) :=
  (F.dereference array).bind fun _ => .ite (fun _ => .pure _) fun _ => .pure _

/-- Listing elements keeps what is kept at each of them. -/
theorem elements (base : TypedData) (length : Nat) : Keeps I (Visualizer.elements base length) :=
  .mapM (fun _ => (F.arrayElement base _).bind fun _ => F.named _ _) _

/-- A field that must be there keeps what a frame keeps, whether it is found or not. -/
theorem requiredField (data : TypedData) (name : String) :
    Keeps I (Visualizer.requiredField data name).run := by
  refine (F.field data name).look.bindExcept fun field => ?_
  exact .iteExcept (fun _ => (Keeps.error _).bindExcept fun _ => .ok _) fun _ => .ok _

/-! ### Texts -/

/-- Reading a text of a given length keeps what a frame keeps, also where it is refused. -/
theorem textAt (address length : UInt64) : Keeps I (Visualizer.textAt address length).run := by
  refine .iteExcept (fun _ => .ok _) fun _ => ?_
  -- what is read when the address is not refused
  have body : Keeps I (do
      let bytes ← look (Memory.readBytes address
        (UInt32.ofNat (min length.toNat Visualizer.maxTextBytes)))
      if bytes.length < min length.toNat Visualizer.maxTextBytes then throw (.unreadable address)
      let text := Text.Utf8.decodeLossy bytes
      return if min length.toNat Visualizer.maxTextBytes < length.toNat then text ++ "..." else text :
      VisualM σ String).run := by
    refine (F.readBytes address _).look.bindExcept fun bytes => ?_
    exact .iteExcept (fun _ => (Keeps.error _).bindExcept fun _ => .ok _) fun _ => .ok _
  exact .iteExcept (fun _ => (Keeps.error _).bindExcept fun _ => body) fun _ => body

/-- Reading a terminated text keeps what a frame keeps. -/
theorem terminatedTextAt (address : UInt64) :
    Keeps I (Visualizer.terminatedTextAt address).run := by
  refine (F.readCBytes? address _).look.bindExcept fun raw => ?_
  split
  · exact .error _
  · exact .ok _

/-- Reading the text of a view keeps what a frame keeps. -/
theorem viewText (data : TypedData) : Keeps I (Visualizer.viewText data).run := by
  refine (F.requiredField data _).bindExcept fun length => ?_
  refine (F.field data _).look.bindExcept fun pointer => ?_
  exact (F.readPointer _).look.bindExcept fun address => F.textAt address length.word

/-- Reading the text of an owned string keeps what a frame keeps. -/
theorem ownedText (data : TypedData) : Keeps I (Visualizer.ownedText data).run := by
  refine (F.fieldNames data).look.bindExcept fun names => ?_
  split
  · refine (F.field data _).look.bindExcept fun vector => ?_
    refine (F.requiredField vector _).bindExcept fun length => ?_
    refine (F.requiredField vector _).bindExcept fun buffer => ?_
    exact (F.readPointer _).look.bindExcept fun address => F.textAt address length.word
  · exact .error _

/-- Rendering a text keeps what a frame keeps, for a view or an owned string. -/
theorem renderText (v : NamedValue) : Keeps I (Visualizer.renderText v).run := by
  unfold Visualizer.renderText
  split
  · exact .error _
  · refine (F.dereference v.data).look.bindExcept fun bytes => ?_
    have body := (F.terminatedTextAt bytes.offset).bindExcept
      fun text => Keeps.ok (ε := VisualizeError) (I := I) (Visualizer.quoted text)
    exact .iteExcept (fun _ => (Keeps.error _).bindExcept fun _ => body) fun _ => body
  · exact (F.viewText v.data).bindExcept fun _ => .ok _
  · exact (F.ownedText v.data).bindExcept fun _ => .ok _

/-! ### Sequences -/

/-- Searching for a pointer keeps what a frame keeps, at any depth. -/
theorem findPointer? (depth : Nat) (data : TypedData) :
    Keeps I (Visualizer.findPointer? depth data) := by
  induction depth generalizing data with
  | zero => exact .pure _
  | succ depth ih =>
    refine .ite (fun _ => .pure _) fun _ => .ite (fun _ => .pure _) fun _ => ?_
    refine (F.fieldNames data).bind fun names => ?_
    split
    · exact .pure _
    · exact (F.field data _).bind fun field => ih field

/-- Listing the elements of a vector keeps what a frame keeps. -/
theorem vectorElements (v : NamedValue) : Keeps I (Visualizer.vectorElements v).run := by
  refine (F.requiredField v.data _).bindExcept fun length => ?_
  refine (F.requiredField v.data _).bindExcept fun buffer => ?_
  refine (F.findPointer? _ buffer).look.bindExcept fun pointer => ?_
  split
  · exact .error _
  · exact (F.elements _ _).look

/-- Listing the elements of a slice keeps what a frame keeps. -/
theorem sliceElements (v : NamedValue) : Keeps I (Visualizer.sliceElements v).run := by
  refine (F.requiredField v.data _).bindExcept fun length => ?_
  refine (F.requiredField v.data _).bindExcept fun pointer => ?_
  exact (F.elements pointer _).look

/-! ### Enums -/

/-- Reading a discriminant keeps what a frame keeps. -/
theorem discriminant (data : TypedData) : Keeps I (Visualizer.discriminant data).run := by
  refine (F.readBytes data.offset 1).look.bindExcept fun bytes => ?_
  split
  · exact .error _
  · exact .ok _

/-- Rendering a tagged value keeps what a frame keeps. -/
theorem renderTagged (v : NamedValue) : Keeps I (Visualizer.renderTagged v).run := by
  refine (F.fieldNames v.data).look.bindExcept fun names => ?_
  split
  · refine (F.field v.data _).look.bindExcept fun marker => ?_
    refine (F.typeDefinition marker).look.bindExcept fun definition => ?_
    refine (F.discriminant v.data).bindExcept fun d => ?_
    split
    · exact .ok _
    · exact .ok _
  · exact .error _

/-- Listing the fields of the chosen variant keeps what a frame keeps. -/
theorem taggedChildren (v : NamedValue) : Keeps I (Visualizer.taggedChildren v).run := by
  refine (F.discriminant v.data).bindExcept fun d => Keeps.look ?_
  refine (F.fieldNames v.data).bind fun names => .mapM (fun name => ?_) _
  exact (F.field v.data name).bind fun field => F.named name field

/-- Looking for a payload keeps what a frame keeps. -/
theorem hasPayload (data : TypedData) :
    Keeps I (Visualizer.trailingPointerRule.hasPayload data).run := by
  refine Keeps.get.look.bindExcept fun mem => ?_
  -- the rest, when the value is large enough for a pointer
  have body : Keeps I (do
      let word ← look (Memory.readBytes
        (data.offset + (data.size - mem.pointerSize.toUInt32).toUInt64) mem.pointerSize.toUInt32)
      if word.length < mem.pointerSize.toUInt32.toNat then
        throw (.unreadable (data.offset + (data.size - mem.pointerSize.toUInt32).toUInt64))
      return word.any (· != 0) : VisualM σ Bool).run := by
    refine (F.readBytes _ _).look.bindExcept fun word => ?_
    exact .iteExcept (fun _ => (Keeps.error _).bindExcept fun _ => .ok _) fun _ => .ok _
  exact .iteExcept (fun _ => (Keeps.error _).bindExcept fun _ => body) fun _ => body

/-- Rendering a value with an encoded tag keeps what a frame keeps. -/
theorem renderEncoded (v : NamedValue) :
    Keeps I (Visualizer.renderEncoded Visualizer.trailingPointerRule v).run := by
  refine (F.typeDefinition v.data).look.bindExcept fun definition => ?_
  split
  · exact (F.hasPayload v.data).bindExcept fun payload => .ok _
  · exact .error _

/-- Listing the fields of a value with an encoded tag keeps what a frame keeps. -/
theorem encodedChildren (v : NamedValue) :
    Keeps I (Visualizer.encodedChildren Visualizer.trailingPointerRule v).run := by
  refine (F.hasPayload v.data).bindExcept fun payload => ?_
  refine .iteExcept (fun _ => .ok _) fun _ => ?_
  refine (F.fields v.data).look.bindExcept fun fields => ?_
  split
  · exact .error _
  · refine .iteExcept (fun _ => ?_) fun _ => ?_
    · refine (F.dereference _).look.bindExcept fun pointee => ?_
      exact (F.named _ _).look.bindExcept fun _ => .ok _
    · exact (F.named _ _).look.bindExcept fun _ => .ok _

/-! ### The structure of a value -/

/-- Rendering a value by its structure keeps what a frame keeps. -/
theorem renderStructure (v : NamedValue) : Keeps I (Visualizer.renderStructure v).run := by
  refine .iteExcept (fun _ => (Keeps.error _).bindExcept fun _ => ?_) fun _ => ?_
  all_goals
    split
    · exact .ok _
    · exact (F.arrayLength v.data).look.bindExcept fun _ => .ok _
    · refine (F.fieldNames v.data).look.bindExcept fun names => ?_
      exact (F.shortValue v.data).look.bindExcept fun _ => .ok _

/-- Listing the children by the structure keeps what a frame keeps, for pointers, arrays and records. -/
theorem structureChildren (v : NamedValue) : Keeps I (Visualizer.structureChildren v).run := by
  unfold Visualizer.structureChildren
  split
  · refine .iteExcept (fun _ => .ok _) fun _ => ?_
    refine (F.dereference v.data).look.bindExcept fun inner => ?_
    have body := (F.named "inner" inner).look.bindExcept
      fun child => Keeps.ok (ε := VisualizeError) (I := I) [child]
    exact .iteExcept (fun _ => (Keeps.error _).bindExcept fun _ => body) fun _ => body
  · exact ((F.arrayLength v.data).bind fun length => F.elements v.data length).look
  · refine Keeps.look ((F.fields v.data).bind fun fields => .mapM (fun field => ?_) fields)
    exact F.named field.1 field.2

/-! ## Visualizers -/

/-- A visualizer that keeps what the calls for memory and types keep. -/
structure Keeping (I : Memory σ → Prop) (z : Visualizer σ) : Prop where
  accepts : ∀ v, Keeps I (z.accepts v)
  render : ∀ v, Keeps I (z.render v).run
  children : ∀ v, Keeps I (z.children v).run

/-- Each of the known visualizers keeps what a frame keeps. -/
theorem keeping_known : ∀ z ∈ VisualizerRegistry.known, Keeping I z := by
  intro z hz
  simp only [VisualizerRegistry.known, List.mem_cons, List.not_mem_nil, or_false] at hz
  -- in the order of the registry: texts, terminated texts, vectors, slices, tagged and encoded values
  rcases hz with rfl | rfl | rfl | rfl | rfl | rfl
  · exact ⟨fun _ => .pure _, F.renderText, fun _ => .ok _⟩
  · refine ⟨fun _ => .pure _, fun v => ?_, fun _ => .ok _⟩
    exact (F.terminatedTextAt v.data.offset).bindExcept fun _ => .ok _
  · refine ⟨fun _ => .pure _, fun v => ?_, F.vectorElements⟩
    exact (F.requiredField v.data _).bindExcept fun _ => .ok _
  · refine ⟨fun _ => .pure _, fun v => ?_, F.sliceElements⟩
    exact (F.requiredField v.data _).bindExcept fun _ => .ok _
  · exact ⟨fun v => (F.fieldNames v.data).bind fun _ => .pure _, F.renderTagged, F.taggedChildren⟩
  · exact ⟨fun v => (F.fieldNames v.data).bind fun _ => .pure _, F.renderEncoded, F.encodedChildren⟩

/-- The visualizer of last resort keeps what a frame keeps. -/
theorem keeping_structural : Keeping I Visualizer.structural :=
  ⟨fun _ => .pure _, F.renderStructure, F.structureChildren⟩

omit [DataSpaces σ] F in
/-- Attempting keeps what is kept where the attempt fails as well. -/
private theorem keeps_attempt {α : Type} {m : VisualM σ α} (hm : Keeps I m.run) :
    Keeps I (VisualizerRegistry.attempt m) :=
  hm.bind fun _ => .pure _

omit [DataSpaces σ] F in
/-- Asking visualizers in turn keeps what each of them keeps, and finds one of them. -/
private theorem firstAccepting?_of_keeping (v : NamedValue) (l : List (Visualizer σ))
    (hl : ∀ z ∈ l, Keeping I z) :
    Ensures I (VisualizerRegistry.firstAccepting? v l) fun found mem =>
      I mem ∧ ∀ z, found = some z → Keeping I z := by
  induction l with
  | nil => exact .pure fun mem h => ⟨h, by simp⟩
  | cons z rest ih =>
    have hz := hl z List.mem_cons_self
    refine (Ensures.of_keeps (hz.accepts v)).bind fun accepted => ?_
    cases accepted with
    | true => exact .pure fun mem h => ⟨h, fun _ e => Option.some.inj e ▸ hz⟩
    | false => exact ih fun z' hz' => hl z' (List.mem_cons_of_mem _ hz')

/-- Rendering by the structure keeps what a frame keeps. -/
private theorem resolveDefault (v : NamedValue) :
    Keeps I (VisualizerRegistry.standard.resolveDefault v) :=
  (keeps_attempt (F.keeping_structural.render v)).bind fun _ => .pure _

/-- Resolving a value keeps what a frame keeps, whichever visualizer accepts it. -/
theorem resolve (v : NamedValue) : Keeps I (VisualizerRegistry.standard.resolve v) := by
  refine Keeps.of_ensures ((firstAccepting?_of_keeping v _ F.keeping_known).bind fun found => ?_)
  intro mem hmem
  cases found with
  | none => exact F.resolveDefault v mem hmem.1
  | some z =>
    have hz := hmem.2 z rfl
    refine (keeps_attempt (hz.render v)).bind (fun rendering => ?_) mem hmem.1
    cases rendering with
    | none => exact F.resolveDefault v
    | some rendering => exact .pure _

/-- Listing the children of a value keeps what a frame keeps, whichever visualizer accepts it. -/
theorem children (v : NamedValue) : Keeps I (VisualizerRegistry.standard.children v) := by
  refine Keeps.of_ensures ((firstAccepting?_of_keeping v _ F.keeping_known).bind fun found => ?_)
  intro mem hmem
  have hz : Keeping I (found.getD Visualizer.structural) := by
    cases found with
    | none => exact F.keeping_structural
    | some z => exact hmem.2 z rfl
  exact ((keeps_attempt (hz.children v)).bind fun _ => .pure _) mem hmem.1

end Memory.ReadFrame

end DebugAdapter
