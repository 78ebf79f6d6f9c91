import DebugAdapter.Proofs.SteadyRendering
import DebugAdapter.Proofs.ScriptedSteady

/-!
# Expanding a value that its visualizer cannot show

If the first visualizer that accepts a value cannot show it, the structure of the value is shown
instead. Expanding the value asks that visualizer all the same: there is no falling back to the
structure. So what is shown as expandable may have no children.

Which children there are is settled. A visualizer that cannot show a value does not find its children
either, for it needs the same parts of the value for both. Only a niche-encoded enum is shown by the
definition of its type as well: if that names no variants, an active payload is still listed.

## Key results

- `ReadsSame.expansion_of_failed_render`: what is shown, and what is listed, if the visualizer that
  accepts a value cannot show it
-/

namespace DebugAdapter

/-! ## Work that always fails, and work that never does -/

section

variable {S α β ε : Type} {P U : S → Prop}
  {m : ExceptT ε (StateM S) α} {k : α → ExceptT ε (StateM S) β}

/-- From states with `U` the work fails, and leads to states with `U`. -/
def Fails (U : S → Prop) (m : ExceptT ε (StateM S) α) : Prop :=
  Ensures U m.run fun r s => r.isOk = false ∧ U s

/-- From states with `U` the work succeeds, and leads to states with `U`. -/
def Succeeds (U : S → Prop) (m : ExceptT ε (StateM S) α) : Prop :=
  Ensures U m.run fun r s => r.isOk = true ∧ U s

/-- What follows a failure is not done. -/
theorem Fails.bind (hm : Fails U m) : Fails U (m >>= k) :=
  Ensures.bindExcept hm (fun _ _ hs => Bool.noConfusion hs.1) fun _ _ hs => ⟨rfl, hs.2⟩

/-- What only returns a value succeeds. -/
theorem Succeeds.pure (a : α) : Succeeds U (Pure.pure a : ExceptT ε (StateM S) α) :=
  fun _ hs => ⟨rfl, hs⟩

/-- What succeeds can be followed by what succeeds whatever it is given. -/
theorem Succeeds.bind (hm : Succeeds U m) (hk : ∀ a, Succeeds U (k a)) : Succeeds U (m >>= k) := by
  refine Ensures.bindExcept hm (fun a s hs => hk a s hs.2) ?_
  intro e s hs
  exact Bool.noConfusion hs.1

/-- What is settled either always fails or never does. -/
theorem Settles.fails_or_succeeds (hm : Settles U id m.run) : Fails U m ∨ Succeeds U m := by
  obtain ⟨r, hr⟩ := hm
  have given : ∀ s, U s → (m.run.run s).1 = r := fun s hs => (hr s hs).1
  cases r with
  | error e => exact .inl fun s hs => ⟨by rw [given s hs]; rfl, (hr s hs).2⟩
  | ok a => exact .inr fun s hs => ⟨by rw [given s hs]; rfl, (hr s hs).2⟩

end

variable {σ : Type} [DataSpaces σ]

omit [DataSpaces σ] in
/-- A look at the engine always gives a value. -/
theorem Succeeds.look {α : Type} {U : Memory σ → Prop} {m : MemoryM σ α} (hm : Keeps U m) :
    Succeeds U (look m) :=
  fun mem hmem => ⟨rfl, hm mem hmem⟩

omit [DataSpaces σ] in
/-- A decoding that fails has no result. -/
theorem Fails.attempt {α : Type} {U : Memory σ → Prop} {m : VisualM σ α} (h : Fails U m) :
    Ensures U (VisualizerRegistry.attempt m) fun a mem => a = none ∧ U mem := by
  refine Ensures.bind h fun r => .pure fun mem hmem => ⟨?_, hmem.2⟩
  cases r with
  | error e => rfl
  | ok a => exact Bool.noConfusion hmem.1

omit [DataSpaces σ] in
/-- A look at memory does not fail. -/
theorem Ensures.bindLook {α β : Type} {U : Memory σ → Prop} {m : MemoryM σ α} {k : α → VisualM σ β}
    {R : α → Memory σ → Prop} {Q : Except VisualizeError β → Memory σ → Prop} (hm : Ensures U m R)
    (hk : ∀ a, Ensures (R a) (k a).run Q) : Ensures U (DebugAdapter.look m >>= k).run Q :=
  fun mem hmem => hk _ _ (hm mem hmem)

omit [DataSpaces σ] in
/-- What follows a look need only be checked for the one value that the look finds. -/
theorem Ensures.bindLookEq {α β : Type} {P U : Memory σ → Prop} {m : MemoryM σ α}
    {k : α → VisualM σ β} {a : α} {Q : Except VisualizeError β → Memory σ → Prop}
    (hm : Ensures P m fun a' mem => a' = a ∧ U mem) (hk : Ensures U (k a).run Q) :
    Ensures P (DebugAdapter.look m >>= k).run Q :=
  hm.bindEq hk

/-- The names of the children that a decoding gives, none if it fails. -/
def childNames (r : Except VisualizeError (List NamedValue)) : List String :=
  (r.toOption.getD []).map (·.name)

omit [DataSpaces σ] in
/-- A decoding that fails lists nothing. -/
theorem Fails.childNames_eq_nil {U : Memory σ → Prop} {m : VisualM σ (List NamedValue)}
    (h : Fails U m) : Ensures U m.run fun r mem => childNames r = [] ∧ U mem := by
  refine Ensures.mono h (fun _ hmem => hmem) fun r mem hr => ⟨?_, hr.2⟩
  cases r with
  | error e => rfl
  | ok children => exact Bool.noConfusion hr.1

/-- The names of the children of a value that the visualizer cannot show: that of an active payload of a
niche-encoded enum, and else none. -/
def Visualizer.namesUnshown (z : Visualizer σ) (v : NamedValue) (mem : Memory σ) : List String :=
  if z.name = "encoded-enum" ∧
    ((Visualizer.trailingPointerRule.hasPayload v.data).run.run mem).1.toOption = some true
  then ["inner"] else []

/-! ## Records -/

namespace Memory

/-- Putting a field into a record leaves it with at least that field. -/
theorem putField_ne_nil (fields : List (String × TypedData)) (name : String) (data : TypedData) :
    putField fields name data ≠ [] := by
  unfold putField
  split
  · next known => cases fields <;> simp at known ⊢
  · simp

/-- A record whose type has fields has fields. -/
theorem fields_ne_nil {pairs : List (String × TypedData)} (h : pairs ≠ []) :
    pairs.foldl (fun fields (name, data) => putField fields name data) [] ≠ [] := by
  rw [← List.dropLast_append_getLast h, List.foldl_append]
  exact putField_ne_nil _ _ _

end Memory

namespace ReadsSame

variable {P : σ → Prop} {size : UInt8} (same : ReadsSame P)
include same

/-- A value that is accepted for the name of one of its fields has a field. -/
theorem fieldNames_of_accepted {data : TypedData} {marks : String → Bool} {mem : Memory σ}
    (here : Memory.In P size mem)
    (accepted : Ensures (Memory.In P size) (do return (← Memory.fieldNames data).any marks)
      fun a mem => a = true ∧ Memory.In P size mem) :
    ∃ first rest, Ensures (Memory.In P size) (Memory.fieldNames data) fun names mem =>
      names = first :: rest ∧ Memory.In P size mem := by
  obtain ⟨names, named⟩ : Settles (Memory.In P size) id (Memory.fieldNames data) :=
    same.fieldNames data
  -- names are settled, and no mark is found among no names
  have marked : names.any marks = true := by
    have given : ((Memory.fieldNames data).run mem).1 = names := (named mem here).1
    rw [← given]
    exact (accepted mem here).1
  cases names with
  | nil => simp at marked
  | cons first rest => exact ⟨first, rest, named⟩

/-- A record with a field name has a field. -/
theorem fields_of_named {data : TypedData} {first : String} {rest : List String}
    {mem : Memory σ} (here : Memory.In P size mem)
    (named : Ensures (Memory.In P size) (Memory.fieldNames data) fun names mem =>
      names = first :: rest ∧ Memory.In P size mem) :
    ∃ field others, Ensures (Memory.In P size) (Memory.fields data) fun fields mem =>
      fields = field :: others ∧ Memory.In P size mem := by
  have reads : ∀ name, Keeps (Memory.In P size) (do return (name, ← Memory.field data name)) :=
    fun name => (same.readFrame.field data name).bind fun _ => .pure _
  have pairs : Ensures (Memory.In P size)
      ((first :: rest).mapM fun name => do return (name, ← Memory.field data name))
      fun pairs _ => pairs ≠ [] := by
    rw [List.mapM_cons]
    refine (Ensures.of_keeps (reads first)).bind fun pair => ?_
    refine (Ensures.of_keeps (Keeps.mapM reads rest)).bind fun others => ?_
    exact .pure fun _ _ => List.cons_ne_nil pair others
  -- a field is read for each name, and put into the record
  have some : Ensures (Memory.In P size) (Memory.fields data) fun fields _ => fields ≠ [] :=
    named.bindEq (pairs.bind fun pairs => .pure fun _ h => Memory.fields_ne_nil h)
  obtain ⟨fields, listed⟩ : Settles (Memory.In P size) id (Memory.fields data) := same.fields data
  have given : ((Memory.fields data).run mem).1 = fields := (listed mem here).1
  cases fields with
  | nil => exact absurd given (some mem here)
  | cons field others => exact ⟨field, others, listed⟩

/-! ## What a visualizer lists that cannot show a value -/

/-- A vector without length has no elements. -/
private theorem vector_lists {v : NamedValue}
    (failed : ¬ Succeeds (Memory.In P size) (Visualizer.vector.render v)) :
    Fails (Memory.In P size) (Visualizer.vector.children v) := by
  rcases (same.requiredField v.data "len").fails_or_succeeds with fails | succeeds
  · exact fails.bind
  · exact absurd (succeeds.bind fun length => .pure _) failed

/-- A slice without length has no elements. -/
private theorem slice_lists {v : NamedValue}
    (failed : ¬ Succeeds (Memory.In P size) (Visualizer.slice.render v)) :
    Fails (Memory.In P size) (Visualizer.slice.children v) := by
  rcases (same.requiredField v.data "length").fails_or_succeeds with fails | succeeds
  · exact fails.bind
  · exact absurd (succeeds.bind fun length => .pure _) failed

/-- A tagged enum with a marker is shown if its discriminant can be read. -/
private theorem tagged_lists {v : NamedValue} {first : String} {rest : List String}
    (named : Ensures (Memory.In P size) (Memory.fieldNames v.data) fun names mem =>
      names = first :: rest ∧ Memory.In P size mem)
    (failed : ¬ Succeeds (Memory.In P size) (Visualizer.taggedEnum.render v)) :
    Fails (Memory.In P size) (Visualizer.taggedEnum.children v) := by
  rcases (same.discriminant v.data).fails_or_succeeds with fails | succeeds
  · exact fails.bind
  · have shown : Succeeds (Memory.In P size) (Visualizer.taggedEnum.render v) := by
      -- with a first field and a discriminant, nothing else can fail
      refine Ensures.bindLookEq named ?_
      refine Succeeds.bind (.look (same.readFrame.field v.data first)) fun marker => ?_
      refine Succeeds.bind (.look (same.readFrame.typeDefinition marker)) fun definition => ?_
      refine succeeds.bind fun d => ?_
      split
      · exact .pure _
      · exact .pure _
    exact absurd shown failed

/-- A niche-encoded enum has one child if its payload is active, and else none. -/
theorem encoded_lists {v : NamedValue} {first : String} {rest : List String} {mem : Memory σ}
    (here : Memory.In P size mem)
    (named : Ensures (Memory.In P size) (Memory.fieldNames v.data) fun names mem =>
      names = first :: rest ∧ Memory.In P size mem) :
    Ensures (Memory.In P size)
      ((Visualizer.encodedEnum Visualizer.trailingPointerRule).children v).run fun r mem' =>
        childNames r = (if ((Visualizer.trailingPointerRule.hasPayload v.data).run.run mem).1.toOption =
          some true then ["inner"] else []) ∧ Memory.In P size mem' := by
  obtain ⟨payload, read⟩ : Settles (Memory.In P size) id
    (Visualizer.trailingPointerRule.hasPayload v.data).run := same.hasPayload v.data
  have given : ((Visualizer.trailingPointerRule.hasPayload v.data).run.run mem).1 = payload :=
    (read mem here).1
  rw [given]
  -- a visualizer that cannot tell whether there is a payload lists nothing
  cases payload with
  | error e =>
    have fails : Fails (Memory.In P size) (Visualizer.trailingPointerRule.hasPayload v.data) :=
      read.mono (fun _ h => h) fun r s h => ⟨by rw [show r = _ from h.1]; rfl, h.2⟩
    exact (fails.bind).childNames_eq_nil
  | ok active =>
    refine Ensures.bindOk read ?_
    cases active with
    | false => exact .pure fun mem hmem => ⟨rfl, hmem⟩
    | true =>
      -- whatever the payload is read from, it is listed as one child
      have single : ∀ data, Ensures (Memory.In P size)
          (do return [← look (Memory.named "inner" data)] : VisualM σ (List NamedValue)).run
          fun r mem => childNames r = ["inner"] ∧ Memory.In P size mem :=
        fun data mem hmem => ⟨rfl, same.readFrame.named "inner" data mem hmem⟩
      refine Ensures.iteExcept (fun unread => absurd unread Bool.false_ne_true) fun _ => ?_
      obtain ⟨field, others, listed⟩ := same.fields_of_named here named
      refine Ensures.bindLookEq listed ?_
      -- the payload stands in the first field, or behind the pointer that is there
      refine Ensures.iteExcept (fun _ => ?_) fun _ => single _
      have reads : Keeps (Memory.In P size) (Memory.dereference field.2) :=
        same.readFrame.dereference field.2
      exact Ensures.bindLook (Ensures.of_keeps reads) fun pointee => single _

/-- What a visualizer lists that accepts a value, and cannot show it. -/
private theorem lists_unshown {z : Visualizer σ} (hz : z ∈ VisualizerRegistry.known) {v : NamedValue}
    {mem : Memory σ} (here : Memory.In P size mem)
    (accepted : Ensures (Memory.In P size) (z.accepts v) fun a mem => a = true ∧ Memory.In P size mem)
    (failed : ¬ Succeeds (Memory.In P size) (z.render v)) :
    Ensures (Memory.In P size) (z.children v).run fun r mem' =>
      childNames r = z.namesUnshown v mem ∧ Memory.In P size mem' := by
  have other : z.name ≠ "encoded-enum" → z.namesUnshown v mem = [] := by
    intro other
    rw [Visualizer.namesUnshown, if_neg fun h => other h.1]
  simp only [VisualizerRegistry.known, List.mem_cons, List.not_mem_nil, or_false] at hz
  rcases hz with rfl | rfl | rfl | rfl | rfl | rfl
  · -- texts have no children
    rw [other (by decide : "string" ≠ "encoded-enum")]
    exact fun mem hmem => ⟨rfl, hmem⟩
  · rw [other (by decide : "wtf8" ≠ "encoded-enum")]
    exact fun mem hmem => ⟨rfl, hmem⟩
  · -- a sequence that cannot be shown cannot be listed either
    rw [other (by decide : "vec" ≠ "encoded-enum")]
    exact (same.vector_lists failed).childNames_eq_nil
  · rw [other (by decide : "slice" ≠ "encoded-enum")]
    exact (same.slice_lists failed).childNames_eq_nil
  · rw [other (by decide : "tagged-enum" ≠ "encoded-enum")]
    obtain ⟨first, rest, named⟩ := same.fieldNames_of_accepted here accepted
    exact (same.tagged_lists named failed).childNames_eq_nil
  · obtain ⟨first, rest, named⟩ := same.fieldNames_of_accepted here accepted
    have lists := same.encoded_lists here named
    simpa [Visualizer.namesUnshown, Visualizer.encodedEnum] using lists

/-- If the first visualizer that accepts a value cannot show it, the value is shown by its structure, but
what is listed is up to that visualizer: nothing, unless the value is a niche-encoded enum whose payload
is active. -/
theorem expansion_of_failed_render {v : NamedValue} {z : Visualizer σ} {mem : Memory σ}
    (here : Memory.In P size mem)
    (found : ((VisualizerRegistry.standard.find? v).run mem).1 = some z)
    (failed : ((z.render v).run.run mem).1.isOk = false) :
    Ensures (Memory.In P size) (VisualizerRegistry.standard.resolve v) (fun shown mem' =>
        shown = ((VisualizerRegistry.standard.resolveDefault v).run mem).1 ∧ Memory.In P size mem') ∧
      Ensures (Memory.In P size) (VisualizerRegistry.standard.children v) (fun children mem' =>
        children.map (·.name) = z.namesUnshown v mem ∧ Memory.In P size mem') := by
  obtain ⟨z?, finds, known⟩ : ∃ z?, Ensures (Memory.In P size) (VisualizerRegistry.standard.find? v)
      (fun found mem => found = z? ∧ Memory.In P size mem) ∧ _ := same.settles_find? v
  obtain rfl : z? = some z := (finds mem here).1.symm.trans found
  obtain ⟨hz, accepted⟩ := known z rfl
  -- what is settled fails always if it fails once
  have unshown : ¬ Succeeds (Memory.In P size) (z.render v) := fun succeeds => by
    rw [(succeeds mem here).1] at failed
    exact Bool.noConfusion failed
  have fails : Fails (Memory.In P size) (z.render v) :=
    (same.settles_render z hz v).fails_or_succeeds.resolve_right unshown
  constructor
  · -- the default is shown in the place of what failed
    obtain ⟨shown, falls⟩ : Settles (Memory.In P size) id (VisualizerRegistry.standard.resolveDefault v) :=
      same.resolveDefault v
    have given : ((VisualizerRegistry.standard.resolveDefault v).run mem).1 = shown := (falls mem here).1
    rw [given]
    exact finds.bindEq (fails.attempt.bindEq falls)
  · -- the children are asked of the visualizer that failed, not of the default
    have listed : Ensures (Memory.In P size) (VisualizerRegistry.attempt (z.children v)) fun r mem' =>
        (r.getD []).map (·.name) = z.namesUnshown v mem ∧ Memory.In P size mem' :=
      Ensures.bind (same.lists_unshown hz here accepted unshown) fun r => .pure fun mem h => h
    exact finds.bindEq (listed.bind fun children => .pure fun mem h => h)

end ReadsSame

/-! ### A vector of strings

The name of its type has the name of strings in it, so it is taken for a string. -/

namespace Scripted

/-- A world with a vector of strings, of one string. -/
def stringVectorWorld : World where
  types := [
    (1, { name := some "alloc::vec::Vec<alloc::string::String>", size := 16, tag := some .record,
          text := some "struct Vec"
          fields := [("buf", { typeId := 90 }), ("len", { typeId := 91, displacement := 8 })] }),
    (90, { name := some "u8 *", size := 8, tag := some .pointer }),
    (91, { name := some "u64", size := 8, tag := some .base })]
  memory := [⟨0x100, #[0, 0x50, 0, 0, 0, 0, 0, 0, 1, 0, 0, 0, 0, 0, 0, 0]⟩]

/-- The vector. -/
def stringVector : NamedValue where
  name := "v"
  typeName := "alloc::vec::Vec<alloc::string::String>"
  data := ⟨0x140000000, 0x100, 1, 16, .record, 0⟩

/-- The memory of that world. -/
def stringVectorMemory : Memory World where
  engine := stringVectorWorld

/-- The name of the element type is enough for the text visualizer to accept the vector. -/
private theorem find?_stringVector :
    ((VisualizerRegistry.standard.find? stringVector).run stringVectorMemory).1 =
      some Visualizer.string := by
  have accepted : (Visualizer.TextLayout.ofTypeName? stringVector.typeName).isSome = true := by
    decide +kernel
  simp only [VisualizerRegistry.find?, VisualizerRegistry.standard, VisualizerRegistry.known,
    VisualizerRegistry.firstAccepting?, Visualizer.string, accepted]
  rfl

/-- The vector has no field that holds the text, so the text cannot be shown. -/
private theorem render_stringVector_failed :
    ((Visualizer.string.render stringVector).run.run stringVectorMemory).1.isOk = false := by
  decide +kernel

/-- It is shown with its text, as expandable, and nothing is listed. -/
theorem expansion_stringVector :
    ((VisualizerRegistry.standard.resolve stringVector).run stringVectorMemory).1 = ⟨"struct Vec", true⟩ ∧
      ((VisualizerRegistry.standard.children stringVector).run stringVectorMemory).1 = [] := by
  have here : Memory.In (World.At stringVectorWorld.essence) 8 stringVectorMemory :=
    ⟨World.at_essence _, rfl⟩
  have same : ReadsSame (World.At stringVectorWorld.essence) := World.steady.readsSame _
  have expansion := same.expansion_of_failed_render here find?_stringVector render_stringVector_failed
  have text : ((VisualizerRegistry.standard.resolveDefault stringVector).run stringVectorMemory).1 =
      ⟨"struct Vec", true⟩ := by decide +kernel
  have shown := (expansion.1 _ here).1
  have listed := (expansion.2 _ here).1
  rw [Visualizer.namesUnshown, if_neg (by decide)] at listed
  exact ⟨shown.trans text, List.map_eq_nil_iff.mp listed⟩

/-- The structure that is shown has two children, and none of them is listed. -/
theorem stringVector_unlisted :
    (∃ z, ((VisualizerRegistry.standard.find? stringVector).run stringVectorMemory).1 = some z ∧
        ((z.render stringVector).run.run stringVectorMemory).1.isOk = false) ∧
      ((VisualizerRegistry.standard.resolve stringVector).run stringVectorMemory).1.hasChildren = true ∧
      childNames ((Visualizer.structural.children stringVector).run.run stringVectorMemory).1 =
        ["buf", "len"] ∧
      ((VisualizerRegistry.standard.children stringVector).run stringVectorMemory).1 = [] := by
  refine ⟨⟨_, find?_stringVector, render_stringVector_failed⟩, ?_, ?_, ?_⟩
  all_goals decide +kernel

end Scripted

end DebugAdapter
