import DebugAdapter.Proofs.SteadyDecoding

/-!
# Rendering what does not change

As long as an engine gives the same answers, a value is shown the same way: no rendering rests on the
type names remembered. This holds of each visualizer, and so of the registry, which tries one visualizer
and falls back to another.

## Key results

- `ReadsSame.settles_render`: each visualizer shows a value the same way, or always fails
- `ReadsSame.resolve`: a value is shown the same way by the registry
-/

namespace DebugAdapter

/-- After work with a known result the rest starts from that result. -/
theorem Ensures.bindEq {S α β : Type} {P U : S → Prop} {m : StateM S α}
    {f : α → StateM S β} {a : α} {Q : β → S → Prop}
    (hm : Ensures P m fun a' s => a' = a ∧ U s) (hf : Ensures U (f a) Q) : Ensures P (m >>= f) Q := by
  refine hm.bind fun a' s hs => ?_
  obtain rfl : a' = a := hs.1
  exact hf s hs.2

/-- After a step that is known to succeed with a result the rest starts from that result. -/
theorem Ensures.bindOk {S α β ε : Type} {P U : S → Prop} {m : ExceptT ε (StateM S) α}
    {k : α → ExceptT ε (StateM S) β} {a : α} {Q : Except ε β → S → Prop}
    (hm : Ensures P m.run fun r s => r = .ok a ∧ U s) (hk : Ensures U (k a).run Q) :
    Ensures P (m >>= k).run Q := by
  rw [ExceptT.run_bind]
  exact hm.bindEq hk

variable {σ : Type} [DataSpaces σ]

namespace ReadsSame

variable {P : σ → Prop} {size : UInt8} (same : ReadsSame P)
include same

/-! ## Memory -/

/-- The same bytes are read up to a terminator. -/
theorem readCBytes? (offset : UInt64) (maxLength : UInt32) :
    Settles (Memory.In P size) id (Memory.readCBytes? offset maxLength) :=
  same.ask (.readString offset maxLength)

/-- The same number is read. -/
theorem readUInt (offset : UInt64) (width : UInt8) :
    Settles (Memory.In P size) id (Memory.readUInt offset width) := by
  apply (same.readBytes offset (min width 8).toUInt32).bind
  intro bytes
  exact .ite (fun _ => .pure id _) fun _ => .pure id _

/-- The same pointer is read, since the size of pointers stays. -/
theorem readPointer (offset : UInt64) :
    Settles (Memory.In P size) id (Memory.readPointer offset) := by
  apply (same.readUInt offset size).bindGet
  intro mem hmem
  rw [hmem.2]

/-- A type definition leads to the same type. -/
theorem typeDefinition (data : TypedData) :
    Settles (Memory.In P size) id (Memory.typeDefinition data) :=
  .ite (fun _ => .pure id _) fun _ => (same.ask (.typedText _ data)).bind fun _ => .pure id _

/-- The short value is the same. -/
theorem shortValue (data : TypedData) : Settles (Memory.In P size) id (Memory.shortValue data) :=
  .ite (fun _ => .pure id _) fun _ => (same.ask (.typedText _ data)).bind fun _ => .pure id _

/-! ## Texts -/

/-- The same text of a given length is read, or the reading fails alike. -/
theorem textAt (address length : UInt64) :
    Settles (Memory.In P size) id (Visualizer.textAt address length).run := by
  -- what is read when the address is not refused
  have body : Settles (Memory.In P size) id (do
      let bytes ← look (Memory.readBytes address
        (UInt32.ofNat (min length.toNat Visualizer.maxTextBytes)))
      if bytes.length < min length.toNat Visualizer.maxTextBytes then throw (.unreadable address)
      let text := Text.Utf8.decodeLossy bytes
      return if min length.toNat Visualizer.maxTextBytes < length.toNat then text ++ "..." else text :
      VisualM σ String).run := by
    apply (same.readBytes address _).lookId.bindExcept
    intro bytes
    exact .iteExcept (fun _ => (Settles.error id _).bindExcept fun _ => .ok id _) fun _ => .ok id _
  apply Settles.iteExcept (fun _ => .ok id _)
  intro _
  exact .iteExcept (fun _ => (Settles.error id _).bindExcept fun _ => body) fun _ => body

/-- The same terminated text is read. -/
theorem terminatedTextAt (address : UInt64) :
    Settles (Memory.In P size) id (Visualizer.terminatedTextAt address).run := by
  apply (same.readCBytes? address _).lookId.bindExcept
  intro raw
  cases raw with
  | none => exact .error id _
  | some raw => exact .ok id _

/-- A view has the same text. -/
theorem viewText (data : TypedData) :
    Settles (Memory.In P size) id (Visualizer.viewText data).run := by
  apply (same.requiredField data _).bindExcept
  intro length
  apply (same.field data _).lookId.bindExcept
  intro pointer
  exact (same.readPointer _).lookId.bindExcept fun address => same.textAt address length.word

/-- An owned string has the same text. -/
theorem ownedText (data : TypedData) :
    Settles (Memory.In P size) id (Visualizer.ownedText data).run := by
  apply (same.fieldNames data).lookId.bindExcept
  intro names
  split
  · apply (same.field data _).lookId.bindExcept
    intro vector
    apply (same.requiredField vector _).bindExcept
    intro length
    apply (same.requiredField vector _).bindExcept
    intro buffer
    exact (same.readPointer _).lookId.bindExcept fun address => same.textAt address length.word
  · exact .error id _

/-- A text is rendered alike. -/
theorem renderText (v : NamedValue) :
    Settles (Memory.In P size) id (Visualizer.renderText v).run := by
  unfold Visualizer.renderText
  split
  · exact .error id _
  · apply (same.dereference v.data).lookId.bindExcept
    intro bytes
    have text : Settles (Memory.In P size) id (Visualizer.terminatedTextAt bytes.offset).run :=
      same.terminatedTextAt bytes.offset
    have body := text.bindExcept fun text => Settles.ok id (Visualizer.quoted text)
    exact .iteExcept (fun _ => (Settles.error id _).bindExcept fun _ => body) fun _ => body
  · exact (same.viewText v.data).bindExcept fun _ => .ok id _
  · exact (same.ownedText v.data).bindExcept fun _ => .ok id _

/-! ## Enums -/

/-- A tagged value is rendered alike. -/
theorem renderTagged (v : NamedValue) :
    Settles (Memory.In P size) id (Visualizer.renderTagged v).run := by
  apply (same.fieldNames v.data).lookId.bindExcept
  intro names
  split
  · apply (same.field v.data _).lookId.bindExcept
    intro marker
    apply (same.typeDefinition marker).lookId.bindExcept
    intro definition
    apply (same.discriminant v.data).bindExcept
    intro d
    split
    · exact .ok id _
    · exact .ok id _
  · exact .error id _

/-- A value with an encoded tag is rendered alike. -/
theorem renderEncoded (v : NamedValue) : Settles (Memory.In P size) id
    (Visualizer.renderEncoded Visualizer.trailingPointerRule v).run := by
  apply (same.typeDefinition v.data).lookId.bindExcept
  intro definition
  split
  · exact (same.hasPayload v.data).bindExcept fun payload => .ok id _
  · exact .error id _

/-! ## The structure of a value -/

/-- A value is rendered alike by its structure. -/
theorem renderStructure (v : NamedValue) :
    Settles (Memory.In P size) id (Visualizer.renderStructure v).run := by
  refine .iteExcept (fun _ => (Settles.error id _).bindExcept fun _ => ?_) fun _ => ?_
  all_goals
    split
    · exact .ok id _
    · exact (same.arrayLength v.data).lookId.bindExcept fun _ => .ok id _
    · apply (same.fieldNames v.data).lookId.bindExcept
      intro names
      exact (same.shortValue v.data).lookId.bindExcept fun _ => .ok id _

/-! ## Visualizers -/

/-- Each visualizer shows a value the same way, or always fails. -/
theorem settles_render : ∀ z ∈ VisualizerRegistry.known, ∀ v,
    Settles (Memory.In P size) id (z.render v).run := by
  intro z hz v
  simp only [VisualizerRegistry.known, List.mem_cons, List.not_mem_nil, or_false] at hz
  rcases hz with rfl | rfl | rfl | rfl | rfl | rfl
  · exact same.renderText v
  · exact (same.terminatedTextAt v.data.offset).bindExcept fun _ => .ok id _
  · exact (same.requiredField v.data _).bindExcept fun _ => .ok id _
  · exact (same.requiredField v.data _).bindExcept fun _ => .ok id _
  · exact same.renderTagged v
  · exact same.renderEncoded v

omit [DataSpaces σ] same in
/-- An attempt succeeds in all these states or in none, and with one result. -/
private theorem settles_attempt {α : Type} {m : VisualM σ α} (hm : Settles (Memory.In P size) id m.run) :
    Settles (Memory.In P size) id (VisualizerRegistry.attempt m) :=
  hm.bind fun _ => .pure id _

/-- The rendering of last resort is the same. -/
theorem resolveDefault (v : NamedValue) :
    Settles (Memory.In P size) id (VisualizerRegistry.standard.resolveDefault v) :=
  (settles_attempt (same.renderStructure v)).bind fun _ => .pure id _

/-- A value is shown the same way. -/
theorem resolve (v : NamedValue) :
    Settles (Memory.In P size) id (VisualizerRegistry.standard.resolve v) := by
  have fallback : Settles (Memory.In P size) id (VisualizerRegistry.standard.resolveDefault v) :=
    same.resolveDefault v
  obtain ⟨z?, found, known⟩ := same.settles_find? v
  -- the rendering is that of the first to accept, or of last resort if there is none or it fails
  cases z? with
  | none =>
    obtain ⟨rendering, shown⟩ := fallback
    exact ⟨rendering, found.bindEq shown⟩
  | some z =>
    obtain ⟨attempt, attempted⟩ := settles_attempt (same.settles_render z (known z rfl).1 v)
    cases attempt with
    | some rendering =>
      exact ⟨rendering, found.bindEq (attempted.bindEq (.pure fun mem hmem => ⟨rfl, hmem⟩))⟩
    | none =>
      obtain ⟨rendering, shown⟩ := fallback
      exact ⟨rendering, found.bindEq (attempted.bindEq shown)⟩

end ReadsSame

end DebugAdapter
