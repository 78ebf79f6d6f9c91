import DebugAdapter.Proofs.EngineViews
import DebugAdapter.Proofs.ScriptedFrame
import DebugAdapter.Proofs.ScriptedSteady

/-!
# The selection and the memory of scripted engines

A scripted engine keeps the thread and the frame that are selected, and the segments of its memory with the
newest first. A write puts a segment on top, which may be shorter than what was to be written.

## Key results

- `Scripted.World.selectionView_lawful`, `Scripted.World.memoryView_lawful`: the scripted engine meets what is
  taken for granted of its selection and of its memory
-/

namespace DebugAdapter.Scripted.World

/-- The selection of a scripted engine. -/
def selectionView : SelectionView World where
  thread := currentThread
  frame := frameIndex

/-- The memory of a scripted engine. -/
def memoryView : MemoryView World where
  bytes := byteAt?

/-! ## Calls that read -/

/-- A reading call does not change what the world is like. -/
private theorem essence_readCall {α : Type} {m : EngineM World α} (h : ReadCall m) (w : World) :
    (m.call w).2.essence = w.essence := by
  obtain ⟨a, answers⟩ := steady.look (.read h) w.essence
  exact (answers w w.at_essence).2

/-- A call that is recorded leaves the world but for that. -/
private theorem ensures_recorded (name : String) (c : Call) (w₀ : World) :
    Ensures (· = w₀) (recorded name c).run fun _ w => w = w₀.log c := by
  refine Ensures.bindExcept (R := fun _ w => w = w₀.log c) ?_ (fun _ => ?_) fun _ _ h => h
  · rintro _ rfl
    rfl
  · exact .of_keeps (keeps_scriptedFailure _)

/-! ## Writing -/

/-- Bytes that are put on top are found first. -/
private theorem byteAt?_write (w : World) (offset : UInt64) (bytes : List UInt8) :
    (w.write offset bytes).byteAt? = overlay bytes offset w.byteAt? := by
  funext address
  rw [overlay, byteAt?, write, List.findSome?_cons, List.getElem?_toArray]
  cases bytes[(address - offset).toNat]? <;> rfl

/-- What a write comes to: nothing, or the first of the bytes are put on top. -/
private def Wrote (w₀ : World) (offset : UInt64) (bytes : List UInt8) :
    Except EngineError UInt32 → World → Prop
  | .error _, w => w = w₀.log (.writeVirtual offset bytes)
  | .ok n, w => ∃ k ≤ bytes.length, n = UInt32.ofNat k ∧
      w = (w₀.log (.writeVirtual offset bytes)).write offset (bytes.take k)

/-- A write is refused, or writes as much as the limit of the world allows. -/
private theorem wrote_writeVirtual (offset : UInt64) (bytes : List UInt8) (w₀ : World) :
    Ensures (· = w₀) (DataSpaces.writeVirtual offset bytes : EngineM World UInt32).run
      (w₀.Wrote offset bytes) := by
  refine (ensures_recorded _ _ w₀).bindExcept (fun _ => ensures_looking fun w e => ?_) fun _ _ h => h
  refine .iteExcept (fun _ => ?_) fun _ => ?_
  · rintro _ rfl
    exact e
  · intro w' same
    obtain rfl : w' = w := same
    -- without a limit everything is written, which is a prefix as well
    cases limited : w'.writeLimit with
    | none =>
      refine ⟨bytes.length, Nat.le_refl _, rfl, ?_⟩
      rw [List.take_length, ← e]
      rfl
    | some limit =>
      refine ⟨min limit bytes.length, Nat.min_le_right _ _, congrArg UInt32.ofNat List.length_take, ?_⟩
      have same : bytes.take (min limit bytes.length) = bytes.take limit :=
        List.take_eq_take_iff.2 (by omega)
      rw [← e, same]
      rfl

/-! ## The laws -/

/-- A call that selects changes no byte. -/
private theorem memory_selectionCall {α : Type} {m : EngineM World α} (h : SelectionCall m) (w₀ : World) :
    Keeps (fun w : World => w.memory = w₀.memory) m.run := by
  have logged : ∀ name c, Keeps (fun w : World => w.memory = w₀.memory) (recorded name c).run :=
    fun name c => Keeps.bindExcept (keeps_changing fun _ h => h) fun _ => keeps_scriptedFailure name
  cases h with
  | currentThread | currentFrameIndex => exact keeps_asking fun w => .ok _
  | setCurrentThread id =>
    refine (logged _ _).bindExcept fun _ => keeps_looking fun w hw => ?_
    exact keeps_unless (keeps_changing fun _ h => h)
  | setFrameIndex index => exact (logged _ _).bindExcept fun _ => keeps_changing fun _ h => h

/-- The bytes of the scripted memory obey the laws of a view of the memory. -/
theorem memoryView_lawful : memoryView.Lawful where
  -- only a write changes the memory
  read := by
    intro α m h w
    have same : (m.call w).2.memory = w.memory := congrArg (·.memory) (essence_readCall h w)
    funext address
    exact congrArg (·.findSome? fun s => s.bytes[(address - s.start).toNat]?) same
  select := by
    intro α m h w
    have same : (m.call w).2.memory = w.memory := memory_selectionCall h w w rfl
    funext address
    exact congrArg (·.findSome? fun s => s.bytes[(address - s.start).toNat]?) same
  readsSame := fun w => ⟨At w.essence, w.at_essence, steady.readsSame _⟩
  refused := by
    intro w offset new _ e failed
    have wrote : w.Wrote offset new ((DataSpaces.writeVirtual offset new).call w).1
      ((DataSpaces.writeVirtual offset new).call w).2 := wrote_writeVirtual offset new w w rfl
    rw [failed] at wrote
    have same : ((DataSpaces.writeVirtual offset new).call w).2 = w.log _ := wrote
    rw [same]
    rfl
  -- a write that is accepted may be short, and writes the bytes it counts
  written := by
    intro w offset new few n accepted
    have wrote : w.Wrote offset new ((DataSpaces.writeVirtual offset new).call w).1
      ((DataSpaces.writeVirtual offset new).call w).2 := wrote_writeVirtual offset new w w rfl
    rw [accepted] at wrote
    obtain ⟨k, le, rfl, after⟩ := wrote
    have count : (UInt32.ofNat k).toNat = k := UInt32.toNat_ofNat_of_lt' (by omega)
    rw [count, after]
    exact ⟨le, byteAt?_write _ _ _⟩

/-! ### Selections -/

/-- A question leaves the world as it is, and is answered from it. -/
private theorem ensures_asked {α : Type} (name : String) (f : World → α) (w₀ : World) :
    Ensures (· = w₀) (do
      scriptedFailure name
      return f (← get) : EngineM World α).run fun r w => w = w₀ ∧ ∀ a, r = .ok a → f w₀ = a := by
  refine (Ensures.of_keeps (keeps_scriptedFailure name)).bindExcept
    (fun _ => ensures_looking fun w same => ?_) fun e w same => ⟨same, fun a failed => by cases failed⟩
  obtain rfl := same
  rintro _ rfl
  exact ⟨rfl, fun a answered => Except.ok.inj answered⟩

/-- A selected thread is the current one. -/
private theorem ensures_setCurrentThread (id : UInt32) (w₀ : World) :
    Ensures (· = w₀) (Engine.setCurrentThread id : EngineM World Unit).run fun r w =>
      r = .ok () → w.currentThread = id := by
  refine (ensures_recorded _ _ w₀).bindExcept (fun _ => ensures_looking fun w _ => ?_)
    fun e w _ failed => by cases failed
  refine .iteExcept (fun _ => ?_) fun _ => ?_
  · intro w' _ failed
    cases failed
  · exact fun w' _ _ => rfl

/-- A selected frame is the current one, and the current thread stays. -/
private theorem ensures_setFrameIndex (index : UInt32) (w₀ : World) :
    Ensures (· = w₀) (Engine.setFrameIndex index : EngineM World Unit).run fun r w =>
      r = .ok () → w.frameIndex = index ∧ w.currentThread = w₀.currentThread := by
  refine (ensures_recorded _ _ w₀).bindExcept (fun _ => ?_) fun e w _ failed => by cases failed
  rintro _ rfl _
  exact ⟨rfl, rfl⟩

/-- A reading call changes no selection. -/
private theorem selection_readCall {α : Type} {m : EngineM World α} (h : ReadCall m) (w : World) :
    (m.call w).2.currentThread = w.currentThread ∧ (m.call w).2.frameIndex = w.frameIndex :=
  have same := essence_readCall h w
  ⟨congrArg (·.currentThread) same, congrArg (·.frameIndex) same⟩

/-- The selection of the scripted engine obeys the laws of a view of the selection. -/
theorem selectionView_lawful : selectionView.Lawful where
  -- what is told of a selection is what was selected
  currentThread := by
    intro w id told
    obtain ⟨same, answer⟩ := ensures_asked "current_thread_system_id" currentThread w w rfl
    exact (congrArg currentThread same).trans (answer id told)
  setCurrentThread := fun w id accepted => ensures_setCurrentThread id w w rfl accepted
  currentFrameIndex := by
    intro w index told
    obtain ⟨same, answer⟩ := ensures_asked "current_scope_frame_index" frameIndex w w rfl
    exact ⟨(congrArg frameIndex same).trans (answer index told), congrArg currentThread same⟩
  setFrameIndex := fun w index accepted => ensures_setFrameIndex index w w rfl accepted
  data := by
    intro α m h w
    cases h with
    | writeVirtual offset bytes =>
      -- a write changes the memory only, however many bytes it takes
      have wrote : w.Wrote offset bytes ((DataSpaces.writeVirtual offset bytes).call w).1
        ((DataSpaces.writeVirtual offset bytes).call w).2 := wrote_writeVirtual offset bytes w w rfl
      cases given : ((DataSpaces.writeVirtual offset bytes).call w).1 with
      | error e =>
        rw [given] at wrote
        have same : ((DataSpaces.writeVirtual offset bytes).call w).2 = w.log _ := wrote
        rw [same]
        exact ⟨rfl, rfl⟩
      | ok n =>
        rw [given] at wrote
        obtain ⟨k, -, -, after⟩ := wrote
        rw [after]
        exact ⟨rfl, rfl⟩
    | typedData r => exact selection_readCall (.typedData r) w
    | typedText r data => exact selection_readCall (.typedText r data) w
    | fieldNames data => exact selection_readCall (.fieldNames data) w
    | typeName moduleBase typeId => exact selection_readCall (.typeName moduleBase typeId) w
    | readVirtual offset size => exact selection_readCall (.readVirtual offset size) w
    | readString offset maxLength => exact selection_readCall (.readString offset maxLength) w

end DebugAdapter.Scripted.World
