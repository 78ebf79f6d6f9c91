import DebugAdapter.Engine.Basic
import DebugAdapter.Proofs.SteadyDecoding
import DebugAdapter.Store.Entity

/-!
# What an engine has selected, and what it remembers

Of an engine two things are seen that it does not always tell: the thread and the frame that it has
selected (`SelectionView`), and the bytes in the debuggee's memory (`MemoryView`). The first changes when a
thread or a frame is selected and at no other time, as long as the debuggee is stopped. The second changes
when bytes are written.

## Key results

- `overlay_of_lt`, `overlay_of_le`: where bytes that are written are found, and what they leave as it was
-/

namespace DebugAdapter

/-! ## Selections -/

/-- A call by which a frame is selected. -/
inductive SelectionCall {σ : Type} [Engine σ] : {α : Type} → EngineM σ α → Prop
  | currentThread : SelectionCall Engine.currentThread
  | setCurrentThread (id : UInt32) : SelectionCall (Engine.setCurrentThread id)
  | currentFrameIndex : SelectionCall Engine.currentFrameIndex
  | setFrameIndex (index : UInt32) : SelectionCall (Engine.setFrameIndex index)

/-- How the selection of an engine is seen: the system id of its current thread, and the number of its
current frame. -/
structure SelectionView (σ : Type) where
  thread : σ → UInt32
  frame : σ → UInt32

namespace SelectionView

variable {σ : Type} (V : SelectionView σ)

/-- A thread and a frame are selected. -/
def Selects (t : Thread) (f : Frame) (s : σ) : Prop :=
  V.thread s = t.systemId ∧ V.frame s = f.order

/-- What the engine tells of its selection is so, and it selects what it is told to, unless it fails.
Selecting a frame does not select another thread, and calls for memory or types select nothing. -/
structure Lawful [Engine σ] : Prop where
  currentThread : ∀ s id, ((Engine.currentThread (σ := σ)).call s).1 = .ok id →
    V.thread ((Engine.currentThread (σ := σ)).call s).2 = id
  setCurrentThread : ∀ s id, ((Engine.setCurrentThread (σ := σ) id).call s).1 = .ok () →
    V.thread ((Engine.setCurrentThread (σ := σ) id).call s).2 = id
  currentFrameIndex : ∀ s index, ((Engine.currentFrameIndex (σ := σ)).call s).1 = .ok index →
    V.frame ((Engine.currentFrameIndex (σ := σ)).call s).2 = index ∧
      V.thread ((Engine.currentFrameIndex (σ := σ)).call s).2 = V.thread s
  setFrameIndex : ∀ s index, ((Engine.setFrameIndex (σ := σ) index).call s).1 = .ok () →
    V.frame ((Engine.setFrameIndex (σ := σ) index).call s).2 = index ∧
      V.thread ((Engine.setFrameIndex (σ := σ) index).call s).2 = V.thread s
  data : ∀ {α : Type} {m : EngineM σ α}, DataCall m → ∀ s,
    V.thread (m.call s).2 = V.thread s ∧ V.frame (m.call s).2 = V.frame s

end SelectionView

/-! ## Memory -/

/-- The bytes in a memory when some were written from an address on. Addresses wrap around. -/
def overlay (bytes : List UInt8) (offset : UInt64) (memory : UInt64 → Option UInt8) (address : UInt64) :
    Option UInt8 :=
  bytes[(address - offset).toNat]? <|> memory address

section

variable {bytes : List UInt8} {offset address : UInt64} {memory : UInt64 → Option UInt8}

/-- Behind the written bytes the memory is as before. -/
theorem overlay_of_le (far : bytes.length ≤ (address - offset).toNat) :
    overlay bytes offset memory address = memory address := by
  rw [overlay, List.getElem?_eq_none far]
  rfl

/-- Within the written bytes the memory is what was written. -/
theorem overlay_of_lt (near : (address - offset).toNat < bytes.length) :
    overlay bytes offset memory address = some bytes[(address - offset).toNat] := by
  rw [overlay, List.getElem?_eq_getElem near]
  rfl

end

/-- How the debuggee's memory is seen: the byte at each address, `none` if there is none. -/
structure MemoryView (σ : Type) where
  bytes : σ → UInt64 → Option UInt8

/-- Looking and selecting write nothing, and what is read stays the same as long as nothing else is done.
Of bytes that are to be written the engine writes as many as it tells, the first ones, and none if it
fails. -/
structure MemoryView.Lawful {σ : Type} [Engine σ] (V : MemoryView σ) : Prop where
  read : ∀ {α : Type} {m : EngineM σ α}, ReadCall m → ∀ s, V.bytes (m.call s).2 = V.bytes s
  select : ∀ {α : Type} {m : EngineM σ α}, SelectionCall m → ∀ s, V.bytes (m.call s).2 = V.bytes s
  readsSame : ∀ s, ∃ P : σ → Prop, P s ∧ ReadsSame P
  refused : ∀ s offset (new : List UInt8), new.length < UInt32.size → ∀ e,
    ((DataSpaces.writeVirtual offset new).call s).1 = .error e →
      V.bytes ((DataSpaces.writeVirtual offset new).call s).2 = V.bytes s
  written : ∀ s offset (new : List UInt8), new.length < UInt32.size → ∀ n,
    ((DataSpaces.writeVirtual offset new).call s).1 = .ok n → n.toNat ≤ new.length ∧
      V.bytes ((DataSpaces.writeVirtual offset new).call s).2 =
        overlay (new.take n.toNat) offset (V.bytes s)

end DebugAdapter
