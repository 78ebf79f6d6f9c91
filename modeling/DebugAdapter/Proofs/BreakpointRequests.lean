import DebugAdapter.Proofs.WorkerFrame

/-!
# Engines and their breakpoints

What is taken for granted of an engine is that it changes its breakpoints on request only
(`BreakpointView.Lawful`): a breakpoint is set if the call for it succeeds, a breakpoint that is removed
is gone, and no other call or wait sets or removes any.

On top of any engine there is one that puts down for which ids and lines breakpoints were asked for
(`BreakpointLog`). All else it leaves to the engine below it.

## Key results

- `BreakpointLog.unchanged_of_ordinaryCall`: calls that leave the breakpoints, and the log, as they are
-/

namespace DebugAdapter

/-! ## Breakpoints that are set -/

/-- How the breakpoints of an engine are seen. -/
structure BreakpointView (σ : Type) where
  /-- The engine is in a state in which it does what it is asked for. -/
  fit : σ → Prop
  /-- A breakpoint is set under an id. -/
  has : σ → UInt32 → Prop

namespace BreakpointView

variable {σ : Type}

/-- A change leaves an engine fit and its breakpoints as they are. -/
structure Leaves (V : BreakpointView σ) (s s' : σ) : Prop where
  fit : V.fit s → V.fit s'
  has_eq : V.fit s → V.has s' = V.has s

/-- An engine leaves the breakpoints alone where nothing is done. -/
theorem Leaves.refl (V : BreakpointView σ) (s : σ) : V.Leaves s s :=
  ⟨id, fun _ => rfl⟩

/-- What leaves them alone twice leaves them alone. -/
theorem Leaves.trans {V : BreakpointView σ} {s₁ s₂ s₃ : σ} (h : V.Leaves s₁ s₂)
    (h' : V.Leaves s₂ s₃) : V.Leaves s₁ s₃ :=
  ⟨fun fit => h'.fit (h.fit fit), fun fit => (h'.has_eq (h.fit fit)).trans (h.has_eq fit)⟩

/-- The breakpoints of an engine are changed on request only. -/
structure Lawful [Engine σ] (V : BreakpointView σ) : Prop where
  ordinary : ∀ {α : Type} {m : EngineM σ α}, OrdinaryCall m → ∀ s, V.Leaves s (m.call s).2
  symbolGroup : ∀ kind previous s, V.Leaves s ((Engine.scopeSymbolGroup kind previous).call s).2
  endSession : ∀ s, V.Leaves s ((Engine.endSession : EngineM σ Unit).call s).2
  wait : ∀ s, V.Leaves s (Engine.waitForEvent.run s).2
  interrupt : ∀ s, V.Leaves s (Engine.interrupt s)
  releaseGroup : ∀ g s, V.Leaves s (Engine.releaseGroup g s)
  release : ∀ s, V.Leaves s (Engine.release s)
  /-- If there are no breakpoints, there are none when all are removed. -/
  clear : ∀ s, V.fit s → (∀ id, ¬V.has s id) →
    V.fit ((Engine.clearBreakpoints : EngineM σ Unit).call s).2 ∧
      ∀ id, ¬V.has ((Engine.clearBreakpoints : EngineM σ Unit).call s).2 id
  /-- A breakpoint is set if the engine says so. -/
  add : ∀ id offset s, V.fit s → V.fit ((Engine.addCodeBreakpoint id offset).call s).2 ∧
    ∀ i, V.has ((Engine.addCodeBreakpoint id offset).call s).2 i ↔
      V.has s i ∨ (i = id ∧ ((Engine.addCodeBreakpoint id offset).call s).1.isOk = true)
  /-- A breakpoint that is set can be removed. -/
  remove : ∀ id s, V.fit s → V.has s id → V.fit ((Engine.removeBreakpoint id).call s).2 ∧
    ∀ i, V.has ((Engine.removeBreakpoint id).call s).2 i ↔ V.has s i ∧ i ≠ id

end BreakpointView

/-! ## Breakpoints that are asked for -/

/-- An engine that puts down for which breakpoints it was asked. -/
structure BreakpointLog (σ : Type) where
  engine : σ
  /-- The line whose code was asked for last. -/
  line : Option Breakpoint := none
  /-- The ids of the breakpoints asked for, with the line whose code was asked for before, oldest
  first. -/
  requests : List (UInt32 × Option Breakpoint) := []

namespace BreakpointLog

variable {σ : Type}

/-- A call of the engine below. -/
def pass {α : Type} (m : EngineM σ α) : EngineM (BreakpointLog σ) α := fun s =>
  ((m.call s.engine).1, { s with engine := (m.call s.engine).2 })

instance [DataSpaces σ] : DataSpaces (BreakpointLog σ) where
  typedData r := pass (DataSpaces.typedData r)
  typedText r data := pass (DataSpaces.typedText r data)
  fieldNames data := pass (DataSpaces.fieldNames data)
  typeName moduleBase typeId := pass (DataSpaces.typeName moduleBase typeId)
  readVirtual offset size := pass (DataSpaces.readVirtual offset size)
  readString offset maxLength := pass (DataSpaces.readString offset maxLength)
  writeVirtual offset bytes := pass (DataSpaces.writeVirtual offset bytes)

instance [Engine σ] : Engine (BreakpointLog σ) where
  clearBreakpoints := pass Engine.clearBreakpoints
  createProcess commandLine := pass (Engine.createProcess commandLine)
  attachProcess pid := pass (Engine.attachProcess pid)
  endSession := pass Engine.endSession
  waitForEvent := fun s =>
    ((Engine.waitForEvent.run s.engine).1, { s with engine := (Engine.waitForEvent.run s.engine).2 })
  interrupt s := { s with engine := Engine.interrupt s.engine }
  executionStatus := pass Engine.executionStatus
  setExecutionStatus s := pass (Engine.setExecutionStatus s)
  execute command := pass (Engine.execute command)
  applySettings s := pass (Engine.applySettings s)
  setSymbolPath path := pass (Engine.setSymbolPath path)
  setSourcePath path := pass (Engine.setSourcePath path)
  mainModuleName := pass Engine.mainModuleName
  reloadSymbols moduleName := pass (Engine.reloadSymbols moduleName)
  offsetByLine file line := fun s =>
    (pass (Engine.offsetByLine file line)).call { s with line := some ⟨file, line⟩ }
  lineByOffset offset := pass (Engine.lineByOffset offset)
  findSourceFile file := pass (Engine.findSourceFile file)
  nameByOffset offset := pass (Engine.nameByOffset offset)
  addCodeBreakpoint id offset := fun s =>
    (pass (Engine.addCodeBreakpoint id offset)).call
      { s with requests := s.requests ++ [(id, s.line)] }
  removeBreakpoint id := pass (Engine.removeBreakpoint id)
  threadIds := pass Engine.threadIds
  currentThread := pass Engine.currentThread
  setCurrentThread thread := pass (Engine.setCurrentThread thread)
  currentProcess := pass Engine.currentProcess
  isPointer64 := pass Engine.isPointer64
  stackTrace maxFrames := pass (Engine.stackTrace maxFrames)
  currentFrameIndex := pass Engine.currentFrameIndex
  setFrameIndex index := pass (Engine.setFrameIndex index)
  scopeSymbolGroup kind previous := pass (Engine.scopeSymbolGroup kind previous)
  groupCount g := pass (Engine.groupCount g)
  groupEntry g index := pass (Engine.groupEntry g index)
  releaseGroup g s := { s with engine := Engine.releaseGroup g s.engine }
  release s := { s with engine := Engine.release s.engine }

variable [Engine σ] {V : BreakpointView σ}

/-- A change leaves the breakpoints as they are, and none is asked for. -/
structure Unchanged (V : BreakpointView σ) (s s' : BreakpointLog σ) : Prop where
  leaves : V.Leaves s.engine s'.engine
  requests_eq : s'.requests = s.requests

omit [Engine σ] in
/-- Nothing is changed where nothing is done. -/
theorem Unchanged.refl (V : BreakpointView σ) (s : BreakpointLog σ) : Unchanged V s s :=
  ⟨.refl V _, rfl⟩

omit [Engine σ] in
/-- What changes nothing twice changes nothing. -/
theorem Unchanged.trans {s₁ s₂ s₃ : BreakpointLog σ} (h : Unchanged V s₁ s₂)
    (h' : Unchanged V s₂ s₃) : Unchanged V s₁ s₃ :=
  ⟨h.leaves.trans h'.leaves, h'.requests_eq.trans h.requests_eq⟩

/-- Ordinary calls leave the breakpoints, and none is asked for. -/
theorem unchanged_of_ordinaryCall (L : V.Lawful) {α : Type} {m : EngineM (BreakpointLog σ) α}
    (h : OrdinaryCall m) (s : BreakpointLog σ) : Unchanged V s (m.call s).2 := by
  have passed : ∀ {β : Type} {m : EngineM σ β}, OrdinaryCall m → Unchanged V s ((pass m).call s).2 :=
    fun h => ⟨L.ordinary h _, rfl⟩
  cases h with
  | data h => cases h <;> exact passed (.data (by constructor))
  | offsetByLine file line => exact ⟨L.ordinary (.offsetByLine file line) _, rfl⟩
  | _ => exact passed (by constructor)

/-- Releasing symbol groups changes no breakpoint and asks for none. -/
theorem unchanged_foldl_releaseGroup (L : V.Lawful) (l : List GroupId) (s : BreakpointLog σ) :
    Unchanged V s (l.foldl (fun s g => Engine.releaseGroup g s) s) := by
  induction l generalizing s with
  | nil => exact .refl V s
  | cons g l ih =>
    have first : Unchanged V s (Engine.releaseGroup g s) := ⟨L.releaseGroup g s.engine, rfl⟩
    exact first.trans (ih _)

/-- Finishing a session changes no breakpoint and asks for none. -/
theorem unchanged_finish (L : V.Lawful) (s : EngineSession (BreakpointLog σ)) :
    Unchanged V s.engine s.finish.2.engine := by
  unfold EngineSession.finish
  split
  · exact .refl V _
  · exact ⟨L.endSession s.engine.engine, rfl⟩

end BreakpointLog

end DebugAdapter
