import DebugAdapter.Proofs.WorkerFrame

/-!
# Engines that put down their answers

On top of any engine there is one that puts down what was answered about the lines, the breakpoints and
the symbol groups it was asked for (`AnswerLog`). So what a command replies can be compared with the
answers it rests on, call by call. All else it leaves to the engine below it.

## Key results

- `AnswerLog.Asked`: an engine was asked for just some things, and has answered so
- `AnswerLog.answers_of_dataCall`: a look at values puts down nothing
-/

namespace DebugAdapter

/-- A call, with what it was answered; `none` if it has failed. -/
inductive EngineAnswer
  | located (file : String) (line : UInt32) (offset : Option UInt64)
  | added (id : UInt32) (offset : UInt64) (taken : Bool)
  | removed (id : UInt32)
  | cleared
  | grouped (kind : ScopeKind) (previous group : Option GroupId)
  | counted (group : GroupId) (count : Option UInt32)
  | entered (group : GroupId) (index : UInt32) (entry : Option SymbolEntry)
  deriving DecidableEq, Repr

/-- A call by which the breakpoint under an id may be set or removed. -/
def EngineAnswer.Touches (id : UInt32) : EngineAnswer → Prop
  | added i _ _ | removed i => i = id
  | cleared => True
  | _ => False

/-- An engine that puts down what it answers. -/
structure AnswerLog (σ : Type) where
  engine : σ
  /-- The answers given, oldest first. -/
  answers : List EngineAnswer := []

namespace AnswerLog

variable {σ : Type}

/-- A call of the engine below. -/
def pass {α : Type} (m : EngineM σ α) : EngineM (AnswerLog σ) α := fun s =>
  ((m.call s.engine).1, { s with engine := (m.call s.engine).2 })

/-- A call of the engine below whose answer is put down. -/
def noted {α : Type} (note : Option α → EngineAnswer) (m : EngineM σ α) :
    EngineM (AnswerLog σ) α := fun s =>
  ((m.call s.engine).1,
    { engine := (m.call s.engine).2, answers := s.answers ++ [note (m.call s.engine).1.toOption] })

instance [DataSpaces σ] : DataSpaces (AnswerLog σ) where
  typedData r := pass (DataSpaces.typedData r)
  typedText r data := pass (DataSpaces.typedText r data)
  fieldNames data := pass (DataSpaces.fieldNames data)
  typeName moduleBase typeId := pass (DataSpaces.typeName moduleBase typeId)
  readVirtual offset size := pass (DataSpaces.readVirtual offset size)
  readString offset maxLength := pass (DataSpaces.readString offset maxLength)
  writeVirtual offset bytes := pass (DataSpaces.writeVirtual offset bytes)

instance [Engine σ] : Engine (AnswerLog σ) where
  clearBreakpoints := noted (fun _ => .cleared) Engine.clearBreakpoints
  createProcess commandLine := pass (Engine.createProcess commandLine)
  attachProcess pid := pass (Engine.attachProcess pid)
  endSession := pass Engine.endSession
  waitForEvent := fun s =>
    ((Engine.waitForEvent.run s.engine).1, { s with engine := (Engine.waitForEvent.run s.engine).2 })
  interrupt s := { s with engine := Engine.interrupt s.engine }
  executionStatus := pass Engine.executionStatus
  setExecutionStatus s := pass (Engine.setExecutionStatus s)
  execute command := pass (Engine.execute command)
  applySettings s := pass (Engine.applySettings s)
  setSymbolPath path := pass (Engine.setSymbolPath path)
  setSourcePath path := pass (Engine.setSourcePath path)
  mainModuleName := pass Engine.mainModuleName
  reloadSymbols moduleName := pass (Engine.reloadSymbols moduleName)
  offsetByLine file line := noted (.located file line) (Engine.offsetByLine file line)
  lineByOffset offset := pass (Engine.lineByOffset offset)
  findSourceFile file := pass (Engine.findSourceFile file)
  nameByOffset offset := pass (Engine.nameByOffset offset)
  addCodeBreakpoint id offset :=
    noted (fun answer => .added id offset answer.isSome) (Engine.addCodeBreakpoint id offset)
  removeBreakpoint id := noted (fun _ => .removed id) (Engine.removeBreakpoint id)
  threadIds := pass Engine.threadIds
  currentThread := pass Engine.currentThread
  setCurrentThread thread := pass (Engine.setCurrentThread thread)
  currentProcess := pass Engine.currentProcess
  isPointer64 := pass Engine.isPointer64
  stackTrace maxFrames := pass (Engine.stackTrace maxFrames)
  currentFrameIndex := pass Engine.currentFrameIndex
  setFrameIndex index := pass (Engine.setFrameIndex index)
  scopeSymbolGroup kind previous :=
    noted (.grouped kind previous) (Engine.scopeSymbolGroup kind previous)
  groupCount g := noted (.counted g) (Engine.groupCount g)
  groupEntry g index := noted (.entered g index) (Engine.groupEntry g index)
  releaseGroup g s := { s with engine := Engine.releaseGroup g s.engine }
  release s := { s with engine := Engine.release s.engine }

variable [Engine σ]

/-- The engine after a call like the one that was answered. -/
def after (s : σ) : EngineAnswer → σ
  | .located file line _ => ((Engine.offsetByLine file line).call s).2
  | .added id offset _ => ((Engine.addCodeBreakpoint id offset).call s).2
  | .removed id => ((Engine.removeBreakpoint id).call s).2
  | .cleared => ((Engine.clearBreakpoints : EngineM σ Unit).call s).2
  | .grouped kind previous _ => ((Engine.scopeSymbolGroup kind previous).call s).2
  | .counted group _ => ((Engine.groupCount group).call s).2
  | .entered group index _ => ((Engine.groupEntry group index).call s).2

/-- Of the engine, just these calls were made, and it has answered them so. -/
structure Asked (s : AnswerLog σ) (answers : List EngineAnswer) (s' : AnswerLog σ) : Prop where
  answers_eq : s'.answers = s.answers ++ answers
  engine_eq : s'.engine = answers.foldl after s.engine

/-- Nothing is asked where nothing is done. -/
theorem Asked.refl (s : AnswerLog σ) : s.Asked [] s :=
  ⟨(List.append_nil _).symm, rfl⟩

/-- What is asked one after the other is asked in this order. -/
theorem Asked.trans {s₁ s₂ s₃ : AnswerLog σ} {l₁ l₂ : List EngineAnswer} (h : s₁.Asked l₁ s₂)
    (h' : s₂.Asked l₂ s₃) : s₁.Asked (l₁ ++ l₂) s₃ where
  answers_eq := by rw [h'.answers_eq, h.answers_eq, List.append_assoc]
  engine_eq := by rw [h'.engine_eq, h.engine_eq, List.foldl_append]

/-- A look at values puts down nothing. -/
theorem answers_of_dataCall {α : Type} {m : EngineM (AnswerLog σ) α} (h : DataCall m)
    (s : AnswerLog σ) : (m.call s).2.answers = s.answers := by
  cases h <;> rfl

end AnswerLog

end DebugAdapter
