import DebugAdapter.Proofs.WorkerFrame
import DebugAdapter.Scripted.Engine

/-!
# What calls leave of a scripted world as it is

A call of the scripted engine records itself, fails if the script says so, and then looks at the world.
What is kept when calls are recorded and when memory, thread and frame are chosen (`World.CallFrame`) is
kept by all calls that neither start a debuggee nor let it run. Of these, none is recorded that lets the
debuggee run (`World.InspectFrame`).

## Key results

- `World.InspectFrame.inspectingCall`, `World.CallFrame.inspectingCall`: what calls that inspect the debuggee
  keep
- `World.CallFrame.scopeSymbolGroup`: what is kept when symbols are handed out
-/

namespace DebugAdapter.Scripted

/-- The debuggee was to run by this call. -/
def Call.resumes : Call → Bool
  | .setExecutionStatus _ | .execute _ => true
  | _ => false

namespace World

/-- What holds of a world is kept by what calls change that inspect the debuggee, none of which lets it
run. -/
structure InspectFrame (I : World → Prop) : Prop where
  log : ∀ w c, c.resumes = false → I w → I (w.log c)
  typeNameCalls : ∀ w typeNameCalls, I w → I { w with typeNameCalls }
  memory : ∀ w memory, I w → I { w with memory }
  currentThread : ∀ w currentThread, I w → I { w with currentThread }
  frameIndex : ∀ w frameIndex, I w → I { w with frameIndex }

/-- What holds of a world is kept by what calls change that inspect the debuggee or hand out symbols. -/
structure CallFrame (I : World → Prop) : Prop where
  log : ∀ w c, I w → I (w.log c)
  typeNameCalls : ∀ w typeNameCalls, I w → I { w with typeNameCalls }
  memory : ∀ w memory, I w → I { w with memory }
  currentThread : ∀ w currentThread, I w → I { w with currentThread }
  frameIndex : ∀ w frameIndex, I w → I { w with frameIndex }
  groups : ∀ w groups, I w → I { w with groups }

section

variable {I : World → Prop} {α : Type}

/-- Failing changes nothing. -/
theorem keeps_failWith (s : StatusWord) : Keeps I (failWith (α := α) s).run :=
  .error _

/-- Giving an answer if there is one changes nothing. -/
theorem keeps_orFail (a : Option α) : Keeps I (orFail a).run := by
  cases a with
  | none => exact keeps_failWith _
  | some a => exact .ok a

/-- The engine fails on a condition. -/
theorem keeps_unless {c : Prop} [Decidable c] {s : StatusWord} {m : Unit → EngineM World α}
    (hm : Keeps I (m ()).run) : Keeps I (if c then failWith s >>= m else m ()).run :=
  .iteExcept (fun _ => (keeps_failWith s).bindExcept fun _ => hm) fun _ => hm

/-- The world is looked at. -/
theorem keeps_looking {f : World → EngineM World α} (hf : ∀ w, I w → Keeps I (f w).run) :
    Keeps I (get >>= f : EngineM World α).run :=
  fun w hw => hf w hw w hw

/-- A call that looks at the world first ensures what it ensures for the world it has seen. -/
theorem ensures_looking {P : World → Prop} {f : World → EngineM World α}
    {Q : Except EngineError α → World → Prop}
    (hf : ∀ w, P w → Ensures (fun w' => w' = w) (f w).run Q) :
    Ensures P (get >>= f : EngineM World α).run Q :=
  fun w hw => hf w hw w rfl

/-- The world is changed. -/
theorem keeps_changing {f : World → World} (h : ∀ w, I w → I (f w)) :
    Keeps I (modify f : EngineM World PUnit).run :=
  h

/-- A scripted failure changes nothing. -/
theorem keeps_scriptedFailure (name : String) : Keeps I (scriptedFailure name).run := by
  refine keeps_looking fun w _ => ?_
  split
  · exact .error _
  · exact .ok _

/-- A question, to which the world has the answer if the script does not let it fail. -/
theorem keeps_asking {name : String} {f : World → EngineM World α} (hf : ∀ w, Keeps I (f w).run) :
    Keeps I (do scriptedFailure name; f (← get)).run :=
  (keeps_scriptedFailure name).bindExcept fun _ => keeps_looking fun w _ => hf w

end

namespace InspectFrame

variable {I : World → Prop} {α : Type} (F : InspectFrame I)
include F

/-- Recording a call that does not resume keeps what looking keeps. -/
theorem recorded (name : String) {c : Call} (h : c.resumes = false) :
    Keeps I (Scripted.recorded name c).run :=
  Keeps.bindExcept (keeps_changing fun w hw => F.log w c h hw) fun _ => keeps_scriptedFailure name

/-- A call for data keeps what looking keeps. -/
theorem dataCall {m : EngineM World α} (h : DataCall m) : Keeps I m.run := by
  cases h with
  | typedData r =>
    refine keeps_asking fun w => ?_
    split
    · exact .ok _
    · exact .error _
  | typedText r data => exact keeps_asking fun w => keeps_orFail _
  | fieldNames data => exact keeps_asking fun w => (keeps_orFail _).bindExcept fun t => .ok _
  | typeName moduleBase typeId =>
    refine Keeps.bindExcept ?_ fun _ => keeps_asking fun w => keeps_orFail _
    exact keeps_changing fun w h => F.typeNameCalls w _ h
  | readVirtual offset size => exact keeps_asking fun w => keeps_unless (.ok _)
  | readString offset maxLength => exact keeps_asking fun w => keeps_unless (.ok _)
  | writeVirtual offset bytes =>
    -- the world that is put back is the one that was looked at, with the bytes on top
    refine (F.recorded _ rfl).bindExcept fun _ => keeps_looking fun w hw => ?_
    exact keeps_unless (Keeps.bindExcept (fun _ _ => F.memory w _ hw) fun _ => .ok _)

/-- An inspecting call keeps what looking keeps. -/
theorem inspectingCall {m : EngineM World α} (h : InspectingCall m) : Keeps I m.run := by
  cases h with
  | data h => exact F.dataCall h
  -- what is only recorded cannot be seen by what follows
  | applySettings s => exact F.recorded _ rfl
  | setSymbolPath path => exact F.recorded _ rfl
  | setSourcePath path => exact F.recorded _ rfl
  | reloadSymbols moduleName => exact F.recorded _ rfl
  | offsetByLine file line =>
    refine keeps_asking fun w => ?_
    split
    · exact .ok _
    · exact keeps_failWith _
  | lineByOffset offset => exact keeps_asking fun w => keeps_orFail _
  | findSourceFile file => exact keeps_asking fun w => keeps_orFail _
  | nameByOffset offset => exact keeps_asking fun w => keeps_orFail _
  -- the two selections are recorded, and change what is current
  | setCurrentThread thread =>
    refine (F.recorded _ rfl).bindExcept fun _ => keeps_looking fun w hw => ?_
    exact keeps_unless (keeps_changing fun w h => F.currentThread w _ h)
  | setFrameIndex index =>
    exact (F.recorded _ rfl).bindExcept fun _ => keeps_changing fun w h => F.frameIndex w _ h
  | groupEntry g index => exact keeps_looking fun w _ => keeps_orFail _
  -- these answer from what the world is, and change nothing
  | executionStatus | mainModuleName | threadIds | currentThread | currentProcess | isPointer64
  | stackTrace | currentFrameIndex | groupCount => exact keeps_asking fun w => .ok _

end InspectFrame

namespace CallFrame

variable {I : World → Prop} {α : Type} (F : CallFrame I)
include F

/-- What all calls keep is kept by inspecting ones. -/
theorem inspects : InspectFrame I where
  log := fun w c _ => F.log w c
  typeNameCalls := F.typeNameCalls
  memory := F.memory
  currentThread := F.currentThread
  frameIndex := F.frameIndex

/-- Recording any call keeps what a frame keeps. -/
theorem recorded (name : String) (c : Call) : Keeps I (Scripted.recorded name c).run :=
  Keeps.bindExcept (keeps_changing fun w h => F.log w c h) fun _ => keeps_scriptedFailure name

/-- An inspecting call keeps what a frame keeps. -/
theorem inspectingCall {m : EngineM World α} (h : InspectingCall m) : Keeps I m.run :=
  F.inspects.inspectingCall h

/-- What is kept whichever debuggee there is, and whether it runs, is kept by all calls but those that change
breakpoints or hand out symbols. -/
theorem ordinaryCall (moves : ∀ w pid status, I w → I { w with pid, status }) {m : EngineM World α}
    (h : OrdinaryCall m) : Keeps I m.run := by
  refine h.elim (P := fun _ m => Keeps I m.run) (fun commandLine => ?_) (fun pid => ?_) (fun status => ?_)
    (fun command => ?_) F.inspectingCall
  · exact (F.recorded _ _).bindExcept fun _ => keeps_changing fun w h => moves w w.pid .stopped h
  · exact (F.recorded _ _).bindExcept fun _ => keeps_changing fun w h => moves w pid .stopped h
  · refine (F.recorded _ _).bindExcept fun _ => keeps_looking fun w hw => ?_
    exact keeps_unless (keeps_changing fun w h => moves w w.pid status h)
  · refine (F.recorded _ _).bindExcept fun _ => keeps_unless (keeps_looking fun w _ => ?_)
    exact keeps_unless (keeps_changing fun w h => moves w w.pid .go h)

/-- Exchanging a symbol group keeps what a frame keeps. -/
theorem scopeSymbolGroup (kind : ScopeKind) (previous : Option GroupId) :
    Keeps I (Engine.scopeSymbolGroup kind previous : EngineM World GroupId).run := by
  refine Keeps.bindExcept ?_ fun _ => (F.recorded _ _).bindExcept fun _ => ?_
  · refine keeps_changing fun w h => ?_
    cases previous with
    | none => exact h
    | some g => exact F.groups w _ h
  · exact fun w h => F.groups w _ h

end CallFrame

end World

end DebugAdapter.Scripted
