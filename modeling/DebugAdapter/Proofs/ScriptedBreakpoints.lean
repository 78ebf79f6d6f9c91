import DebugAdapter.Proofs.BreakpointRequests
import DebugAdapter.Proofs.ScriptedFrame

/-!
# The breakpoints of scripted engines

A scripted engine changes its breakpoints on request only. It does what it is asked for as long as the
script does not let `removeBreakpoint` fail; all else may fail.

## Key results

- `Scripted.World.view_lawful`: the scripted engine meets what is taken for granted of an engine
-/

namespace DebugAdapter.Scripted.World

/-- The breakpoints of a scripted engine, which removes breakpoints if the script lets it. -/
def view : BreakpointView World where
  fit w := w.failures.find? (·.1 == "remove_breakpoint") = none
  has w id := id ∈ w.breakpoints.map (·.1)

/-- The script for failures and the breakpoints are as they were. -/
private def Same (w₀ w : World) : Prop :=
  w.failures = w₀.failures ∧ w.breakpoints = w₀.breakpoints

/-- A world with the same breakpoints and failures leaves them alone. -/
private theorem Same.leaves {w₀ w : World} (h : w₀.Same w) : view.Leaves w₀ w where
  fit fit := by
    simp only [view, h.1]
    exact fit
  has_eq _ := by simp only [view, h.2]

section

variable {w₀ : World} {α : Type}

/-- Having the same breakpoints is kept by all calls but those about breakpoints. -/
private theorem same_callFrame (w₀ : World) : CallFrame w₀.Same where
  log := fun _ _ h => h
  typeNameCalls := fun _ _ h => h
  memory := fun _ _ h => h
  currentThread := fun _ _ h => h
  frameIndex := fun _ _ h => h
  groups := fun _ _ h => h

/-- An ordinary call leaves the breakpoints as they are. -/
private theorem same_ordinaryCall {m : EngineM World α} (h : OrdinaryCall m) :
    Keeps (Same w₀) m.run :=
  (same_callFrame w₀).ordinaryCall (fun _ _ _ h => h) h

/-- Ending a session leaves the breakpoints as they are. -/
private theorem same_endSession : Keeps (Same w₀) (Engine.endSession : EngineM World Unit).run :=
  ((same_callFrame w₀).recorded _ _).bindExcept fun _ => keeps_changing fun _ h => h

/-- Reporting a stop leaves the breakpoints as they are. -/
private theorem same_report (w : World) (s : Stop) : w.Same (w.report s).2 := by
  unfold report
  split <;> exact ⟨rfl, rfl⟩

/-- A wait leaves the breakpoints as they are. -/
private theorem same_wait (w : World) : w.Same w.wait.2 := by
  unfold wait
  split
  · exact ⟨rfl, rfl⟩
  · split
    · exact ⟨rfl, rfl⟩
    · split
      · exact same_report _ _
      · split
        · exact same_report _ _
        · exact ⟨rfl, rfl⟩

end

/-! ## Breakpoints that are set and removed -/

section

variable {m : EngineM World Unit} {f : List (UInt32 × UInt64) → List (UInt32 × UInt64)}

/-- The breakpoints are changed if the call succeeds, and else are as they were. -/
private def Changes (m : EngineM World Unit) (f : List (UInt32 × UInt64) → List (UInt32 × UInt64)) :
    Prop :=
  ∀ w₀, Ensures (Same w₀) m.run fun answer w => w.failures = w₀.failures ∧
    w.breakpoints = if answer.isOk then f w₀.breakpoints else w₀.breakpoints

/-- A change of the breakpoints leaves the engine fit. -/
private theorem Changes.fit (h : Changes m f) {w : World} (fit : view.fit w) :
    view.fit (m.call w).2 := by
  have same : (m.call w).2.failures = w.failures := (h w w ⟨rfl, rfl⟩).1
  simp only [view, same]
  exact fit

/-- A breakpoint is set after a change if it is on the changed list, or on the old one where the call failed. -/
private theorem Changes.has_iff (h : Changes m f) (w : World) (id : UInt32) :
    view.has (m.call w).2 id ↔
      id ∈ (if (m.call w).1.isOk then f w.breakpoints else w.breakpoints).map (·.1) := by
  have changed : (m.call w).2.breakpoints = _ := (h w w ⟨rfl, rfl⟩).2
  simp only [view, changed]
  rfl

end

/-- Clearing leaves no breakpoint. -/
private theorem changes_clearBreakpoints : Changes Engine.clearBreakpoints fun _ => [] :=
  fun _ => Ensures.bindExcept (.of_keeps ((same_callFrame _).recorded _ _)) (fun _ _ hw => ⟨hw.1, rfl⟩)
    fun _ _ hw => hw

/-- Adding inserts a breakpoint under its id. -/
private theorem changes_addCodeBreakpoint (id : UInt32) (offset : UInt64) :
    Changes (Engine.addCodeBreakpoint id offset) (insertBreakpoint id offset) := by
  refine fun w₀ => Ensures.bindExcept (.of_keeps ((same_callFrame _).recorded _ _)) (fun _ => ?_) fun _ _ hw => hw
  refine ensures_looking fun w hw => .iteExcept (fun _ => ?_) fun _ => ?_
  · rintro _ rfl
    exact hw
  · rintro _ rfl
    exact ⟨hw.1, congrArg (insertBreakpoint id offset) hw.2⟩

/-- Removing filters out the id. -/
private theorem changes_removeBreakpoint (id : UInt32) :
    Changes (Engine.removeBreakpoint id) (List.filter (·.1 != id)) :=
  fun _ => Ensures.bindExcept (.of_keeps ((same_callFrame _).recorded _ _))
    (fun _ _ hw => ⟨hw.1, congrArg (List.filter _) hw.2⟩) fun _ _ hw => hw

/-- Breakpoints are removed if the script lets it. -/
private theorem isOk_removeBreakpoint (id : UInt32) {w : World} (fit : view.fit w) :
    ((Engine.removeBreakpoint id).call w).1.isOk = true := by
  -- nothing but the script could make the call fail
  have silent : Ensures view.fit (Engine.removeBreakpoint id).run fun answer _ => answer.isOk := by
    refine Ensures.bindExcept (R := fun answer _ => answer.isOk) ?_ (fun _ _ _ => rfl) fun _ _ h => h
    refine Ensures.bindExcept (R := fun answer w => answer.isOk = true ∧ view.fit w)
      (fun _ fit => ⟨rfl, fit⟩) (fun _ => ensures_looking fun w fit => ?_) fun _ _ h => h.1
    rw [show w.failures.find? (·.1 == "remove_breakpoint") = none from fit.2]
    exact fun _ _ => rfl
  exact silent w fit

/-- The ids after an insertion are those before it and the new one. -/
private theorem mem_insertBreakpoint (id : UInt32) (offset : UInt64) (l : List (UInt32 × UInt64))
    (i : UInt32) :
    i ∈ (insertBreakpoint id offset l).map (·.1) ↔ i ∈ l.map (·.1) ∨ i = id := by
  induction l with
  | nil => simp [insertBreakpoint]
  | cons b l ih =>
    rw [insertBreakpoint]
    split
    · rw [List.map_cons, List.mem_cons, or_comm]
    · split
      · next same =>
        rw [List.map_cons, List.map_cons, List.mem_cons, List.mem_cons, same]
        exact (or_iff_left_of_imp .inl).symm
      · rw [List.map_cons, List.mem_cons, ih, List.map_cons, List.mem_cons, or_assoc]

/-- The scripted engine changes its breakpoints on request only. -/
theorem view_lawful : view.Lawful where
  -- everything but the last three leaves the breakpoints alone
  ordinary h s := (same_ordinaryCall h s ⟨rfl, rfl⟩).leaves
  symbolGroup kind previous s := ((same_callFrame s).scopeSymbolGroup kind previous s ⟨rfl, rfl⟩).leaves
  endSession s := (same_endSession s ⟨rfl, rfl⟩).leaves
  wait s := (same_wait s).leaves
  interrupt s := Same.leaves ⟨rfl, rfl⟩
  releaseGroup g s := Same.leaves ⟨rfl, rfl⟩
  release s := Same.leaves ⟨rfl, rfl⟩
  -- clearing removes all of them, or none if it is refused
  clear s fit unset := by
    refine ⟨changes_clearBreakpoints.fit fit, fun id => ?_⟩
    rw [changes_clearBreakpoints.has_iff]
    split
    · exact List.not_mem_nil
    · exact unset id
  -- one that was refused is not in the list
  add id offset s fit := by
    refine ⟨(changes_addCodeBreakpoint id offset).fit fit, fun i => ?_⟩
    rw [(changes_addCodeBreakpoint id offset).has_iff]
    split
    · next ok =>
      rw [mem_insertBreakpoint, and_iff_left ok]
      rfl
    · next failed => exact (or_iff_left fun h => failed h.2).symm
  remove id s fit _ := by
    refine ⟨(changes_removeBreakpoint id).fit fit, fun i => ?_⟩
    rw [(changes_removeBreakpoint id).has_iff, if_pos (isOk_removeBreakpoint id fit)]
    simp [view]

end DebugAdapter.Scripted.World
