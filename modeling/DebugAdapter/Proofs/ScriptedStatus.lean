import DebugAdapter.Proofs.ExecutionStatus
import DebugAdapter.Proofs.ScriptedFrame

/-!
# The execution status of scripted engines

A scripted engine changes its status when it is asked to, and when a stop is reported. It keeps to its
status as long as the script lets the status be read, and no stop of the script names a status of its
own, by which a debuggee could be said to run that has stopped.

## Key results

- `Scripted.World.statusView_lawful`: the scripted engine meets what is taken for granted of an engine
- `Scripted.World.statusView_makes`: so do the engines that the scripted provider makes
-/

namespace DebugAdapter.Scripted.World

/-- The status of a scripted engine that keeps to it. -/
def statusView : StatusView World where
  fit w := w.failures.find? (·.1 == "execution_status") = none ∧
    ∀ s ∈ w.interruptStop :: w.stops, s.status = none
  status := status

/-- What the script has still to say. -/
private def script (w : World) : List (String × EngineError) × List Stop :=
  (w.failures, w.interruptStop :: w.stops)

/-- Neither the script nor the status has changed. -/
private def Still (w₀ w : World) : Prop :=
  w.script = w₀.script ∧ w.status = w₀.status

/-- A world with the same script is fit alike. -/
private theorem fit_congr {w w' : World} (same : w'.script = w.script) (h : statusView.fit w) :
    statusView.fit w' := by
  simp only [script, Prod.mk.injEq] at same
  simp only [statusView, same.1, same.2]
  exact h

/-- A world that stays still leaves the status alone. -/
private theorem Still.leaves {w₀ w : World} (h : w₀.Still w) : statusView.Leaves w₀ w :=
  ⟨fit_congr h.1, fun _ => h.2⟩

/-- Staying still is kept by all calls but those that resume. -/
private theorem still_callFrame (w₀ : World) : CallFrame w₀.Still where
  log := fun _ _ h => h
  typeNameCalls := fun _ _ h => h
  memory := fun _ _ h => h
  currentThread := fun _ _ h => h
  frameIndex := fun _ _ h => h
  groups := fun _ _ h => h

/-- A call about breakpoints leaves the status alone. -/
private theorem still_breakpointCall {α : Type} {m : EngineM World α} (h : BreakpointCall m) (w₀ : World) :
    Keeps w₀.Still m.run := by
  have F := still_callFrame w₀
  cases h with
  | clearBreakpoints | removeBreakpoint =>
    exact (F.recorded _ _).bindExcept fun _ => keeps_changing fun _ h => h
  | addCodeBreakpoint id offset =>
    refine (F.recorded _ _).bindExcept fun _ => keeps_looking fun w _ => ?_
    exact keeps_unless (keeps_changing fun _ h => h)

/-! ## Debuggees that are started and resumed -/

/-- The script has not changed, and the debuggee runs as `runs` says of the answer. -/
private def Goes (w₀ : World) (runs : Bool → Bool) (answer : Except EngineError Unit) (w : World) : Prop :=
  w.script = w₀.script ∧ w.status.isRunning = runs answer.isOk

/-- A debuggee that was started does not run, whether the call succeeds or fails. -/
private theorem goes_of_start {m : EngineM World Unit} (h : StartingCall m) {w₀ : World}
    (stopped : w₀.status.isRunning = false) :
    Ensures w₀.Still m.run (w₀.Goes fun _ => false) := by
  have F := still_callFrame w₀
  have refused : ∀ (e : EngineError) w, w₀.Still w → w₀.Goes (fun _ => false) (.error e) w := by
    rintro e w ⟨script, status⟩
    exact ⟨script, by rw [status, stopped]⟩
  cases h with
  | createProcess | attachProcess =>
    exact Ensures.bindExcept (.of_keeps (F.recorded _ _)) (fun _ w h => ⟨h.1, rfl⟩) refused

/-- A debuggee that is let run does so, unless that fails. -/
private theorem goes_of_letRun (name : String) (c : Call) {status : ExecutionStatus}
    (running : status.isRunning = true) {w₀ : World} (stopped : w₀.status.isRunning = false) :
    Ensures w₀.Still (do
      Scripted.recorded name c
      if (← get).status = .noDebuggee then failWith .unexpected
      modify fun w => { w with status } : EngineM World Unit).run (w₀.Goes id) := by
  have refused : ∀ (e : EngineError) w, w₀.Still w → w₀.Goes id (.error e) w := by
    rintro e w ⟨script, status⟩
    exact ⟨script, by rw [status, stopped]; rfl⟩
  refine Ensures.bindExcept (.of_keeps ((still_callFrame w₀).recorded _ _)) (fun _ => ?_) refused
  refine ensures_looking fun w still => .iteExcept (fun _ => ?_) fun _ => ?_
  · rintro _ rfl
    exact refused _ _ still
  · rintro _ rfl
    exact ⟨still.1, running⟩

/-- A call that resumes leaves the debuggee running if it succeeds. -/
private theorem goes_of_resume {m : EngineM World Unit} (h : ResumingCall m) {w₀ : World}
    (stopped : w₀.status.isRunning = false) : Ensures w₀.Still m.run (w₀.Goes id) := by
  cases h with
  | go | stepInto | stepOver => exact goes_of_letRun _ _ rfl stopped
  | stepOut => exact goes_of_letRun "execute" (.execute "gu") rfl stopped

/-! ## The native wait -/

/-- A wait answers with events of a debuggee that does not run, or leaves the status as it was. -/
private def Waited (w₀ : World) (answer : Option (Except EngineError (List NativeEvent))) (w : World) :
    Prop :=
  (∃ events, answer = some (.ok events)) ∧ w.status.isRunning = false ∨
    (∀ events, answer ≠ some (.ok events)) ∧ w.status = w₀.status

/-- A reported stop that names no status leaves the debuggee stopped. -/
private theorem report_waited {w : World} {s : Stop} (quiet : s.status = none) :
    (w.report s).2.script = w.script ∧ Waited w (some (w.report s).1) (w.report s).2 := by
  unfold report
  split
  · exact ⟨rfl, .inr ⟨nofun, rfl⟩⟩
  · refine ⟨rfl, .inl ⟨⟨_, rfl⟩, ?_⟩⟩
    simp only [quiet, Option.getD_none]
    split <;> rfl

/-- A wait that reports events leaves the debuggee stopped, any other leaves its status alone. -/
private theorem wait_waited {w : World} (h : statusView.fit w) :
    statusView.fit w.wait.2 ∧ Waited w w.wait.1 w.wait.2 := by
  -- a failure of the script comes first, then a debuggee that has stopped, a scripted stop and an interrupt
  unfold wait
  split
  · exact ⟨h, .inr ⟨nofun, rfl⟩⟩
  · split
    · next halted =>
      have stopped : w.status.isRunning = false := by
        simp only [Bool.and_eq_true, Bool.not_eq_true'] at halted
        exact halted.1
      exact ⟨h, .inl ⟨⟨_, rfl⟩, stopped⟩⟩
    · split
      · next s rest stops =>
        have quiet := h.2
        rw [stops] at quiet
        -- the next stop of the script is reported, and it names no status
        have waited := report_waited (w := { w with stops := rest, waiting := false, interrupted := false })
          (quiet s (List.mem_cons_of_mem _ List.mem_cons_self))
        refine ⟨fit_congr waited.1 ⟨h.1, fun s' mem => quiet s' ?_⟩, waited.2⟩
        rcases List.mem_cons.1 mem with rfl | mem
        · exact List.mem_cons_self
        · exact List.mem_cons_of_mem _ (List.mem_cons_of_mem _ mem)
      · split
        · have waited := report_waited (w := { w with waiting := false, interrupted := false })
            (h.2 w.interruptStop List.mem_cons_self)
          exact ⟨fit_congr waited.1 h, waited.2⟩
        · exact ⟨h, .inr ⟨nofun, rfl⟩⟩

/-! ## The law -/

/-- The scripted engine changes its status on request only, and in a native wait. -/
theorem statusView_lawful : statusView.Lawful where
  read w h := by
    -- no scripted failure stands in the way of reading the status
    have read : Ensures (fun w' => w' = w) (Engine.executionStatus : EngineM World _).run
        fun answer _ => answer = .ok w.status := by
      refine Ensures.bindExcept (R := fun answer w' => (∃ u, answer = .ok u) ∧ w' = w) ?_ (fun _ => ?_) ?_
      · refine ensures_looking ?_
        rintro _ rfl
        rw [h.1]
        exact fun _ e => ⟨⟨_, rfl⟩, e⟩
      · refine ensures_looking ?_
        rintro _ ⟨-, rfl⟩
        exact fun _ _ => rfl
      · exact fun _ _ ⟨⟨_, failed⟩, _⟩ => nomatch failed
    exact read w rfl
  inspect h w := ((still_callFrame w).inspectingCall h w ⟨rfl, rfl⟩).leaves
  breakpoint h w := (still_breakpointCall h w w ⟨rfl, rfl⟩).leaves
  symbolGroup kind previous w := ((still_callFrame w).scopeSymbolGroup kind previous w ⟨rfl, rfl⟩).leaves
  releaseGroup g w := Still.leaves ⟨rfl, rfl⟩
  interrupt w := Still.leaves ⟨rfl, rfl⟩
  start h w fit stopped := (goes_of_start h stopped w ⟨rfl, rfl⟩).imp (fit_congr · fit) id
  resume h w fit stopped := (goes_of_resume h stopped w ⟨rfl, rfl⟩).imp (fit_congr · fit) id
  -- a wait either halts the debuggee and reports it, or leaves its status
  fit_wait w h := (wait_waited h).1
  wait_of_stopped w h stopped := by
    rcases (wait_waited h).2 with ⟨-, halted⟩ | ⟨-, same⟩
    · exact halted
    · exact (congrArg ExecutionStatus.isRunning same).trans stopped
  wait_of_unreported w h unreported := by
    rcases (wait_waited h).2 with ⟨⟨events, reported⟩, -⟩ | ⟨-, same⟩
    · exact absurd reported (unreported events)
    · exact congrArg ExecutionStatus.isRunning same
  wait_of_reported w h events reported _ := by
    rcases (wait_waited h).2 with ⟨-, halted⟩ | ⟨unreported, -⟩
    · exact halted
    · exact absurd reported (unreported events)

/-- An engine that was made has no debuggee. -/
theorem statusView_makes : statusView.Makes provider := by
  intro options w h
  have made : Ensures w.Still (provider.create options).run fun answer w' =>
      w'.script = w.script ∧ (answer = .ok () → w'.status.isRunning = false) :=
    Ensures.bindExcept (.of_keeps ((still_callFrame w).recorded _ _)) (fun _ w' h => ⟨h.1, fun _ => rfl⟩)
      fun _ _ h => ⟨h.1, nofun⟩
  exact (made w ⟨rfl, rfl⟩).imp (fit_congr · h) id

end DebugAdapter.Scripted.World
