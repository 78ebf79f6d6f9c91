import DebugAdapter.Proofs.HeldDebuggee
import DebugAdapter.Proofs.ScriptedFrame

/-!
# The debuggees of scripted engines

A scripted engine holds the debuggee that it has started until that is let run. Meanwhile it answers from
tables that do not change, and changes its breakpoints on request only. The debuggee was let run if a call
is recorded by which it was to run.

## Key results

- `Scripted.World.LastingFrame.keptByCalls`: what is kept whatever becomes of the debuggee
- `Scripted.World.debuggeeView_answering`, `Scripted.World.debuggeeView_lawful`: the scripted engine meets
  what is taken for granted of an engine
- `Scripted.World.debuggeeView_makes`: so do the engines that the scripted provider makes
-/

namespace DebugAdapter.Scripted.World

/-! ## What lasts -/

/-- What holds of a world is kept whichever debuggee there is, and whatever it does. -/
structure LastingFrame (I : World → Prop) : Prop extends CallFrame I where
  moves : ∀ w pid status, I w → I { w with pid, status }
  waits : ∀ w stops initial waiting interrupted, I w → I { w with stops, initial, waiting, interrupted }
  reports : ∀ w threads currentThread status, I w → I { w with threads, currentThread, status }
  drops : ∀ w dropped orderly, I w → I { w with dropped, orderly }

namespace LastingFrame

variable {I : World → Prop} (F : LastingFrame I)
include F

/-- Reporting a stop keeps what lasts. -/
private theorem report (w : World) (s : Stop) (h : I w) : I (w.report s).2 := by
  unfold World.report
  split
  · exact h
  · exact F.reports w _ _ _ h

/-- A wait keeps what lasts. -/
private theorem wait (w : World) (h : I w) : I w.wait.2 := by
  unfold World.wait
  split
  · exact F.waits w w.stops w.initial false false h
  · split
    · exact F.waits w w.stops [] w.waiting w.interrupted h
    · split
      · exact F.report _ _ (F.waits w _ w.initial false false h)
      · split
        · exact F.report _ _ (F.waits w w.stops w.initial false false h)
        · exact F.waits w w.stops w.initial true w.interrupted h

/-- What lasts is kept by all calls but those that change breakpoints or hand out symbols. -/
theorem keptByCalls : KeptByCalls I where
  ordinary h w hw := F.ordinaryCall F.moves h w hw
  wait := F.wait
  interrupt w h := F.waits w w.stops w.initial w.waiting w.waiting h
  endSession w h := ((F.recorded "end_session" .endSession).bindExcept fun _ =>
    keeps_changing fun w h => F.moves w w.pid .noDebuggee h) w h
  releaseGroup _ w h := F.groups w _ h
  release w h := F.drops w _ _ h

end LastingFrame

/-! ## Calls that the script does not let fail -/

section

variable {w : World} {name : String} (silent : w.failures.find? (·.1 == name) = none) {α : Type}
include silent

/-- With no failure scripted, a question is answered from the world. -/
theorem call_asking_silent (k : World → EngineM World α) :
    (do scriptedFailure name; k (← get)).call w = (k w).call w := by
  have passed : (scriptedFailure name).call w = (.ok (), w) := by
    have looked : ∀ k : World → EngineM World Unit, (get >>= k).call w = (k w).call w := fun _ => rfl
    rw [scriptedFailure, looked, silent]
    rfl
  let rest : Unit → EngineM World α := fun _ => do k (← get)
  have chained : (scriptedFailure name >>= rest).call w =
      ExceptT.bindCont rest ((scriptedFailure name).call w).1 ((scriptedFailure name).call w).2 := rfl
  rw [chained, passed]
  rfl

/-- With no failure scripted, a recorded call is logged and goes on. -/
theorem call_recorded_silent (c : Call) (k : EngineM World α) :
    (do recorded name c; k).call w = k.call (w.log c) :=
  call_asking_silent (w := w.log c) silent fun _ => k

end

/-- A call that is refused under a condition changes the world otherwise. -/
theorem call_changing_unless (c : World → Prop) [∀ w, Decidable (c w)] (s : StatusWord)
    (f : World → World) (w : World) : (do if c (← get) then failWith s
                                          modify f : EngineM World Unit).call w =
      if c w then (.error (.status s), w) else (.ok (), f w) := by
  have looked : ∀ k : World → EngineM World Unit, (get >>= k).call w = (k w).call w := fun _ => rfl
  rw [looked]
  by_cases refused : c w
  · rw [if_pos refused, if_pos refused]
    rfl
  · rw [if_neg refused, if_neg refused]
    rfl

/-! ## Breakpoints by their ids -/

/-- The first breakpoint is found by its id, and the others are found behind it. -/
private theorem lookup_cons (b : UInt32 × UInt64) (l : List (UInt32 × UInt64)) (i : UInt32) :
    (b :: l).lookup i = if i = b.1 then some b.2 else l.lookup i := by
  rw [List.lookup_cons]
  by_cases same : i = b.1
  · rw [if_pos same, beq_iff_eq.2 same]
  · rw [if_neg same, beq_eq_false_iff_ne.2 same]

/-- A breakpoint that was inserted is found by its id, and the others are found as before. -/
private theorem lookup_insertBreakpoint (id : UInt32) (offset : UInt64) (l : List (UInt32 × UInt64))
    (i : UInt32) : (insertBreakpoint id offset l).lookup i = if i = id then some offset else l.lookup i := by
  -- induction on the breakpoints, which are sorted by id
  induction l with
  | nil => rw [insertBreakpoint, lookup_cons]
  | cons b l ih =>
    rw [insertBreakpoint]
    split
    · rw [lookup_cons]
    · split
      · next same =>
        rw [lookup_cons, lookup_cons, ← same]
        split <;> rfl
      · next other =>
        rw [lookup_cons, lookup_cons, ih]
        by_cases first : i = b.1
        · rw [if_pos first, if_pos first, if_neg fun same => other (same.symm.trans first)]
        · rw [if_neg first, if_neg first]

/-- A breakpoint that was removed is not found, and the others are found as before. -/
private theorem lookup_filter (id : UInt32) (l : List (UInt32 × UInt64)) (i : UInt32) :
    (l.filter (·.1 != id)).lookup i = if i = id then none else l.lookup i := by
  induction l with
  | nil => simp
  | cons b l ih =>
    rw [lookup_cons, List.filter_cons]
    by_cases gone : b.1 = id
    · rw [if_neg (by simp [gone]), ih, gone]
      split <;> rfl
    · rw [if_pos (by simp [gone]), lookup_cons, ih]
      by_cases first : i = b.1
      · rw [if_pos first, if_pos first, if_neg fun same => gone (first.symm.trans same)]
      · rw [if_neg first, if_neg first]

/-! ## The view -/

/-- The script lets nothing fail but the removal of breakpoints. -/
def Obliging (w : World) : Prop :=
  ∀ f ∈ w.failures, f.1 = "remove_breakpoint"

/-- A world has the tables of another one. The debuggee has not been let run, and no wait for it is under
way. -/
structure Standing (w₀ : World) (status : ExecutionStatus) (w : World) : Prop where
  failures : w.failures = w₀.failures
  lines : w.lines = w₀.lines
  badOffsets : w.badOffsets = w₀.badOffsets
  threads : w.threads = w₀.threads
  status_eq : w.status = status
  waiting : w.waiting = false
  unresumed : w.calls.any Call.resumes = false

/-- A scripted engine with the tables of a world, which holds its debuggee until that is let run. -/
def debuggeeView (w₀ : World) : DebuggeeView World where
  offset? w id := w.breakpoints.lookup id
  vacant := Standing w₀ .noDebuggee
  begun := Standing w₀ .stopped
  held := Standing w₀ .stopped
  released w := w.calls.any Call.resumes = true

/-- What a scripted engine answers from the tables of a world. -/
def heldAnswers (w₀ : World) : HeldAnswers where
  code file line := (w₀.lines.find? fun l => l.1 == file && l.2.1 == line).map (·.2.2)
  takes offset := !w₀.badOffsets.contains offset
  threads := some w₀.threads
  goes := true

/-- Which breakpoints there are lasts through all other calls. -/
private theorem lastingFrame_breakpoints (offset? : UInt32 → Option UInt64) :
    LastingFrame fun w => (fun id => w.breakpoints.lookup id) = offset? := by
  constructor
  case toCallFrame => constructor <;> exact fun _ _ h => h
  all_goals
    intros
    assumption

/-- That the debuggee was let go lasts. -/
private theorem lastingFrame_released : LastingFrame fun w => w.calls.any Call.resumes = true := by
  constructor
  case toCallFrame =>
    constructor
    case log =>
      intro w c h
      rw [log, List.any_cons, h, Bool.or_true]
    all_goals exact fun _ _ h => h
  all_goals
    intros
    assumption

/-- A call that inspects may be logged. -/
private theorem Standing.log {w₀ w : World} {status : ExecutionStatus} (h : w₀.Standing status w) {c : Call}
    (inspects : c.resumes = false) : w₀.Standing status (w.log c) :=
  { h with unresumed := by rw [World.log, List.any_cons, inspects, Bool.false_or, h.unresumed] }

/-- Calls that inspect leave the debuggee as it is. -/
private theorem inspectFrame_standing (w₀ : World) (status : ExecutionStatus) :
    InspectFrame (w₀.Standing status) where
  log _ _ inspects h := h.log inspects
  typeNameCalls _ _ h := { h with }
  memory _ _ h := { h with }
  currentThread _ _ h := { h with }
  frameIndex _ _ h := { h with }

/-! ## The law -/

section

variable {w₀ w : World} {status : ExecutionStatus} (obliging : w₀.Obliging)

section

variable (h : w₀.Standing status w)
include obliging h

/-- No call but the removal of a breakpoint has a failure scripted. -/
private theorem Standing.silent {name : String} (other : name ≠ "remove_breakpoint") :
    w.failures.find? (·.1 == name) = none := by
  rw [h.failures, List.find?_eq_none]
  intro f mem named
  exact other ((beq_iff_eq.1 named).symm.trans (obliging f mem))

/-- The status is told. -/
private theorem Standing.executionStatus :
    (Engine.executionStatus (σ := World)).call w = (.ok status, w) := by
  have silent : w.failures.find? (·.1 == "execution_status") = none := h.silent obliging (by decide)
  have asked := call_asking_silent silent (fun w => pure w.status)
  rw [← h.status_eq]
  exact asked

/-- Clearing the breakpoints leaves none. -/
private theorem Standing.clearBreakpoints :
    (Engine.clearBreakpoints (σ := World)).call w =
      (.ok (), { w.log .clearBreakpoints with breakpoints := [] }) :=
  call_recorded_silent (h.silent obliging (by decide)) _ _

/-- A process that is created has stopped. -/
private theorem Standing.createProcess (commandLine : String) :
    (Engine.createProcess (σ := World) commandLine).call w =
      (.ok (), { w.log (.createProcess commandLine) with status := .stopped }) :=
  call_recorded_silent (h.silent obliging (by decide)) _ _

/-- The offset of a line is told if it has code. -/
private theorem Standing.offsetByLine (file : String) (line : UInt32) :
    ((Engine.offsetByLine (σ := World) file line).call w).1.toOption =
      (heldAnswers w₀).code file line := by
  have asked : (Engine.offsetByLine (σ := World) file line).call w = _ :=
    call_asking_silent (h.silent obliging (by decide)) _
  rw [asked, heldAnswers, ← h.lines]
  dsimp only
  cases w.lines.find? fun l => l.1 == file && l.2.1 == line <;> rfl

/-- The threads are told. -/
private theorem Standing.threadIds :
    (Engine.threadIds (σ := World)).call w = (.ok w.threads, w) :=
  call_asking_silent (h.silent obliging (by decide)) _

/-- A breakpoint is refused at the offsets that the script calls bad, and at no other. -/
private theorem Standing.addCodeBreakpoint (id : UInt32) (offset : UInt64) :
    (Engine.addCodeBreakpoint (σ := World) id offset).call w =
      if w.badOffsets.contains offset then (.error (.status .fail), w.log (.addCodeBreakpoint id offset))
      else (.ok (), { w.log (.addCodeBreakpoint id offset) with
        breakpoints := insertBreakpoint id offset w.breakpoints }) :=
  (call_recorded_silent (h.silent obliging (by decide)) _ _).trans
    (call_changing_unless (fun w => w.badOffsets.contains offset = true) _ _ _)

/-- A debuggee that is there goes on. -/
private theorem Standing.go (debuggee : status ≠ .noDebuggee) :
    (Engine.setExecutionStatus (σ := World) .go).call w =
      (.ok (), { w.log (.setExecutionStatus .go) with status := .go }) := by
  refine (call_recorded_silent (h.silent obliging (by decide)) _ _).trans ?_
  refine (call_changing_unless (fun w => w.status = .noDebuggee) _ _ _).trans (if_neg ?_)
  rw [World.log, h.status_eq]
  exact debuggee

end

include obliging

/-- A wait for a debuggee that has stopped returns at once. -/
private theorem Standing.wait (h : w₀.Standing .stopped w) :
    w.wait = (some (.ok w.initial), { w with initial := [] }) := by
  rw [World.wait, h.silent obliging (by decide), h.status_eq, h.waiting]
  rfl

/-- A scripted engine whose script lets nothing fail but the removal of breakpoints holds its debuggee until
that is let run. -/
theorem debuggeeView_answering : (debuggeeView w₀).Answering (heldAnswers w₀) where
  offsets offset? := (lastingFrame_breakpoints offset?).keptByCalls
  released := lastingFrame_released.keptByCalls
  inspecting inspects w := ⟨(inspectFrame_standing w₀ _).inspectingCall inspects w,
    (inspectFrame_standing w₀ _).inspectingCall inspects w⟩
  -- a debuggee that stands still says so, before and after its start
  status := by
    rintro w (h | h) status answer
    · rw [h.executionStatus obliging] at answer
      cases answer
      rfl
    · rw [h.executionStatus obliging] at answer
      cases answer
      rfl
  clear := by
    intro w h none
    rw [h.clearBreakpoints obliging]
    exact ⟨{ h.log rfl with }, rfl⟩
  create := by
    intro w commandLine h _
    rw [h.createProcess obliging commandLine]
    exact { h.log rfl with status_eq := rfl }
  unstopped := by
    intro w h none
    change w.wait.1 = _ at none
    rw [h.wait obliging] at none
    cases none
  stopped := by
    intro w events h _
    change w₀.Standing .stopped w.wait.2
    rw [h.wait obliging]
    exact { h with }
  code := fun _ file line h => h.offsetByLine obliging file line
  threads := by
    intro w h
    rw [h.threadIds obliging, heldAnswers, ← h.threads]
    rfl
  add := by
    intro w id offset h _
    have takes : (heldAnswers w₀).takes offset = !w.badOffsets.contains offset := by
      rw [heldAnswers, h.badOffsets]
    rw [h.addCodeBreakpoint obliging id offset, takes]
    -- a breakpoint at a bad offset is refused
    cases w.badOffsets.contains offset with
    | true => exact ⟨rfl, h.log rfl, rfl⟩
    | false =>
      refine ⟨rfl, { h.log rfl with }, funext fun i => ?_⟩
      have updated := Function.update_apply (fun i => w.breakpoints.lookup i) id (some offset) i
      exact (lookup_insertBreakpoint id offset w.breakpoints i).trans updated.symm
  go := by
    intro w h
    rw [h.go obliging nofun]
    exact ⟨rfl, rfl⟩
  -- a debuggee is held or let run, and not both
  apart := by
    intro w h released
    exact Bool.false_ne_true (h.unresumed.symm.trans released)

omit obliging in
/-- If the script lets nothing fail, breakpoints are removed on request, too. -/
theorem debuggeeView_lawful (silent : w₀.failures = []) : (debuggeeView w₀).Lawful (heldAnswers w₀) where
  toAnswering := debuggeeView_answering fun f mem => by
    rw [silent] at mem
    exact absurd mem List.not_mem_nil
  remove := by
    intro w id h _
    have removed : (Engine.removeBreakpoint (σ := World) id).call w =
        (.ok (), { w.log (.removeBreakpoint id) with breakpoints := w.breakpoints.filter (·.1 != id) }) :=
      call_recorded_silent (by rw [h.failures, silent]; rfl) _ _
    rw [removed]
    refine ⟨{ h.log rfl with }, funext fun i => ?_⟩
    have updated := Function.update_apply (fun i => w.breakpoints.lookup i) id none i
    exact (lookup_filter id w.breakpoints i).trans updated.symm

end

/-- An engine that was made in a new world has neither a debuggee nor breakpoints. -/
theorem debuggeeView_makes {w : World} (silent : w.failures.find? (·.1 == "create") = none)
    (waiting : w.waiting = false) (uncalled : w.calls = []) (unset : w.breakpoints = [])
    (options : EngineOptions) :
    w.debuggeeView.vacant ((provider.create options).call w).2 ∧
      w.debuggeeView.offset? ((provider.create options).call w).2 = fun _ => none := by
  -- the call is recorded, and the engine has no debuggee yet
  have made : (provider.create options).call w = (.ok (),
      { w.log (.create options.enginePath) with status := .noDebuggee, engines := w.engines + 1 }) :=
    call_recorded_silent silent _ _
  rw [made]
  refine ⟨⟨rfl, rfl, rfl, rfl, rfl, waiting, ?_⟩, funext fun id => ?_⟩
  · change (Call.create options.enginePath :: w.calls).any Call.resumes = false
    rw [uncalled]
    rfl
  · change w.breakpoints.lookup id = none
    rw [unset]
    rfl

end DebugAdapter.Scripted.World
