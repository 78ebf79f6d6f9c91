import DebugAdapter.Proofs.HeldDebuggee
import DebugAdapter.Proofs.KeptFrames
import DebugAdapter.Proofs.RepeatedInspection

/-!
# The stack of a stopped thread

While the debuggee is stopped, a client asks for the stack of a thread again and again, and looks at scopes,
variables and values meanwhile. The first time the frames are registered; after that they are what is known
of the thread, and nothing that is looked at changes this (`Worker.StoppedWith`). So each time the same
frames are listed. Of the engine this takes for granted that the thread can be selected and has the same
stack each time (`Engine.StandsStill`).

## Key results

- `Worker.carriesOut_stackTrace`: the frames of a thread, the first time and every other time
- `Worker.carriesOut_look`: scopes, variables and values
-/

namespace DebugAdapter

variable {σ : Type} [Engine σ]

/-! ## Engines -/

namespace Engine

/-- Make a thread the current one, if it is not. -/
def choose (thread : UInt32) : EngineM σ Unit := do
  if (← currentThread) ≠ thread then setCurrentThread thread

/-- A thread is selected only if it is not the current one. -/
theorem call_choose (thread : UInt32) (s : σ) : (choose thread).call s =
    match (currentThread (σ := σ)).call s with
    | (.error e, s') => (.error e, s')
    | (.ok current, s') =>
      if current ≠ thread then (setCurrentThread thread).call s' else (.ok (), s') := by
  change (match (currentThread (σ := σ)).call s with
    | (r, s') => ExceptT.bindCont (fun current =>
        if current ≠ thread then setCurrentThread thread else pure ()) r s') = _
  rcases (currentThread (σ := σ)).call s with ⟨e | current, s'⟩
  · rfl
  · change (if current ≠ thread then setCurrentThread thread else pure () : EngineM σ Unit).call s' =
      if current ≠ thread then (setCurrentThread thread).call s' else (.ok (), s')
    rw [apply_ite (EngineM.call · s')]
    rfl

/-- The debuggee of an engine is stopped, in all states that are as `K` says, and no look at it leads out of
these. A thread can be selected in all of them, and then its stack is always the same. -/
structure StandsStill (K : σ → Prop) (thread : UInt32) (maxFrames : Nat)
    (stack : Except EngineError (List NativeFrame)) : Prop where
  inspecting : ∀ {α : Type} {m : EngineM σ α}, InspectingCall m → ∀ s, K s → K (m.call s).2
  scopeSymbolGroup : ∀ kind previous s, K s → K ((scopeSymbolGroup kind previous).call s).2
  status : ∀ s, K s → ∀ status, ((executionStatus (σ := σ)).call s).1 = .ok status →
    status.isRunning = false
  selects : ∀ s, K s → ((choose (σ := σ) thread).call s).1 = .ok ()
  stack_eq : ∀ s, K s → ((stackTrace (σ := σ) maxFrames).call ((choose (σ := σ) thread).call s).2).1 = stack

end Engine

/-- The command looks at a frame, or at what is below it. -/
def Command.looks : Command → Bool
  | .scopes _ | .variables _ | .evaluate .. => true
  | _ => false

namespace Worker

/-- The debuggee is stopped, and has not exited. The frames of a thread are known, if they were asked for;
there is none only if the engine has none to tell. -/
structure StoppedWith (K : σ → Prop) (thread : UInt32) (maxFrames : Nat)
    (stack : Except EngineError (List NativeFrame)) (frames? : Option (List (Registered DebugAdapter.Frame)))
    (w : Worker σ) : Prop where
  engine : K w.session.engine
  consistent : w.store.Consistent
  goesOn : w.cancelled = false
  unexited : ∀ code, GatewayEvent.processExited code ∉ w.published
  maxFrames_eq : w.options.maxFrames = maxFrames
  known : ∀ frames, frames? = some frames → w.store.HasStack thread frames
  none : frames? = some [] → stack.toOption.getD [] = []

variable {K : σ → Prop} {thread : UInt32} {maxFrames : Nat} {stack : Except EngineError (List NativeFrame)}
  {frames? : Option (List (Registered DebugAdapter.Frame))} {w : Worker σ}

namespace StoppedWith

omit [Engine σ] in
/-- Only the engine and the store differ, and what is known of the thread is kept. -/
theorem congr {w' : Worker σ} (h : w.StoppedWith K thread maxFrames stack frames?)
    (engine : K w'.session.engine) (consistent : w'.store.Consistent) (goesOn : w'.cancelled = w.cancelled)
    (published : w'.published = w.published) (options : w'.options = w.options)
    (known : ∀ frames, w.store.HasStack thread frames → w'.store.HasStack thread frames) :
    w'.StoppedWith K thread maxFrames stack frames? where
  engine := engine
  consistent := consistent
  goesOn := goesOn.trans h.goesOn
  unexited := published ▸ h.unexited
  maxFrames_eq := options ▸ h.maxFrames_eq
  known frames same := known frames (h.known frames same)
  none := h.none

end StoppedWith

variable (law : Engine.StandsStill K thread maxFrames stack)
include law

/-! ## Looking at scopes, variables and values -/

/-- Showing entities keeps the stack of the stopped thread. -/
theorem showingFrame_stoppedWith :
    ShowingFrame (StoppedWith (σ := σ) K thread maxFrames stack frames?) where
  call inspects _ h := { h with engine := law.inspecting inspects _ h.engine }
  typeNames _ _ h := { h with }
  choose _ id h := h.congr h.engine (h.consistent.setCurrentThread id) rfl rfl rfl
    fun _ known => known.setCurrentThread id
  chooseFrame _ _ live h := h.congr h.engine (h.consistent.setCurrentFrame live) rfl rfl rfl
    fun _ known => known.setCurrentFrame live
  addScope _ parent _ h := h.congr h.engine (h.consistent.add parent _) rfl rfl rfl
    fun _ known => known.add parent nofun
  addVariable _ parent _ h := h.congr h.engine (h.consistent.add parent _) rfl rfl rfl
    fun _ known => known.add parent nofun

/-- The same, as long as a scope is there. -/
private theorem showingFrame_below (scope : Registered Scope) : ShowingFrame fun w : Worker σ =>
    w.StoppedWith K thread maxFrames stack frames? ∧
      w.store.get? scope.handle = some (.scope scope.content) :=
  have F : ShowingFrame (StoppedWith K thread maxFrames stack frames?) := showingFrame_stoppedWith law
  { call := fun inspects w h => ⟨F.call inspects w h.1, h.2⟩
    typeNames := fun w typeNames h => ⟨F.typeNames w typeNames h.1, h.2⟩
    choose := fun w id h => ⟨F.choose w id h.1, h.2⟩
    chooseFrame := fun w frame live h => ⟨F.chooseFrame w frame live h.1, h.2⟩
    addScope := fun w parent c h =>
      ⟨F.addScope w parent c h.1, (Store.grown_add _ parent _).get?_eq h.1.consistent h.2⟩
    addVariable := fun w parent v h =>
      ⟨F.addVariable w parent v h.1, (Store.grown_add _ parent _).get?_eq h.1.consistent h.2⟩ }

/-- What is below a scope may be removed; the scope and all frames stay. -/
private theorem keeps_scopeVariables_below (scope : Registered Scope) :
    Keeps (fun w : Worker σ => w.StoppedWith K thread maxFrames stack frames? ∧
      w.store.get? scope.handle = some (.scope scope.content)) (scopeVariables scope) := by
  let I := fun w : Worker σ => w.StoppedWith K thread maxFrames stack frames? ∧
    w.store.get? scope.handle = some (.scope scope.content)
  have F : ShowingFrame I := showingFrame_below law scope
  refine keeps_scopeVariables (J := fun _ _ => I) scope F.selectFrame ?_ ?_ ?_
    (fun _ _ => F.ask? (.groupCount _)) (fun _ _ => ?_) fun _ g => F.materialize scope.handle g
  · exact fun key w h => ⟨{ h.1 with }, h.2⟩
  · intro key previous
    have asked : Keeps I (ask? (Engine.scopeSymbolGroup scope.content.kind previous)) :=
      fun w h => ⟨{ h.1 with engine := law.scopeSymbolGroup _ _ _ h.1.engine }, h.2⟩
    refine (Ensures.of_keeps asked).mono (fun _ h => h) fun group w h => ?_
    cases group <;> exact h
  · exact fun key g count w h => ⟨{ h.1 with }, h.2⟩
  · refine .modify fun w h => ⟨?_, ?_⟩
    · -- what is removed is below the scope, and the frames are above it
      exact h.1.congr h.1.engine (h.1.consistent.removeChildren scope.handle) rfl rfl rfl
        fun _ known => known.removeChildren (Store.mem_handlesOf_of_get? h.2)
    · exact (h.1.consistent.get?_removeChildren_self scope.handle).trans h.2

/-- The commands that look at frames, and at what is below them. -/
theorem keeps_look {c : Command} (looks : c.looks = true) :
    Keeps (StoppedWith K thread maxFrames stack frames?) (execute c) := by
  have F : ShowingFrame (StoppedWith K thread maxFrames stack frames?) := showingFrame_stoppedWith law
  -- of the commands that look, only the variables of a scope change the groups
  cases c with
  | scopes frame => exact (F.scopes frame).bind fun _ => .pure _
  | evaluate expression frame => exact (F.evaluate expression frame).bind fun _ => .pure _
  | «variables» reference =>
    refine Keeps.bind (fun w h => ?_) fun _ => .pure _
    rw [run_variablesBelow]
    split
    · next c is => exact (keeps_scopeVariables_below law ⟨reference, c⟩ w ⟨h, is⟩).1
    · next x is => exact F.expand ⟨reference, x⟩ w h
    · exact h
  | _ => cases looks

/-- A worker with a stopped debuggee does not wait for a stop. -/
theorem idles_stoppedWith : Idles (StoppedWith (σ := σ) K thread maxFrames stack frames?) :=
  .of_calls (showingFrame_stoppedWith law).toCallFrame (fun _ h => law.status _ h.engine)
    fun _ h => h.goesOn

/-- Scopes, variables and values are shown, and the frames of the thread stay what they are. -/
theorem carriesOut_look {c : Command} (looks : c.looks = true) :
    CarriesOut (StoppedWith K thread maxFrames stack frames?) (fun _ _ => False)
      (fun _ => StoppedWith K thread maxFrames stack frames?) c := by
  refine .of_answered fun w h => ?_
  have kept := keeps_look law looks w h
  cases c with
  | scopes | evaluate | «variables» => exact ⟨_, rfl, kept⟩
  | _ => cases looks

/-! ## The stack -/

omit law in
/-- A look is a call that inspects. -/
private theorem inspectingCall_of_look {α : Type} {m : EngineM σ α} (h : LookCall m ∨ GroupCall m) :
    InspectingCall m := by
  rcases h with look | group
  · cases look with
    | read h => exact .data h.data
    | _ => constructor
  · cases group <;> constructor

omit law in
/-- If the engine selects a thread, it is the current one of the store as well. -/
private theorem run_selectThread_of_ok {engine : σ}
    (selected : (Engine.choose thread).call w.session.engine = (.ok (), engine)) :
    (selectThread thread).run.run w = (.ok (), { w with
      session := { w.session with engine }
      store := w.store.setCurrentThread thread }) := by
  have passes : Passes (Eq w.session.engine) (selectThread thread).run (.ok ())
      (Store.choose (some thread) none) (Eq engine) := by
    rw [Engine.call_choose] at selected
    -- a single call passes what it does
    have answers : ∀ {s s' : σ} {α : Type} {m : EngineM σ α} {a : Except EngineError α},
        m.call s = (a, s') → m.Answers (Eq s) a (Eq s') := by
      rintro s s' α m a call _ rfl
      exact ⟨congrArg Prod.fst call, (congrArg Prod.snd call).symm⟩
    -- the engine is asked which thread is the current one, and selects another one only if it has to
    rcases asked : (Engine.currentThread (σ := σ)).call w.session.engine with ⟨e | current, s⟩
    · rw [asked] at selected
      cases selected
    rw [asked] at selected
    have asks := answers asked
    refine Passes.bindOk (g := Store.choose (some thread) none) (.require asks) ?_
    dsimp only at selected
    split at selected
    · next other =>
      have selects := answers selected
      rw [if_pos other]
      exact Passes.bindOk (g := Store.choose (some thread) none) (.require selects) (.modifyStore _)
    · next same =>
      obtain rfl : s = engine := congrArg Prod.snd selected
      rw [if_neg same]
      exact .modifyStore _
  obtain ⟨_, rfl, run⟩ := passes w rfl
  exact run

/-- The thread is selected and has a handle, and then its frames are listed or looked up. -/
private theorem exists_listing (h : w.StoppedWith K thread maxFrames stack frames?) :
    ∃ holder w', (stackTrace thread).run w = (listOr (·.framesOf holder) (lookUpStack holder)).run w' ∧
      w'.StoppedWith K thread maxFrames stack frames? ∧ w'.store.threadHandles.get? thread = some holder ∧
      ((Engine.stackTrace (σ := σ) w'.options.maxFrames).call w'.session.engine).1 = stack := by
  have selected : (Engine.choose thread).call w.session.engine =
      (.ok (), ((Engine.choose (σ := σ) thread).call w.session.engine).2) :=
    Prod.ext (law.selects _ h.engine) rfl
  have run := run_selectThread_of_ok selected
  have chosen := (showingFrame_stoppedWith law).selectThread thread w h
  rw [run] at chosen
  refine ⟨_, _, run_stackTrace_ok run, ?_, addThread_known _ thread (threadName thread),
    h.maxFrames_eq ▸ law.stack_eq _ h.engine⟩
  exact chosen.congr chosen.engine (chosen.consistent.addThread thread (threadName thread)) rfl rfl rfl
    fun _ known => known.addThread (threadName thread)

/-- The frames of the thread are listed: those that are known, or else those that the engine tells. -/
private theorem ensures_stack :
    Ensures (StoppedWith K thread maxFrames stack frames?) (stackTrace thread) fun frames w =>
      (∀ known, frames? = some known → known = frames) ∧
        w.StoppedWith K thread maxFrames stack (some frames) := by
  intro w h
  obtain ⟨holder, w₁, listing, h₁, known, told⟩ := exists_listing law h
  have fills := fills_lookUpStack (P := K) (fun call => law.inspecting (inspectingCall_of_look call)) stack holder
  -- the thread is known and its stack can be asked for
  have ready : holder ∈ w₁.store.handlesOf .thread ∧
      ((Engine.stackTrace (σ := σ) w₁.options.maxFrames).call w₁.session.engine).1 = stack :=
    ⟨mem_threads_of_known h₁.consistent known, told⟩
  obtain ⟨found, w₂, run₂, there, beside, grown, listed, empty⟩ :=
    exists_run_listOr fills h₁.engine h₁.consistent ready
  -- frames that are known are listed again, unless there are none and the engine has none either
  have again : ∀ frames, frames? = some frames → frames = found := by
    intro frames same
    obtain ⟨w₃, run₃, -⟩ := run_listOr_again fills h₁.engine h₁.consistent ready
      ((h₁.known frames same).framesOf_eq known) fun none => h₁.none (none ▸ same)
    exact congrArg Prod.fst (run₃.symm.trans run₂)
  -- from now on the frames are known
  have stopped : w₂.StoppedWith K thread maxFrames stack (some found) := by
    have known' : w₂.store.threadHandles.get? thread = some holder := by
      rw [grown.threadHandles_eq]
      exact known
    obtain ⟨engine', typeNames, store, rfl⟩ := beside
    exact
      { engine := there
        consistent := grown.consistent h₁.consistent
        goesOn := h₁.goesOn
        unexited := h₁.unexited
        maxFrames_eq := h₁.maxFrames_eq
        known := fun frames same => by
          obtain rfl := Option.some.inj same
          exact listed ▸ .of_known (grown.consistent h₁.consistent) known'
        none := fun none => empty (Option.some.inj none) }
  rw [listing, run₂]
  exact ⟨again, stopped⟩

/-- The stack is listed as the engine tells it, and the same again if it is known. -/
theorem carriesOut_stackTrace :
    CarriesOut (StoppedWith K thread maxFrames stack frames?) (fun _ _ => False)
      (fun r w => ∃ frames, r = .frames frames ∧ (∀ known, frames? = some known → known = frames) ∧
        w.StoppedWith K thread maxFrames stack (some frames)) (.stackTrace thread) :=
  .of_answered fun w h => ⟨_, rfl, _, rfl, ensures_stack law w h⟩

end Worker

end DebugAdapter
