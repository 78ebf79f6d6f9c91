import DebugAdapter.Proofs.InspectionFrame
import DebugAdapter.Proofs.ScriptedViews

/-!
# The frame in which a value is computed

An expression means what its names mean in a frame. So before one is evaluated, or its value is written
into a variable, the frame is made the current one of the engine, and the thread on whose stack it is. The
engine is seen by what it has selected (`SelectionView`). On an engine that selects what it is told to, and
nothing else, the value is computed in that frame as soon as the engine accepts the selection.

The frame of a variable is looked for on the way up from it, which is followed over fewer than
`Store.maxAncestorDepth` holders.

## Key results

- `Store.Consistent.frameOf_of_rises`: the frame above an entity is found if it is near enough
- `Observed.run_computesInFrame`: what is selected when a value is computed, and until it is written
-/

namespace DebugAdapter

/-! ## The way up to a frame -/

namespace Store

variable {s : Store} {a h : Handle} {n : Nat}

/-- From `h` it is `n` steps up to `a`, each to what holds the entity. -/
inductive Rises (s : Store) (a : Handle) : Nat → Handle → Prop
  | refl : Rises s a 0 a
  | step {n : Nat} {h p : Handle} : s.parent? h = some p → Rises s a n p → Rises s a (n + 1) h

/-- What is above a frame is a thread, so a frame is not above another one. -/
theorem Consistent.not_frame_of_rises (hs : s.Consistent) (frame : a ∈ s.handlesOf .frame)
    (rises : s.Rises a (n + 1) h) : h ∉ s.handlesOf .frame := by
  intro is
  have only : ∀ k : EntityKind, k.mayHold .frame = true → k = .thread := by
    intro k
    cases k <;> decide
  obtain ⟨p, held, thread, -⟩ :=
    hs.exists_holder is (by decide) (by decide : EntityKind.thread ≠ .frame) only
  -- one step up is a thread, and there is no second one
  cases rises with
  | step held' rises =>
    obtain rfl : p = _ := Option.some.inj (held.symm.trans held')
    cases rises with
    | refl => cases hs.kind_unique frame thread
    | step root _ =>
      -- a thread is held by nothing
      obtain ⟨k, child, mem⟩ := hs.parent_iff.1 ⟨_, root⟩
      exact child (hs.kind_unique mem thread)

/-- Climbing finds a frame that is near enough. -/
private theorem Consistent.climb_of_rises (hs : s.Consistent) (frame : a ∈ s.handlesOf .frame)
    (rises : s.Rises a n h) {depth : Nat} (near : n < depth) : s.climb .frame depth h = some a := by
  induction rises generalizing depth with
  | refl =>
    obtain ⟨depth, rfl⟩ : ∃ d, depth = d + 1 := ⟨depth - 1, by omega⟩
    rw [climb, if_pos (hs.kindOf?_eq_some_iff.2 frame)]
  | step held rises ih =>
    obtain ⟨depth, rfl⟩ : ∃ d, depth = d + 1 := ⟨depth - 1, by omega⟩
    have other : s.kindOf? _ ≠ some .frame := fun known =>
      hs.not_frame_of_rises frame (.step held rises) (hs.kindOf?_eq_some_iff.1 known)
    rw [climb, if_neg other, held, Option.bind_some]
    exact ih (by omega)

/-- Climbing finds nothing if the frame is too far away. -/
private theorem Consistent.climb_eq_none_of_rises (hs : s.Consistent) (frame : a ∈ s.handlesOf .frame)
    (rises : s.Rises a n h) {depth : Nat} (far : depth ≤ n) : s.climb .frame depth h = none := by
  -- induction on the way up, which passes no other frame
  induction rises generalizing depth with
  | refl =>
    obtain rfl : depth = 0 := by omega
    rfl
  | step held rises ih =>
    cases depth with
    | zero => rfl
    | succ depth =>
      have other : s.kindOf? _ ≠ some .frame := fun known =>
        hs.not_frame_of_rises frame (.step held rises) (hs.kindOf?_eq_some_iff.1 known)
      rw [climb, if_neg other, held, Option.bind_some]
      exact ih (by omega)

/-- The frame above an entity is found if fewer steps lead to it than are made. -/
theorem Consistent.frameOf_of_rises (hs : s.Consistent) {f : Frame} (live : s.frameAt? a = some f)
    (rises : s.Rises a n h) (near : n < maxAncestorDepth) : s.frameOf h = a := by
  have frame : a ∈ s.handlesOf .frame := mem_handlesOf_of_get? (hs.frameAt?_iff.1 live)
  rw [frameOf, ancestor, hs.climb_of_rises frame rises near, Option.getD_some]

/-- Otherwise the entity counts as its own frame. -/
theorem Consistent.frameOf_of_far (hs : s.Consistent) {f : Frame} (live : s.frameAt? a = some f)
    (rises : s.Rises a n h) (far : maxAncestorDepth ≤ n) : s.frameOf h = h := by
  have frame : a ∈ s.handlesOf .frame := mem_handlesOf_of_get? (hs.frameAt?_iff.1 live)
  rw [frameOf, ancestor, hs.climb_eq_none_of_rises frame rises far, Option.getD_none]

end Store

namespace Worker

variable {σ : Type} [Engine σ] {V : SelectionView σ}

/-! ## Selecting a frame -/

omit [Engine σ] in
/-- What is required of the engine is what it has answered. -/
private theorem ensures_required {ε α : Type} (failure : EngineError → ε) {m : EngineM σ α} {P : σ → Prop}
    {Q : α → σ → Prop} (hm : ∀ s, P s → ∀ a, (m.call s).1 = .ok a → Q a (m.call s).2) :
    Ensures (fun w : Worker σ => P w.session.engine) (Worker.require failure m).run fun r w =>
      ∀ a, r = .ok a → Q a w.session.engine := by
  -- what is known after an answer is known of answers that are accepted
  have asked : Ensures (fun w : Worker σ => P w.session.engine)
      (ExceptT.lift (Worker.ask m) : ExceptT ε (WorkerM σ) _).run fun r w =>
        ∀ answer, r = .ok answer → ∀ a, answer = .ok a → Q a w.session.engine := by
    intro w hw answer given a accepted
    obtain rfl := Except.ok.inj given
    exact hm _ hw a accepted
  refine asked.bindExcept (fun answer => ?_) fun e w _ a failed => by cases failed
  cases answer with
  | error e => exact .pure fun w _ a failed => by cases failed
  | ok a' =>
    refine .pure fun w hw a given => ?_
    obtain rfl := Except.ok.inj given
    exact hw _ rfl a' rfl

/-- A thread that was selected without an error is the current one. -/
private theorem ensures_threadSelected (law : V.Lawful) (thread : UInt32) :
    Ensures (fun _ => True) (selectThread (σ := σ) thread).run fun r w =>
      r = .ok () → V.thread w.session.engine = thread := by
  have chosen : Ensures (fun w : Worker σ => V.thread w.session.engine = thread)
      (ExceptT.lift (modifyStore (·.setCurrentThread thread)) :
        ExceptT EngineError (WorkerM σ) Unit).run fun r w =>
      r = .ok () → V.thread w.session.engine = thread :=
    fun w hw _ => hw
  refine (ensures_required (P := fun _ => True) (Q := fun id s => V.thread s = id) id
    fun s _ id told => law.currentThread s id told).bindExcept (fun current => ?_)
    fun e w _ failed => by cases failed
  -- a thread that is current already is not selected again
  refine .iteExcept (fun _ => ?_) fun same => ?_
  · refine Ensures.bindExcept (R := fun r w => ∀ u, r = .ok u → V.thread w.session.engine = thread)
      ?_ (fun u => ?_) fun e w _ failed => by cases failed
    · exact (ensures_required (P := fun _ => True) (Q := fun _ s => V.thread s = thread) id
        fun s _ _ accepted => law.setCurrentThread s thread accepted).mono (fun _ _ => trivial)
          fun _ _ h => h
    · exact chosen.mono (fun w hw => hw u rfl) fun _ _ h => h
  · obtain rfl : current = thread := not_not.1 same
    exact chosen.mono (fun w hw => hw current rfl) fun _ _ h => h

/-- A frame that was chosen without an error is the current one, in its thread. -/
private theorem ensures_frameSelected (law : V.Lawful) (thread order : UInt32) (frame : Handle) :
    Ensures (fun _ => True) (chooseFrame (σ := σ) thread order frame).run fun r w =>
      r.isOk = true → V.thread w.session.engine = thread ∧ V.frame w.session.engine = order := by
  -- the store is written to last, and the engine is not asked
  have chosen : Ensures (fun w : Worker σ => V.thread w.session.engine = thread ∧
        V.frame w.session.engine = order) (do
        ExceptT.lift (modifyStore (·.setCurrentFrame frame))
        return some (thread, order) : ExceptT EngineError (WorkerM σ) _).run fun r w =>
      r.isOk = true → V.thread w.session.engine = thread ∧ V.frame w.session.engine = order :=
    fun w hw _ => hw
  have failed : ∀ (e : EngineError) (w : Worker σ),
      (Except.error e : Except EngineError (Option (UInt32 × UInt32))).isOk = true →
        V.thread w.session.engine = thread ∧ V.frame w.session.engine = order :=
    fun e w ok => absurd ok Bool.false_ne_true
  -- thread first: what the frame index says is about that thread
  refine (ensures_threadSelected law thread).bindExcept (fun u => ?_) fun e w _ => failed e w
  have told := ensures_required (σ := σ) (P := fun s => V.thread s = thread)
    (Q := fun index s => V.frame s = index ∧ V.thread s = thread) (id : EngineError → EngineError)
    fun s selected index told => (law.currentFrameIndex s index told).imp_right (·.trans selected)
  refine (told.mono (fun w hw => hw rfl) fun _ _ h => h).bindExcept (fun index => ?_)
    fun e w _ => failed e w
  -- the frame is selected if another one is, and is the right one already if not
  refine .iteExcept (fun _ => ?_) fun same => ?_
  · have moved := ensures_required (σ := σ) (P := fun s => V.thread s = thread)
      (Q := fun _ s => V.frame s = order ∧ V.thread s = thread) (id : EngineError → EngineError)
      fun s selected _ accepted => (law.setFrameIndex s order accepted).imp_right (·.trans selected)
    refine (moved.mono (fun w hw => (hw index rfl).2) fun _ _ h => h).bindExcept (fun u => ?_)
      fun e w _ => failed e w
    exact chosen.mono (fun w hw => (hw u rfl).symm) fun _ _ h => h
  · obtain rfl : index = order := not_not.1 same
    exact chosen.mono (fun w hw => (hw index rfl).symm) fun _ _ h => h

/-- What the calls keep by which a frame is selected is kept when one is to be selected. -/
theorem keeps_selectFrame {P : σ → Prop}
    (call : ∀ {α : Type} {m : EngineM σ α}, SelectionCall m → ∀ s, P s → P (m.call s).2)
    (frame : Handle) : Keeps (fun w : Worker σ => P w.session.engine) (selectFrame frame).run := by
  have required : ∀ {α : Type} {m : EngineM σ α}, SelectionCall m →
      Keeps (fun w : Worker σ => P w.session.engine) (Worker.require id m).run := by
    intro α m h
    have asked : Keeps (fun w : Worker σ => P w.session.engine) (Worker.ask m) := fun w hw => call h _ hw
    refine asked.lift.bindExcept fun answer => ?_
    cases answer with
    | ok a => exact .ok a
    | error e => exact .error _
  -- and the store is no part of the engine
  have chosen : ∀ g : Store → Store, Keeps (fun w : Worker σ => P w.session.engine)
      (ExceptT.lift (modifyStore g) : ExceptT EngineError (WorkerM σ) Unit).run :=
    fun g _ hw => hw
  have selected : ∀ thread, Keeps (fun w : Worker σ => P w.session.engine)
      (selectThread (σ := σ) thread).run := by
    intro thread
    refine (required .currentThread).bindExcept fun current => ?_
    refine .iteExcept (fun _ => ?_) fun _ => chosen _
    exact (required (.setCurrentThread thread)).bindExcept fun _ => chosen _
  -- every call that a selection makes is a selection call
  refine Keeps.get.lift.bindExcept fun w => ?_
  dsimp only
  split
  · refine (selected _).bindExcept fun _ => (required .currentFrameIndex).bindExcept fun index => ?_
    refine .iteExcept (fun _ => ?_) fun _ => (chosen _).bindExcept fun _ => .ok _
    exact (required (.setFrameIndex _)).bindExcept fun _ => (chosen _).bindExcept fun _ => .ok _
  · exact .ok _

/-- The engine accepts all calls by which a frame is selected. -/
def canSelectFrame (w : Worker σ) (frame : Handle) : Bool :=
  ((selectFrame frame).run.run w).1.isOk

/-- The worker when a frame was to be selected, whether the engine has accepted that or not. -/
def selecting (w : Worker σ) (frame : Handle) : Worker σ :=
  ((selectFrame frame).run.run w).2

/-- A frame is selected, with the thread on whose stack it is, if the engine accepts that. -/
theorem selects_selecting (law : V.Lawful) {w : Worker σ} {frame : Handle} {f : DebugAdapter.Frame}
    {t : Thread} (placed : w.store.Placed frame f t) (accepted : w.canSelectFrame frame = true) :
    V.Selects t f (w.selecting frame).session.engine := by
  rw [canSelectFrame, selectFrame_of_placed placed] at accepted
  rw [selecting, selectFrame_of_placed placed]
  exact ensures_frameSelected law t.systemId f.order frame w trivial accepted

/-! ## Computing a value -/

omit [Engine σ] in
/-- A look at memory keeps what its calls keep. -/
theorem keeps_inMemory {α : Type} {P : σ → Prop} {m : MemoryM σ α}
    (hm : Keeps (fun mem => P mem.engine) m) : Keeps (fun w => P w.session.engine) (inMemory m) :=
  fun _ hw => hm _ hw

/-- Evaluate an expression in the frame that is selected. A value that can be expanded is kept below
`frame`. -/
def evaluateSelected (expression : String) (frame : Handle) :
    WorkerM σ (Except ValueFailure EvaluateResult) := do
  let found ← inMemory do
    let data ← Memory.evaluate expression
    if data.isNone then return none
    return some (← present (← Memory.named expression data))
  match found with
  | none => return .error (.notEvaluated expression)
  | some shown =>
    let reference ← if shown.hasChildren then register frame (.variable shown) else pure none
    return .ok ⟨shown.value, shown.typeName, reference.getD .none⟩

/-- Set a variable to the value that an expression has in the frame that is selected. -/
def overwriteSelected (target : Registered Variable) (value : String) :
    WorkerM σ (Except ValueFailure (Registered Variable)) := do
  match ← inMemory (overwrite target.content value).run with
  | .error e => return .error e
  | .ok shown =>
    modifyStore fun s => (s.removeChildren target.handle).updateVariable target.handle
      fun _ => shown
    return .ok ⟨target.handle, shown⟩

/-- The first variable of a name below an entity. -/
def variableNamed? (w : Worker σ) (holder : Handle) (name : String) : Option (Registered Variable) :=
  (w.store.variablesOf holder).find? (·.content.name == name)

/-- In a known frame, an evaluation is what follows the selection of the frame. -/
theorem run_evaluate {w : Worker σ} {given : Option Handle} {frame : Handle} {f : DebugAdapter.Frame}
    (expression : String) (chosen : (given <|> w.store.currentFrame) = some frame)
    (live : w.store.frameAt? frame = some f) :
    (evaluate expression given).run w =
      (evaluateSelected expression frame).run (w.selecting frame) := by
  -- the frame is given, or current, and it is in the store
  have kept : (given <|> w.store.currentFrame).filter (fun f => (w.store.frameAt? f).isSome) =
      some frame := by
    rw [chosen, Option.filter_some, live]
    rfl
  have looked : ∀ k : Worker σ → WorkerM σ (Except ValueFailure EvaluateResult),
      (get >>= k).run w = (k w).run w := fun _ => rfl
  rw [evaluate, looked]
  dsimp only
  rw [kept]
  dsimp only
  rw [StateT.run_bind, evaluateSelected]
  change (_ >>= _ : WorkerM σ _).run (w.selecting frame) = _
  congr 2
  funext found
  cases found with
  | none => rfl
  | some shown => rfl

/-- For a known variable, a write is what follows the selection of its frame. -/
theorem run_setVariable {w : Worker σ} {holder : Handle} {name : String} {target : Registered Variable}
    (value : String) (named : w.variableNamed? holder name = some target) :
    (setVariable holder name value).run w =
      (overwriteSelected target value).run (w.selecting (w.store.frameOf holder)) := by
  have looked : ∀ k : Worker σ → WorkerM σ (Except ValueFailure (Registered Variable)),
      (get >>= k).run w = (k w).run w := fun _ => rfl
  rw [setVariable, looked]
  rw [variableNamed?] at named
  rw [named]
  rfl

/-- How a command computes a value: in a frame, which is to be selected first, and by the work that is done
then. The frame of an evaluation is the given one, or else the current one. The frame of a variable is the one
above what holds it, if that is near enough. -/
inductive Computes (w : Worker σ) : Command → Handle → WorkerM σ Outcome → Prop
  | evaluate {given : Option Handle} {frame : Handle} (expression : String)
      (chosen : (given <|> w.store.currentFrame) = some frame) :
      Computes w (.evaluate expression given) frame
        (return .answered (.evaluated (← evaluateSelected expression frame)))
  | setVariable {holder frame : Handle} {n : Nat} {name : String} {target : Registered Variable}
      (value : String) (below : w.store.Rises frame n holder) (near : n < Store.maxAncestorDepth)
      (named : w.variableNamed? holder name = some target) :
      Computes w (.setVariable holder name value) frame
        (return .answered (.variableSet (← overwriteSelected target value)))

section

variable {w : Worker σ} {c : Command} {frame : Handle} {work : WorkerM σ Outcome}
  {f : DebugAdapter.Frame}

/-- A command that computes a value selects the frame, whether the engine accepts that or not, and does the
work. -/
theorem Computes.run_execute (hs : w.store.Consistent) (computes : w.Computes c frame work)
    (live : w.store.frameAt? frame = some f) : (execute c).run w = work.run (w.selecting frame) := by
  -- both commands select the frame first
  cases computes with
  | evaluate expression chosen =>
    have executed : ∀ given, (execute (.evaluate expression given)).run w =
        (Worker.evaluate expression given >>= fun r => pure (Outcome.answered (.evaluated r))).run w :=
      fun _ => rfl
    rw [executed, StateT.run_bind, run_evaluate expression chosen live]
    rfl
  | setVariable value below near named =>
    have executed : ∀ holder name, (execute (.setVariable holder name value)).run w =
        (Worker.setVariable holder name value >>= fun r =>
          pure (Outcome.answered (.variableSet r))).run w := fun _ _ => rfl
    rw [executed, StateT.run_bind, run_setVariable value named, hs.frameOf_of_rises live below near]
    rfl

/-- The work selects no other frame. -/
theorem Computes.keeps_selects (law : V.Lawful) (computes : w.Computes c frame work) (t : Thread)
    (f : DebugAdapter.Frame) : Keeps (fun w' => V.Selects t f w'.session.engine) work := by
  have F : Memory.Frame fun mem : Memory σ => V.Selects t f mem.engine :=
    { call := fun h mem selected =>
        ⟨(law.data h _).1.trans selected.1, (law.data h _).2.trans selected.2⟩
      typeNames := fun _ _ selected => selected }
  -- after the selection only data calls are made, which select nothing
  cases computes with
  | evaluate expression chosen =>
    refine Keeps.bind (Keeps.bind (keeps_inMemory ?_) fun found => ?_) fun _ => .pure _
    · refine (F.reading.evaluate expression).bind fun data => .ite (fun _ => .pure _) fun _ => ?_
      refine (F.reading.named expression data).bind fun v => ?_
      exact (keeps_present F.reading v).bind fun _ => .pure _
    · cases found with
      | none => exact .pure _
      | some shown =>
        -- what is found is kept in the store, and the engine is not asked
        have registered : Keeps (fun w' : Worker σ => V.Selects t f w'.session.engine)
            (register frame (.variable shown)) := (Keeps.modifyGet fun _ h => h).bind fun _ => .pure _
        exact .ite (fun _ => registered.bind fun _ => .pure _) fun _ => (Keeps.pure _).bind fun _ => .pure _
  | setVariable value below near named =>
    refine Keeps.bind (Keeps.bind (keeps_inMemory (keeps_overwrite F _ value)) fun r => ?_) fun _ => .pure _
    cases r with
    | error e => exact .pure _
    | ok shown => exact Keeps.bind (Keeps.modify fun _ h => h) fun _ => Keeps.pure (Except.ok _)

end

end Worker

namespace Observed

variable {σ : Type} [Engine σ] {V : SelectionView σ}

/-- A value is computed in its frame, if the engine accepts the selection: when the expression is evaluated,
the frame and the thread on whose stack it is are selected, and they stay so until the command is carried
out. -/
theorem run_computesInFrame (law : V.Lawful) (engine : σ) (options : GatewayOptions) (turns : List Turn)
    {w : Worker σ} (reached : ((new engine options).run turns).Reaches w) {c : Command} {frame : Handle}
    {work : WorkerM σ Worker.Outcome} {f : Frame} (computes : w.Computes c frame work)
    (live : w.store.frameAt? frame = some f) (accepted : w.canSelectFrame frame = true) :
    (Worker.execute c).run w = work.run (w.selecting frame) ∧ ∃ t, w.store.Placed frame f t ∧
      V.Selects t f (w.selecting frame).session.engine ∧ V.Selects t f (w.after c).session.engine := by
  have hs := reached.consistent
  have run := computes.run_execute hs live
  obtain ⟨t, placed⟩ := hs.exists_placed live
  have selected := Worker.selects_selecting law placed accepted
  refine ⟨run, t, placed, selected, ?_⟩
  have kept := computes.keeps_selects law t f _ selected
  rw [Worker.after, run]
  exact kept

/-- A debuggee with two frames on its stack, and a variable `x`. -/
def twoFrames : Scripted.World where
  callStacks := [(1, [⟨0x1000, 0⟩, ⟨0x2000, 1⟩])]
  types := [(1, { name := some "u64", size := 8, tag := some .base })]
  expressions := [("x", { typeId := 1, offset := some 0x100 })]
  memory := [⟨0x100, #[7, 0, 0, 0, 0, 0, 0, 0]⟩]

/-- The stack is listed. -/
def stackListed (world : Scripted.World) : Observed Scripted.World :=
  (new world {}).run ([.call (.submit (.launch ⟨"app", "app", [], []⟩)),
    .call (.submit (.stackTrace 1))] ++ List.replicate 8 .engine)

/-- The outer frame. -/
def outerFrame : Frame :=
  ⟨0x2000, 1, none, 0, "0x2000"⟩

/-- The outer frame is selected for an evaluation in it, instead of the inner one. -/
theorem run_computesInFrame_outer :
    let w := (stackListed twoFrames).gateway.worker
    let c := Command.evaluate "x" (some ⟨3⟩)
    Scripted.World.selectionView.frame w.session.engine = 0 ∧ ∃ t, w.store.Placed ⟨3⟩ outerFrame t ∧
      Scripted.World.selectionView.Selects t outerFrame (w.selecting ⟨3⟩).session.engine ∧
      Scripted.World.selectionView.Selects t outerFrame (w.after c).session.engine := by
  intro w c
  have reached : (stackListed twoFrames).Reaches w := .inl rfl
  have live : w.store.frameAt? ⟨3⟩ = some outerFrame := by decide +kernel
  have chosen : ∀ current : Option Handle, (some ⟨3⟩ <|> current) = some (⟨3⟩ : Handle) := fun _ => rfl
  have computes : w.Computes c ⟨3⟩ _ := .evaluate "x" (chosen _)
  have accepted : w.canSelectFrame ⟨3⟩ = true := by decide +kernel
  obtain ⟨-, inFrame⟩ := run_computesInFrame Scripted.World.selectionView_lawful twoFrames {} _ reached
    computes live accepted
  -- before the command another frame is current
  have inner : Scripted.World.selectionView.frame w.session.engine = 0 := by decide +kernel
  exact ⟨inner, inFrame⟩

/-- The engine refuses to select another frame. -/
def refusingFrame : Scripted.World :=
  { twoFrames with failures := [("set_scope_frame_index", .status .fail)] }

/-- If the engine refuses to select the outer frame, the value is computed in the inner one, and given for
an answer without an error. -/
theorem evaluated_elsewhere :
    ∃ w, (stackListed refusingFrame).Reaches w ∧ w.store.frameAt? ⟨3⟩ = some outerFrame ∧
      (Worker.evaluate "x" (some ⟨3⟩)).run w =
        (Worker.evaluateSelected "x" ⟨3⟩).run (w.selecting ⟨3⟩) ∧
      ((Worker.evaluate "x" (some ⟨3⟩)).run w).1 = .ok ⟨"7", "u64", .none⟩ ∧
      Scripted.World.selectionView.frame (w.selecting ⟨3⟩).session.engine ≠ outerFrame.order := by
  -- the frame is in the store, though the engine refuses to select it
  have live : (stackListed refusingFrame).gateway.worker.store.frameAt? ⟨3⟩ = some outerFrame := by
    decide +kernel
  have chosen : ∀ current : Option Handle, (some ⟨3⟩ <|> current) = some (⟨3⟩ : Handle) := fun _ => rfl
  have run := Worker.run_evaluate "x" (chosen _) live
  have answer : ((Worker.evaluate "x" (some ⟨3⟩)).run (stackListed refusingFrame).gateway.worker).1 =
    .ok ⟨"7", "u64", .none⟩ := by decide +kernel
  have elsewhere : Scripted.World.selectionView.frame
      ((stackListed refusingFrame).gateway.worker.selecting ⟨3⟩).session.engine ≠ outerFrame.order := by
    decide +kernel
  exact ⟨_, .inl rfl, live, run, answer, elsewhere⟩

end Observed

end DebugAdapter
