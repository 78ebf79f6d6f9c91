import DebugAdapter.Gateway.Basic
import DebugAdapter.Proofs.SteadyDecoding
import DebugAdapter.Proofs.StoreGrowth

/-!
# Engines whose answers do not change

A debugging engine answers for the thread and the frame that are selected, and it hands out a new symbol
group whenever it is asked for one. So its answers do not change if they are the same in all states of a
situation, and calls that only look do not leave the situation (`Engine.Steady`). A selection that the
engine accepts leads from one situation to another. Either the engine names what was selected when it is
asked then (`Obeys`), or selections do nothing to its answers at all (`Ignores`).

On such an engine a selection settles: made again from where it led, it gives the same and stays there.

## Key results

- `Engine.Steady.selectThread`, `Engine.Steady.chooseFrame`: selections settle
-/

namespace DebugAdapter

variable {σ ν : Type} [Engine σ]

/-- A call that looks at the stopped debuggee. -/
inductive LookCall : {α : Type} → EngineM σ α → Prop
  | threadIds : LookCall Engine.threadIds
  | currentThread : LookCall Engine.currentThread
  | stackTrace (maxFrames : Nat) : LookCall (Engine.stackTrace maxFrames)
  | currentFrameIndex : LookCall Engine.currentFrameIndex
  | lineByOffset (offset : UInt64) : LookCall (Engine.lineByOffset offset)
  | findSourceFile (file : String) : LookCall (Engine.findSourceFile file)
  | nameByOffset (offset : UInt64) : LookCall (Engine.nameByOffset offset)
  | read {α : Type} {m : EngineM σ α} (h : ReadCall m) : LookCall m

/-- A call that looks at a symbol group. -/
inductive GroupCall : {α : Type} → EngineM σ α → Prop
  | groupCount (g : GroupId) : GroupCall (Engine.groupCount g)
  | groupEntry (g : GroupId) (index : UInt32) : GroupCall (Engine.groupEntry g index)

/-- A call that selects a thread or a frame. -/
inductive SelectCall : EngineM σ Unit → Prop
  | thread (id : UInt32) : SelectCall (Engine.setCurrentThread id)
  | frame (index : UInt32) : SelectCall (Engine.setFrameIndex index)

/-- What an engine tells of a symbol group. -/
structure SymbolListing where
  count : Except EngineError UInt32
  entry : UInt32 → Except EngineError SymbolEntry

/-- What the engine tells of a group. -/
def SymbolListing.of (s : σ) (g : GroupId) : SymbolListing where
  count := ((Engine.groupCount g).call s).1
  entry index := ((Engine.groupEntry g index).call s).1

/-- A symbol is shown if it can be read and has no parent. -/
def SymbolListing.shows (l : SymbolListing) (index : UInt32) : Bool :=
  match l.entry index with
  | .ok entry => entry.parent.isNone
  | .error _ => false

namespace Engine

/-- If the engine names the thread and the frame that are selected, it names those that were selected
last; selecting a frame does not select another thread. -/
structure Obeys (At : ν → σ → Prop) : Prop where
  thread : ∀ {v s}, At v s → ∀ {current}, ((currentThread (σ := σ)).call s).1 = .ok current →
    ∀ id, ((setCurrentThread id).call s).1 = .ok () →
      ((currentThread (σ := σ)).call ((setCurrentThread id).call s).2).1 = .ok id
  frame : ∀ {v s}, At v s → ∀ {current}, ((currentFrameIndex (σ := σ)).call s).1 = .ok current →
    ∀ index, ((setFrameIndex index).call s).1 = .ok () →
    ((currentFrameIndex (σ := σ)).call ((setFrameIndex index).call s).2).1 = .ok index ∧
      ((currentThread (σ := σ)).call ((setFrameIndex index).call s).2).1 =
        ((currentThread (σ := σ)).call s).1

/-- Selections do not lead out of a situation. -/
def Ignores (At : ν → σ → Prop) : Prop :=
  ∀ {m : EngineM σ Unit}, SelectCall m → ∀ {v s}, At v s → At v (m.call s).2

/-- The engine's answers do not change: they are the same in all states of a situation, and only an
accepted selection leads to another situation. The symbols of a scope are listed in a new group each
time, whatever group is handed back for it. -/
structure Steady (At : ν → σ → Prop) : Prop where
  look : ∀ {α : Type} {m : EngineM σ α}, LookCall m → ∀ v, ∃ a, m.Answers (At v) a (At v)
  lookGroup : ∀ {α : Type} {m : EngineM σ α}, GroupCall m → ∀ {v s}, At v s → At v (m.call s).2
  listing : ∀ {α : Type} {m : EngineM σ α}, LookCall m ∨ GroupCall m → ∀ {v s}, At v s → ∀ g,
    SymbolListing.of (m.call s).2 g = SymbolListing.of s g
  select : ∀ {m : EngineM σ Unit}, SelectCall m → ∀ v,
    ∃ a v', m.Answers (At v) a (At v') ∧ ∀ e, a = .error e → v' = v
  scopeSymbolGroup : ∀ kind v,
    (∃ e, ∀ previous, (Engine.scopeSymbolGroup kind previous).Answers (At v) (.error e) (At v)) ∨
    ∃ l, ∀ previous s, At v s → ∃ g,
      ((Engine.scopeSymbolGroup kind previous).call s).1 = .ok g ∧
        At v ((Engine.scopeSymbolGroup kind previous).call s).2 ∧
        SymbolListing.of ((Engine.scopeSymbolGroup kind previous).call s).2 g = l
  selection : Obeys At ∨ Ignores At

end Engine

namespace Worker

/-! ## Work with one result -/

/-- From workers whose engine is in a state with `P`, the work gives `a`, changes the store by `f`, and
leaves the engine in a state with `P'`. Nothing else is changed. -/
def Passes {α : Type} (P : σ → Prop) (m : WorkerM σ α) (a : α) (f : Store → Store) (P' : σ → Prop) :
    Prop :=
  ∀ w, P w.session.engine → ∃ engine, P' engine ∧
    m.run w = (a, { w with session := { w.session with engine }, store := f w.store })

namespace Passes

variable {α β ε : Type} {P P' P'' : σ → Prop} {f g : Store → Store}

omit [Engine σ] in
/-- Returning a value passes without touching anything. -/
theorem pure (a : α) : Passes P (Pure.pure a) a id P :=
  fun w hw => ⟨w.session.engine, hw, rfl⟩

omit [Engine σ] in
/-- Passing twice composes what is done to the store. -/
theorem bind {m : WorkerM σ α} {k : α → WorkerM σ β} {a : α} {b : β} (hm : Passes P m a f P')
    (hk : Passes P' (k a) b g P'') : Passes P (m >>= k) b (g ∘ f) P'' := by
  intro w hw
  obtain ⟨engine, hw', same⟩ := hm w hw
  obtain ⟨engine', hw'', same'⟩ :=
    hk { w with session := { w.session with engine }, store := f w.store } hw'
  refine ⟨engine', hw'', ?_⟩
  rw [StateT.run_bind, same]
  exact same'

omit [Engine σ] in
/-- The same where the first part may fail and succeeds. -/
theorem bindOk {m : ExceptT ε (WorkerM σ) α} {k : α → ExceptT ε (WorkerM σ) β} {a : α}
    {b : Except ε β} (hm : Passes P m.run (.ok a) f P') (hk : Passes P' (k a).run b g P'') :
    Passes P (m >>= k).run b (g ∘ f) P'' := by
  rw [ExceptT.run_bind]
  exact hm.bind hk

omit [Engine σ] in
/-- A failure of the first part is passed on. -/
theorem bindError {m : ExceptT ε (WorkerM σ) α} {k : α → ExceptT ε (WorkerM σ) β} {e : ε}
    (hm : Passes P m.run (.error e) f P') : Passes P (m >>= k).run (.error e) f P' := by
  rw [ExceptT.run_bind]
  refine bind (g := id) hm ?_
  exact pure (Except.error e)

omit [Engine σ] in
/-- Asking the engine passes with its answer. -/
theorem require {m : EngineM σ α} {a : Except EngineError α} (h : m.Answers P a P') :
    Passes P (Worker.require id m).run a id P' := by
  have asked : Passes P (ExceptT.lift (Worker.ask m) : ExceptT EngineError (WorkerM σ) _).run (.ok a)
      id P' := by
    intro w hw
    obtain ⟨answer, hw'⟩ := h _ hw
    exact ⟨_, hw', by rw [← answer]; rfl⟩
  refine bindOk (g := id) asked ?_
  cases a with
  | ok a => exact pure (Except.ok a)
  | error e => exact pure (Except.error e)

omit [Engine σ] in
/-- Changing the store passes with that change. -/
theorem modifyStore (f : Store → Store) :
    Passes P (ExceptT.lift (Worker.modifyStore f) : ExceptT ε (WorkerM σ) Unit).run (.ok ()) f P :=
  fun w hw => ⟨w.session.engine, hw, rfl⟩

end Passes

/-! ## Selections -/

/-- Make a frame of the current thread the current one of the engine and of the store, when the engine's is
the one with number `index`. -/
def moveFrame (thread order : UInt32) (frame : Handle) (index : UInt32) :
    ExceptT EngineError (WorkerM σ) (Option (UInt32 × UInt32)) := do
  if index ≠ order then
    require id (Engine.setFrameIndex order)
  ExceptT.lift (modifyStore (·.setCurrentFrame frame))
  return some (thread, order)

/-- Make a frame of a thread the current one of the engine and of the store. -/
def chooseFrame (thread order : UInt32) (frame : Handle) :
    ExceptT EngineError (WorkerM σ) (Option (UInt32 × UInt32)) := do
  selectThread thread
  moveFrame thread order frame (← require id Engine.currentFrameIndex)

/-- A frame that is placed is chosen as a frame of its thread. -/
theorem selectFrame_of_placed {w : Worker σ} {frame : Handle} {f : DebugAdapter.Frame} {t : Thread}
    (placed : w.store.Placed frame f t) :
    (selectFrame frame).run.run w = (chooseFrame t.systemId f.order frame).run.run w := by
  have looked : ∀ k : Worker σ → ExceptT EngineError (WorkerM σ) (Option (UInt32 × UInt32)),
      (getThe (Worker σ) >>= k).run.run w = (k w).run.run w := fun _ => rfl
  unfold selectFrame
  rw [looked]
  simp only [placed.frameAt?_eq, placed.threadAt?_eq]
  rfl

end Worker

namespace Engine.Steady

open Worker

variable {At : ν → σ → Prop} (law : Engine.Steady At) {v : ν} {s : σ}
include law

/-- In one situation the same is read, whatever the state. -/
theorem readsSame (v : ν) : ReadsSame (At v) :=
  fun h => law.look (.read h) v

/-- What the engine answers in one state of a situation it answers in all of them. -/
private theorem answers_of_eq {α : Type} {m : EngineM σ α} (h : LookCall m) (here : At v s)
    {a : Except EngineError α} (answer : (m.call s).1 = a) : m.Answers (At v) a (At v) := by
  obtain ⟨b, hb⟩ := law.look h v
  obtain rfl : b = a := (hb s here).1.symm.trans answer
  exact hb

omit [Engine σ] law in
/-- Choosing a thread in the store passes in any situation. -/
private theorem passes_chosen (thread : UInt32) :
    Passes (At v) (ExceptT.lift (modifyStore (·.setCurrentThread thread)) :
      ExceptT EngineError (WorkerM σ) Unit).run (.ok ()) (Store.choose (some thread) none) (At v) :=
  .modifyStore _

omit law in
/-- A thread that is the current one is not selected again. -/
private theorem passes_selectThread_of_current {thread : UInt32}
    (current : (Engine.currentThread (σ := σ)).Answers (At v) (.ok thread) (At v)) :
    Passes (At v) (Worker.selectThread thread).run (.ok ()) (Store.choose (some thread) none) (At v) := by
  refine Passes.bindOk (g := Store.choose (some thread) none) (.require current) ?_
  rw [if_neg (not_not_intro rfl)]
  exact passes_chosen thread

omit law in
/-- Selecting another thread asks the engine and then chooses it in the store. -/
private theorem passes_selectThread_of_select {current thread : UInt32} {v' : ν}
    (asked : (Engine.currentThread (σ := σ)).Answers (At v) (.ok current) (At v))
    (other : current ≠ thread)
    (selected : (Engine.setCurrentThread thread).Answers (At v) (.ok ()) (At v')) :
    Passes (At v) (Worker.selectThread thread).run (.ok ()) (Store.choose (some thread) none)
      (At v') := by
  refine Passes.bindOk (g := Store.choose (some thread) none) (.require asked) ?_
  rw [if_pos other]
  refine Passes.bindOk (g := Store.choose (some thread) none) (.require selected) ?_
  exact passes_chosen thread

/-- The selection of a thread settles. If it succeeds on an engine that obeys, the thread is the current
one then. -/
theorem selectThread (thread : UInt32) (here : At v s) :
    ∃ (r : Except EngineError Unit) (chosen : Option UInt32) (v' : ν),
      Passes (At v) (Worker.selectThread thread).run r (Store.choose chosen none) (At v') ∧
      Passes (At v') (Worker.selectThread thread).run r (Store.choose chosen none) (At v') ∧
      (∃ s', At v' s') ∧ (r = .ok () → chosen = some thread) ∧
      (r = .ok () → Obeys At →
        (Engine.currentThread (σ := σ)).Answers (At v') (.ok thread) (At v')) := by
  -- the engine tells which thread is the current one, or does not
  obtain ⟨current, asked⟩ := law.look .currentThread v
  cases current with
  | error e =>
    have failed : Passes (At v) (Worker.selectThread thread).run (.error e) (Store.choose none none)
        (At v) := .bindError (.require asked)
    exact ⟨.error e, none, v, failed, failed, ⟨s, here⟩, nofun, nofun⟩
  | ok current =>
    by_cases same : current = thread
    · subst same
      have done := passes_selectThread_of_current asked
      exact ⟨.ok (), some current, v, done, done, ⟨s, here⟩, fun _ => rfl, fun _ _ => asked⟩
    · obtain ⟨answer, v', selected, stays⟩ := law.select (.thread thread) v
      cases answer with
      | error e =>
        -- a selection that is refused is refused again
        obtain rfl := stays e rfl
        have refused : Passes (At v') (Worker.selectThread thread).run (.error e)
            (Store.choose none none) (At v') := by
          refine Passes.bindOk (g := id) (.require asked) ?_
          rw [if_pos same]
          exact .bindError (.require selected)
        exact ⟨.error e, none, v', refused, refused, ⟨s, here⟩, nofun, nofun⟩
      | ok accepted =>
        have named := fun obeys : Obeys At => obeys.thread here (asked s here).1 thread (selected s here).1
        -- the engine tells of its selection, so that the second time nothing is asked, or it does not react
        -- to it
        rcases law.selection with obeys | ignores
        · have there := (selected s here).2
          have current := law.answers_of_eq .currentThread there (named obeys)
          exact ⟨.ok (), some thread, v', passes_selectThread_of_select asked same selected,
            passes_selectThread_of_current current, ⟨_, there⟩, fun _ => rfl, fun _ _ => current⟩
        · have stays : (Engine.setCurrentThread thread).Answers (At v) (.ok ()) (At v) :=
            fun s hs => ⟨(selected s hs).1, ignores (.thread thread) hs⟩
          have done := passes_selectThread_of_select asked same stays
          have still := ignores (.thread thread) here
          exact ⟨.ok (), some thread, v, done, done, ⟨s, here⟩, fun _ => rfl,
            fun _ obeys => law.answers_of_eq .currentThread still (named obeys)⟩

/-! ### Frames -/

section

variable {v₀ v₁ : ν} {thread order index : UInt32} {frame : Handle}
  {r : Except EngineError (Option (UInt32 × UInt32))} {chosen : Option Handle} {P : σ → Prop}

omit [Engine σ] law in
/-- Choosing a frame in the store passes in any situation. -/
private theorem passes_chosenFrame :
    Passes P (do
        ExceptT.lift (modifyStore (·.setCurrentFrame frame))
        return some (thread, order) : ExceptT EngineError (WorkerM σ) _).run
      (.ok (some (thread, order))) (Store.choose none (some frame)) P := by
  refine Passes.bindOk (g := id) (.modifyStore _) ?_
  exact .pure _

omit law in
/-- A frame that is the current one is not selected again. -/
private theorem passes_moveFrame_self :
    Passes P (moveFrame thread order frame order).run (.ok (some (thread, order)))
      (Store.choose none (some frame)) P := by
  unfold moveFrame
  rw [if_neg (not_not_intro rfl)]
  exact passes_chosenFrame

omit law in
/-- Moving to another frame asks the engine and then chooses it in the store. -/
private theorem passes_moveFrame (other : index ≠ order)
    (moved : (Engine.setFrameIndex order).Answers (At v₁) (.ok ()) P) :
    Passes (At v₁) (moveFrame thread order frame index).run (.ok (some (thread, order)))
      (Store.choose none (some frame)) P := by
  unfold moveFrame
  rw [if_pos other]
  exact Passes.bindOk (g := Store.choose none (some frame)) (.require moved) passes_chosenFrame

omit law in
/-- The choice of a frame when its thread is selected and the engine has answered which is the current
one. -/
private theorem passes_chooseFrame
    (selected : Passes (At v₀) (Worker.selectThread thread).run (.ok ())
      (Store.choose (some thread) none) (At v₁))
    (asked : (Engine.currentFrameIndex (σ := σ)).Answers (At v₁) (.ok index) (At v₁))
    (moved : Passes (At v₁) (moveFrame thread order frame index).run r (Store.choose none chosen) P) :
    Passes (At v₀) (Worker.chooseFrame thread order frame).run r (Store.choose (some thread) chosen)
      P := by
  refine Passes.bindOk (g := Store.choose none chosen) selected ?_
  exact Passes.bindOk (g := Store.choose none chosen) (.require asked) moved

omit law in
/-- The engine refuses to name the current frame, or to make another one the current one. -/
private theorem passes_chooseFrame_of_error {e : EngineError}
    (selected : Passes (At v₀) (Worker.selectThread thread).run (.ok ())
      (Store.choose (some thread) none) (At v₁))
    (refused : (Engine.currentFrameIndex (σ := σ)).Answers (At v₁) (.error e) (At v₁) ∨
      ∃ index, (Engine.currentFrameIndex (σ := σ)).Answers (At v₁) (.ok index) (At v₁) ∧
        index ≠ order ∧ (Engine.setFrameIndex order).Answers (At v₁) (.error e) (At v₁)) :
    Passes (At v₀) (Worker.chooseFrame thread order frame).run (.error e)
      (Store.choose (some thread) none) (At v₁) := by
  -- the engine does not tell the frame it is at, or it does not move
  rcases refused with asked | ⟨index, asked, other, moved⟩
  · exact Passes.bindOk (g := id) selected (.bindError (.require asked))
  · have refused : Passes (At v₁) (moveFrame thread order frame index).run (.error e)
        (Store.choose none none) (At v₁) := by
      unfold moveFrame
      rw [if_pos other]
      exact .bindError (.require moved)
    exact passes_chooseFrame selected asked refused

end

/-- The choice of a frame settles. If it succeeds, the answer is the thread and the number of the frame. -/
theorem chooseFrame (thread order : UInt32) (frame : Handle) (here : At v s) :
    ∃ (r : Except EngineError (Option (UInt32 × UInt32))) (chosen : Option UInt32)
      (chosenFrame : Option Handle) (v' : ν),
      Passes (At v) (Worker.chooseFrame thread order frame).run r (Store.choose chosen chosenFrame)
        (At v') ∧
      Passes (At v') (Worker.chooseFrame thread order frame).run r (Store.choose chosen chosenFrame)
        (At v') ∧
      (∃ s', At v' s') ∧ (∀ f, chosenFrame = some f → f = frame) ∧
      ∀ a, r = .ok a → a = some (thread, order) := by
  -- the thread is selected first, and what follows starts from the situation this leads to
  obtain ⟨r, chosen, v₁, first, again, ⟨s₁, here₁⟩, selected, current⟩ := law.selectThread thread here
  cases r with
  | error e =>
    exact ⟨.error e, chosen, none, v₁, .bindError first, .bindError again, ⟨s₁, here₁⟩, nofun, nofun⟩
  | ok done =>
    obtain rfl := selected rfl
    have only : ∀ f, some frame = some f → f = frame := fun _ e => (Option.some.inj e).symm
    have answer : ∀ a, Except.ok (ε := EngineError) (some (thread, order)) = .ok a →
        a = some (thread, order) := fun _ e => (Except.ok.inj e).symm
    -- the engine tells which frame is the current one, or does not
    obtain ⟨index, asked⟩ := law.look .currentFrameIndex v₁
    cases index with
    | error e =>
      exact ⟨.error e, some thread, none, v₁, passes_chooseFrame_of_error first (.inl asked),
        passes_chooseFrame_of_error again (.inl asked), ⟨s₁, here₁⟩, nofun, nofun⟩
    | ok index =>
      by_cases same : index = order
      · subst same
        exact ⟨_, some thread, some frame, v₁, passes_chooseFrame first asked passes_moveFrame_self,
          passes_chooseFrame again asked passes_moveFrame_self, ⟨s₁, here₁⟩, only, answer⟩
      · obtain ⟨moving, v₂, moved, stays⟩ := law.select (.frame order) v₁
        cases moving with
        | error e =>
          -- a selection that is refused is refused again
          obtain rfl := stays e rfl
          exact ⟨.error e, some thread, none, v₂,
            passes_chooseFrame_of_error first (.inr ⟨index, asked, same, moved⟩),
            passes_chooseFrame_of_error again (.inr ⟨index, asked, same, moved⟩), ⟨s₁, here₁⟩,
            nofun, nofun⟩
        | ok accepted =>
          -- an engine that obeys is asked nothing the second time; one that ignores is asked the same
          rcases law.selection with obeys | ignores
          · have there := (moved s₁ here₁).2
            obtain ⟨named, kept⟩ := obeys.frame here₁ (asked s₁ here₁).1 order (moved s₁ here₁).1
            have index' := law.answers_of_eq .currentFrameIndex there named
            have thread' := law.answers_of_eq .currentThread there
              (kept.trans ((current rfl obeys) s₁ here₁).1)
            exact ⟨_, some thread, some frame, v₂,
              passes_chooseFrame first asked (passes_moveFrame same moved),
              passes_chooseFrame (passes_selectThread_of_current thread') index' passes_moveFrame_self,
              ⟨_, there⟩, only, answer⟩
          · have stays : (Engine.setFrameIndex order).Answers (At v₁) (.ok ()) (At v₁) :=
              fun s hs => ⟨(moved s hs).1, ignores (.frame order) hs⟩
            exact ⟨_, some thread, some frame, v₁,
              passes_chooseFrame first asked (passes_moveFrame same stays),
              passes_chooseFrame again asked (passes_moveFrame same stays), ⟨s₁, here₁⟩, only, answer⟩

end Engine.Steady

end DebugAdapter
