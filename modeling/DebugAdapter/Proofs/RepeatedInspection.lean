import DebugAdapter.Proofs.LookingUp
import DebugAdapter.Proofs.ScriptedSteady

/-!
# Inspection that is repeated

A client that asks twice for threads, a stack, scopes or variables is to be shown the same both times,
under the same handles. Each command has a rule of its own for what it shows again: threads keep their
handles, a stack is shown again unless nothing is known of it, a scope is known by its kind, and the
variables of a scope are shown again if there are as many symbols as before. What is not shown again is
looked up anew, which finds the same on an engine whose answers do not change.

The first time a command selects a thread or a frame, and after that it only looks and adds to the store.
So the second time the selection changes nothing, and what was added is what is known, or it was nothing.

## Key results

- `Worker.repeats_execute`: a command that lists what is there lists the same again
- `Observed.run_repeats`: so it is for every worker that a gateway comes to have
-/

namespace DebugAdapter

/-- A command that lists what the stopped debuggee is made of. -/
def Command.lists : Command → Bool
  | .threads | .stackTrace _ | .scopes _ | .variables _ => true
  | _ => false

namespace Worker

variable {σ ν : Type} [Engine σ]

omit [Engine σ] in
/-- The work done again gives the same, and leaves the store as it is then. -/
structure Repeats {α : Type} (m : WorkerM σ α) (w : Worker σ) : Prop where
  result_eq : (m.run (m.run w).2).1 = (m.run w).1
  store_eq : (m.run (m.run w).2).2.store = (m.run w).2.store

omit [Engine σ] in
/-- What is made of a repeated answer is repeated. -/
theorem Repeats.map {α β : Type} {m : WorkerM σ α} {w : Worker σ} (f : α → β) (h : Repeats m w) :
    Repeats (do return f (← m)) w :=
  ⟨congrArg f h.result_eq, h.store_eq⟩

omit [Engine σ] in
/-- Two runs in a row with one answer and one store are what a repetition is. -/
theorem Repeats.of_runs {α : Type} {m : WorkerM σ α} {w w₁ w₂ : Worker σ} {a : α}
    (first : m.run w = (a, w₁)) (again : m.run w₁ = (a, w₂)) (same : w₂.store = w₁.store) :
    Repeats m w where
  result_eq := by rw [first, again]
  store_eq := by rw [first, again, same]

omit [Engine σ] in
/-- Work that comes to the same both times. -/
theorem Repeats.of_step {α : Type} {m m' : WorkerM σ α} {w : Worker σ} (h : Repeats m w)
    (first : m'.run w = m.run w) (again : m'.run (m.run w).2 = m.run (m.run w).2) : Repeats m' w where
  result_eq := by rw [first, again, h.result_eq]
  store_eq := by rw [first, again, h.store_eq]

/-! ## Threads -/

section

variable {At : ν → σ → Prop} (law : Engine.Steady At) {v : ν} {w w' : Worker σ}
include law

/-- A steady engine stays in its situation when it is looked at. -/
private theorem lookedFrom (v : ν) : LookedFrom (At v) := by
  intro α m h s here
  rcases h with look | group
  · obtain ⟨a, ha⟩ := law.look look v
    exact (ha s here).2
  · exact law.lookGroup group here

omit [Engine σ] law in
/-- A call that looks gives its answer and changes nothing but the engine. -/
private theorem passes_ask? {m : EngineM σ α} {a : Except EngineError α}
    (h : m.Answers (At v) a (At v)) : Passes (At v) (Worker.ask? m) a.toOption id (At v) := by
  intro w here
  obtain ⟨answer, there⟩ := h _ here
  exact ⟨_, there, by rw [← answer]; rfl⟩

omit [Engine σ] law in
/-- Adding threads one after the other changes the store alone. -/
private theorem run_forIn_addThread (ids : List UInt32) (w : Worker σ) :
    (forIn ids PUnit.unit fun id _ => do
        let _ ← withStore (σ := σ) (·.addThread id (threadName id))
        pure (ForInStep.yield PUnit.unit) : WorkerM σ PUnit).run w =
      (.unit, { w with
        store := ids.foldl (fun s id => (s.addThread id (threadName id)).2) w.store }) := by
  induction ids generalizing w with
  | nil => rfl
  | cons id ids ih =>
    rw [List.forIn_cons]
    exact ih { w with store := (w.store.addThread id (threadName id)).2 }

omit law in
/-- When the engine has told its threads, they are listed. -/
theorem run_threads {ids : List UInt32} (asked : (ask? Engine.threadIds).run w = (some ids, w')) :
    threads.run w = ((w'.store.enlist threadName ids).threads,
      { w' with store := w'.store.enlist threadName ids }) := by
  unfold threads
  rw [StateT.run_bind, asked]
  change (do
    for id in ids do
      let _ ← withStore (σ := σ) (·.addThread id (threadName id))
    return (← get).store.threads : WorkerM σ _).run { w' with store := w'.store.retainThreads ids } = _
  rw [StateT.run_bind, run_forIn_addThread]
  rfl

/-- The threads are listed alike the second time. -/
private theorem repeats_threads (here : At v w.session.engine) (hs : w.store.Consistent) :
    Repeats threads w := by
  obtain ⟨a, asked⟩ := law.look .threadIds v
  have asks := passes_ask? asked
  cases a with
  | error e =>
    have none : Passes (At v) threads [] id (At v) := Passes.bind (g := id) asks (.pure [])
    obtain ⟨engine, there, run⟩ := none w here
    obtain ⟨engine', -, run'⟩ := none { w with session := { w.session with engine } } there
    exact .of_runs run run' rfl
  | ok ids =>
    -- the engine tells the same list each time, and the store is brought in line with it
    have listed : ∀ w : Worker σ, At v w.session.engine → ∃ engine, At v engine ∧
        threads.run w = ((w.store.enlist threadName ids).threads,
          { w with
            session := { w.session with engine }
            store := w.store.enlist threadName ids }) := by
      intro w here
      obtain ⟨engine, there, run⟩ := asks w here
      exact ⟨engine, there, run_threads run⟩
    obtain ⟨engine, there, run⟩ := listed w here
    obtain ⟨engine', -, run'⟩ := listed { w with
      session := { w.session with engine }
      store := w.store.enlist threadName ids } there
    -- a store that is in line with the list stays as it is
    rw [hs.enlist_enlist] at run'
    exact .of_runs run run' rfl

/-! ## Stacks -/

/-- Ask for the stack of a thread that is in the store, and register its frames. -/
def lookUpStack (holder : Handle) : WorkerM σ (List (Registered DebugAdapter.Frame)) := do
  match ← ask? (Engine.stackTrace (← get).options.maxFrames) with
  | none => return []
  | some frames => registerAll holder .frame (fun f => some <$> describeFrame f) frames

/-- What is done for the stack of a thread when the thread is selected. -/
def listStack (thread : UInt32) : WorkerM σ (List (Registered DebugAdapter.Frame)) := do
  let holder ← withStore (·.addThread thread (threadName thread))
  listOr (·.framesOf holder) (lookUpStack holder)

omit law in
/-- Without its thread selected, a stack trace is empty. -/
theorem run_stackTrace_error {thread : UInt32} {e : EngineError}
    (selected : (selectThread thread).run.run w = (.error e, w')) :
    (stackTrace thread).run w = ([], w') := by
  unfold stackTrace
  rw [StateT.run_bind, selected]
  rfl

omit law in
/-- With its thread selected, a stack trace lists the frames below the handle of the thread. -/
theorem run_stackTrace_ok {thread : UInt32} {r : Unit}
    (selected : (selectThread thread).run.run w = (.ok r, w')) :
    (stackTrace thread).run w = (listStack thread).run w' := by
  unfold stackTrace
  rw [StateT.run_bind, selected]
  rfl

omit law in
/-- The stack of a thread that is selected is looked up: as the engine tells it, frame by frame. -/
theorem fills_lookUpStack {P : σ → Prop} (looked : LookedFrom P) (a : Except EngineError (List NativeFrame))
    (holder : Handle) :
    Fills P (·.framesOf holder)
      (fun w => holder ∈ w.store.handlesOf .thread ∧
        ((Engine.stackTrace (σ := σ) w.options.maxFrames).call w.session.engine).1 = a)
      (lookUpStack holder) (a.toOption.getD [] = []) := by
  rintro w here hs ⟨live, rfl⟩
  let call := (Engine.stackTrace (σ := σ) w.options.maxFrames).call w.session.engine
  let w₁ : Worker σ := { w with session := { w.session with engine := call.2 } }
  have there : P call.2 := looked (.inl (.stackTrace _)) _ here
  have step : (lookUpStack holder).run w = (match call.1.toOption with
      | none => return []
      | some frames => registerAll holder .frame (fun f => some <$> describeFrame f) frames :
      WorkerM σ _).run w₁ := rfl
  rw [step]
  change ∃ found w', _ ∧ _ ∧ (found = [] ↔ call.1.toOption.getD [] = [])
  cases call.1 with
  -- an engine that tells no stack lists none
  | error e =>
    exact ⟨[], w₁, rfl, ⟨there, ⟨call.2, w.typeNames, w.store, rfl⟩, .refl _, (List.append_nil _).symm,
      fun _ => rfl⟩, iff_of_true rfl rfl⟩
  | ok frames =>
    have glances := fun f => (glances_describeFrame looked f).map some
    obtain ⟨found, w', run, registering, none⟩ := registering_registerAll (w := w₁)
      (Store.appends_frame holder) glances (fun _ _ _ => rfl) frames there hs live
    refine ⟨found, w', run, ⟨registering.engine, ?_, registering.grown, registering.listed,
      registering.none⟩, none.trans ?_⟩
    · obtain ⟨engine', typeNames, store, rfl⟩ := registering.beside
      exact ⟨engine', typeNames, store, rfl⟩
    · -- every frame that is told is listed, so none is listed only if none is told
      cases frames with
      | nil => exact iff_of_true nofun rfl
      | cons f rest => exact iff_of_false (fun hidden => nomatch hidden f List.mem_cons_self) nofun

omit [Engine σ] law in
/-- Adding a thread does not change what is selected. -/
private theorem addThread_choices (s : Store) (thread : UInt32) (name : String) :
    (s.addThread thread name).2.currentThread = s.currentThread ∧
      (s.addThread thread name).2.currentFrame = s.currentFrame := by
  unfold Store.addThread
  split <;> exact ⟨rfl, rfl⟩

omit [Engine σ] law in
/-- A thread that was added is known by the handle that was given for it. -/
theorem addThread_known (s : Store) (thread : UInt32) (name : String) :
    (s.addThread thread name).2.threadHandles.get? thread = some (s.addThread thread name).1 := by
  unfold Store.addThread
  split
  · assumption
  · simp [Table.get?_insert]

omit [Engine σ] law in
/-- The handle that a thread is known by is the handle of a thread. -/
theorem mem_threads_of_known {s : Store} {thread : UInt32} {holder : Handle} (hs : s.Consistent)
    (known : s.threadHandles.get? thread = some holder) : holder ∈ s.handlesOf .thread := by
  obtain ⟨t, stored, -⟩ := hs.threadHandles_iff.1 known
  exact Table.mem_keys_iff.2 ⟨t, stored⟩

/-- The stack of a thread is listed alike the second time. -/
private theorem repeats_stackTrace (thread : UInt32) (here : At v w.session.engine)
    (hs : w.store.Consistent) : Repeats (stackTrace thread) w := by
  obtain ⟨r, chosen, v', first, again, -⟩ := law.selectThread thread here
  obtain ⟨engine₁, here₁, run₁⟩ := first w here
  cases r with
  -- a thread that is refused lists nothing, both times
  | error e =>
    obtain ⟨engine₂, -, run₂⟩ := again { w with
      session := { w.session with engine := engine₁ }
      store := w.store.choose chosen none } here₁
    exact .of_runs (run_stackTrace_error run₁) (run_stackTrace_error run₂)
      (Store.choose_of_chosen rfl rfl)
  | ok done =>
    obtain ⟨a, asked⟩ := law.look (.stackTrace w.options.maxFrames) v'
    -- the thread is registered if it is not known
    let s := w.store.choose chosen none
    have hs₀ : s.Consistent := hs.choose chosen nofun
    have hs₁ := hs₀.addThread thread (threadName thread)
    have known := addThread_known s thread (threadName thread)
    obtain ⟨sameThread, sameFrame⟩ := addThread_choices s thread (threadName thread)
    let holder := (s.addThread thread (threadName thread)).1
    have live : holder ∈ (s.addThread thread (threadName thread)).2.handlesOf .thread :=
      mem_threads_of_known hs₁ known
    let w₁ : Worker σ := { w with
      session := { w.session with engine := engine₁ }
      store := (s.addThread thread (threadName thread)).2 }
    have fills := fills_lookUpStack (lookedFrom law v') a holder
    obtain ⟨frames, w₂, run₂, here₂, beside, grown, listed, empty⟩ :=
      exists_run_listOr fills (w := w₁) here₁ hs₁ ⟨live, (asked _ here₁).1⟩
    -- the second time the thread is chosen already, and known
    have same : w₂.store.choose chosen none = w₂.store :=
      Store.choose_of_chosen (grown.currentThread_eq.trans sameThread)
        (grown.currentFrame_eq.trans sameFrame)
    have added : w₂.store.addThread thread (threadName thread) = (holder, w₂.store) := by
      have known : w₂.store.threadHandles.get? thread = some holder := by
        rw [grown.threadHandles_eq]
        exact known
      rw [Store.addThread, known]
    obtain ⟨engine₃, here₃, run₃⟩ := again w₂ here₂
    rw [same] at run₃
    let w₃ : Worker σ := { w₂ with session := { w₂.session with engine := engine₃ } }
    -- the bound on the depth of the stack is not touched
    have options : w₂.options = w.options := by
      obtain ⟨engine, typeNames, store, rfl⟩ := beside
      rfl
    obtain ⟨w₄, run₄, same₄⟩ := run_listOr_again fills (w := w₃) here₃ (grown.consistent hs₁)
      ⟨grown.mem live, by rw [options]; exact (asked _ here₃).1⟩ listed empty
    have first : (stackTrace thread).run w = (frames, w₂) := (run_stackTrace_ok run₁).trans run₂
    have again : (stackTrace thread).run w₂ = (frames, w₄) := by
      refine (run_stackTrace_ok run₃).trans ?_
      change (listOr (·.framesOf (w₂.store.addThread thread (threadName thread)).1)
        (lookUpStack (w₂.store.addThread thread (threadName thread)).1)).run
          { w₃ with store := (w₂.store.addThread thread (threadName thread)).2 } = _
      rw [added]
      exact run₄
    exact .of_runs first again same₄

/-! ## Scopes -/

omit [Engine σ] law in
/-- The first scope of a kind in a frame. -/
def Scoped (s : Store) (frame : Handle) (kind : ScopeKind) (scope : Registered Scope) : Prop :=
  (s.scopesOf frame).find? (·.content.kind == kind) = some scope

omit [Engine σ] law in
/-- A scope of a kind is the one that the frame has already, or else a new one. -/
private theorem run_scopeOfKind (frame : Handle) (kind : ScopeKind) (w : Worker σ) :
    (scopeOfKind frame kind).run w = (match (w.store.scopesOf frame).find? (·.content.kind == kind) with
      | some scope => return some scope
      | none => return (← register frame (.scope ⟨kind⟩)).map (⟨·, ⟨kind⟩⟩) : WorkerM σ _).run w :=
  rfl

omit [Engine σ] law in
/-- A scope that the frame has already is taken as it is. -/
private theorem run_scopeOfKind_of_scoped {frame : Handle} {kind : ScopeKind}
    {scope : Registered Scope} (known : Scoped w.store frame kind scope) :
    (scopeOfKind frame kind).run w = (some scope, w) := by
  rw [run_scopeOfKind, known]
  rfl

omit [Engine σ] law in
/-- A scope that is asked for is known then, and the others are as they were. -/
private theorem exists_run_scopeOfKind {frame : Handle} (kind : ScopeKind) (hs : w.store.Consistent)
    (live : frame ∈ w.store.handlesOf .frame) :
    ∃ scope s, (scopeOfKind frame kind).run w = (some scope, { w with store := s }) ∧
      w.store.Grown s ∧ Scoped s frame kind scope ∧
      ∀ {kind scope}, Scoped w.store frame kind scope → Scoped s frame kind scope := by
  -- a scope that is not known is added at the end of the list
  cases known : (w.store.scopesOf frame).find? (·.content.kind == kind) with
  | some scope => exact ⟨scope, w.store, run_scopeOfKind_of_scoped known, .refl _, known, id⟩
  | none =>
    obtain ⟨added, listed⟩ := Store.appends_scope frame w.store hs live ⟨kind⟩
    refine ⟨⟨w.store.nextHandle, ⟨kind⟩⟩, (w.store.add frame (.scope ⟨kind⟩)).2, ?_,
      Store.grown_add _ _ _, ?_, ?_⟩
    · rw [run_scopeOfKind, known]
      change ((w.store.add frame (.scope ⟨kind⟩)).1.toOption.map fun h => Registered.mk h (Scope.mk kind),
        { w with store := (w.store.add frame (.scope ⟨kind⟩)).2 }) = _
      rw [added]
      rfl
    · dsimp only at listed
      rw [Scoped, listed, List.find?_append, known]
      simp
    · -- scopes that were found before are still found first
      intro kind' scope known'
      dsimp only at listed
      rw [Scoped, listed, List.find?_append, known']
      rfl

omit [Engine σ] law in
/-- The scopes that are asked for are known then. -/
theorem exists_run_mapM_scopeOfKind {frame : Handle} (kinds : List ScopeKind)
    (hs : w.store.Consistent) (live : frame ∈ w.store.handlesOf .frame) :
    ∃ scopes s, (kinds.mapM (scopeOfKind frame)).run w = (scopes.map some, { w with store := s }) ∧
      w.store.Grown s ∧ List.Forall₂ (Scoped s frame) kinds scopes ∧
      ∀ {kind scope}, Scoped w.store frame kind scope → Scoped s frame kind scope := by
  -- induction on the kinds: a scope that is listed stays listed while the others are added
  induction kinds generalizing w with
  | nil => exact ⟨[], w.store, rfl, .refl _, .nil, id⟩
  | cons kind kinds ih =>
    obtain ⟨scope, s, run, grown, known, others⟩ := exists_run_scopeOfKind kind hs live
    obtain ⟨scopes, s', run', grown', known', others'⟩ :=
      ih (w := { w with store := s }) (grown.consistent hs) (grown.mem live)
    refine ⟨scope :: scopes, s', ?_, grown.trans grown', .cons (others' known) known',
      fun h => others' (others h)⟩
    rw [List.mapM_cons, StateT.run_bind, run]
    change (do
      let rest ← kinds.mapM (scopeOfKind (σ := σ) frame)
      return some scope :: rest : WorkerM σ _).run { w with store := s } = _
    rw [StateT.run_bind, run']
    rfl

omit [Engine σ] law in
/-- Scopes that the frame has already are all taken as they are. -/
private theorem run_mapM_scopeOfKind_again {frame : Handle} {kinds : List ScopeKind}
    {scopes : List (Registered Scope)}
    (known : List.Forall₂ (Scoped w.store frame) kinds scopes) :
    (kinds.mapM (scopeOfKind frame)).run w = (scopes.map some, w) := by
  induction known with
  | nil => rfl
  | cons here _ ih =>
    rw [List.mapM_cons, StateT.run_bind, run_scopeOfKind_of_scoped here]
    change (do
      let rest ← List.mapM (scopeOfKind (σ := σ) frame) _
      return some _ :: rest : WorkerM σ _).run w = _
    rw [StateT.run_bind, ih]
    rfl

omit law in
/-- Scopes are listed for a known frame that can be selected. -/
theorem run_scopes_eq (frame : Handle) (w : Worker σ) :
    (scopes frame).run w = (do
      if (w.store.frameAt? frame).isNone then return []
      match ← (selectFrame frame).run with
      | .error _ => return []
      | .ok _ => return (← ScopeKind.all.mapM (scopeOfKind frame)).filterMap id : WorkerM σ _).run w :=
  rfl

omit law in
/-- A frame that is not known has no scopes, and asking for them changes nothing. -/
theorem run_scopes_of_unknown {frame : Handle} (unknown : w.store.frameAt? frame = none) :
    (scopes frame).run w = ([], w) := by
  rw [run_scopes_eq, unknown]
  rfl

omit law in
/-- For a known frame, the scopes depend on whether it can be selected. -/
private theorem run_scopes {frame : Handle} {f : DebugAdapter.Frame} {t : Thread}
    (placed : w.store.Placed frame f t) {r : Except EngineError (Option (UInt32 × UInt32))}
    (chosen : (chooseFrame t.systemId f.order frame).run.run w = (r, w')) :
    (scopes frame).run w = (do
      match r with
      | .error _ => return []
      | .ok _ => return (← ScopeKind.all.mapM (scopeOfKind frame)).filterMap id : WorkerM σ _).run w' := by
  rw [run_scopes_eq, placed.frameAt?_eq]
  change (do
    match ← (selectFrame frame).run with
    | .error _ => return []
    | .ok _ => return (← ScopeKind.all.mapM (scopeOfKind frame)).filterMap id : WorkerM σ _).run w = _
  rw [StateT.run_bind, selectFrame_of_placed placed, chosen]
  rfl

/-- The scopes of a frame are listed alike the second time. -/
private theorem repeats_scopes (frame : Handle) (here : At v w.session.engine)
    (hs : w.store.Consistent) : Repeats (scopes frame) w := by
  cases known : w.store.frameAt? frame with
  | none => exact .of_runs (run_scopes_of_unknown known) (run_scopes_of_unknown known) rfl
  | some f =>
    obtain ⟨t, placed⟩ := hs.exists_placed known
    obtain ⟨r, chosen, chosenFrame, v', first, again, -, only, -⟩ :=
      law.chooseFrame t.systemId f.order frame here
    obtain ⟨engine₁, here₁, run₁⟩ := first w here
    let w₁ : Worker σ := { w with
      session := { w.session with engine := engine₁ }
      store := w.store.choose chosen chosenFrame }
    have live : frame ∈ w.store.handlesOf .frame :=
      Store.mem_handlesOf_of_get? (hs.frameAt?_iff.1 known)
    have hs₁ : w₁.store.Consistent := hs.choose chosen fun f' e => only f' e ▸ live
    have placed₁ : w₁.store.Placed frame f t := hs.placed_choose placed hs₁
    cases r with
    -- the frame is refused both times
    | error e =>
      obtain ⟨engine₂, -, run₂⟩ := again w₁ here₁
      exact .of_runs (run_scopes placed run₁) (run_scopes placed₁ run₂)
        (Store.choose_of_chosen rfl rfl)
    | ok answer =>
      obtain ⟨found, s, run₂, grown, listed, -⟩ :=
        exists_run_mapM_scopeOfKind (w := w₁) ScopeKind.all hs₁ live
      let w₂ : Worker σ := { w₁ with store := s }
      have hs₂ : s.Consistent := grown.consistent hs₁
      have placed₂ : w₂.store.Placed frame f t :=
        hs₁.placed_of_has hs₂ placed₁ fun _ _ _ _ has => grown.has has
      obtain ⟨engine₃, here₃, run₃⟩ := again w₂ here₁
      -- the second time the frame is chosen already
      have same : s.choose chosen chosenFrame = s :=
        Store.choose_of_chosen grown.currentThread_eq grown.currentFrame_eq
      have run₄ := run_mapM_scopeOfKind_again (w := { w₂ with
        session := { w₂.session with engine := engine₃ } }) listed
      have first : (scopes frame).run w = ((found.map some).filterMap id, w₂) := by
        rw [run_scopes placed run₁, StateT.run_bind, run₂]
        rfl
      have again : (scopes frame).run w₂ = ((found.map some).filterMap id, { w₂ with
          session := { w₂.session with engine := engine₃ } }) := by
        rw [run_scopes placed₂ run₃, StateT.run_bind, same, run₄]
        rfl
      exact .of_runs first again rfl

/-! ## Variables -/

/-- Decode the children of a variable, and register them. -/
def lookUpChildren (holder : Handle) (origin : NamedValue) :
    WorkerM σ (List (Registered Variable)) := do
  let children ← inMemory (VisualizerRegistry.standard.children origin)
  registerAll holder .variable (fun v => some <$> inMemory (present v)) children

/-- Expanding a value fills its place in the store, unless it has no children. -/
private theorem exists_fills_lookUpChildren (size : UInt8) (holder : Handle) (origin : NamedValue) :
    ∃ nothing, Fills (At v) (·.variablesOf holder)
      (fun w => holder ∈ w.store.handlesOf .variable ∧ w.pointerSize = size)
      (lookUpChildren holder origin) nothing := by
  -- the number of children is the same whenever they are decoded
  have settled : Settles (Memory.In (At v) size) List.length
      (VisualizerRegistry.standard.children origin) := ReadsSame.children (law.readsSame v) origin
  obtain ⟨count, decoded⟩ := settled
  refine ⟨count = 0, ?_⟩
  rintro w here hs ⟨live, rfl⟩
  obtain ⟨counted, there, -⟩ :=
    decoded ⟨w.session.engine, w.typeNames, w.pointerSize⟩ ⟨here, rfl⟩
  let decoding := (VisualizerRegistry.standard.children origin).run
    ⟨w.session.engine, w.typeNames, w.pointerSize⟩
  -- the worker once the children are decoded
  let w₁ : Worker σ := { w with
    session := { w.session with engine := decoding.2.engine }
    typeNames := decoding.2.typeNames }
  have F : ∀ size, Memory.ReadFrame (Memory.In (At v) size) := readFrame (lookedFrom law v)
  have glances : ∀ c, Glances (At v) (some <$> inMemory (σ := σ) (present c)) :=
    fun c => (Glances.inMemory fun size => keeps_present (F size) c).map some
  obtain ⟨found, w', run, registering, none⟩ := registering_registerAll (w := w₁)
    (Store.appends_variable rfl holder) glances (fun _ _ _ => rfl) decoding.1 there hs live
  refine ⟨found, w', run, ⟨registering.engine, ?_, registering.grown, registering.listed,
    registering.none⟩, none.trans ?_⟩
  · obtain ⟨engine', typeNames, store, rfl⟩ := registering.beside
    exact ⟨engine', typeNames, store, rfl⟩
  · -- every child that is decoded is listed, so none is listed only if none is decoded
    rw [← counted]
    change _ ↔ decoding.1.length = 0
    cases decoding.1 with
    | nil => exact iff_of_true nofun rfl
    | cons c rest => exact iff_of_false (fun hidden => nomatch hidden c List.mem_cons_self) nofun

/-- A value is expanded alike the second time, and stays as it is. -/
private theorem repeats_expand (holder : Registered Variable) (here : At v w.session.engine)
    (hs : w.store.Consistent) (live : holder.handle ∈ w.store.handlesOf .variable) :
    Repeats (expand holder) w ∧
      ((expand holder).run w).2.store.get? holder.handle = w.store.get? holder.handle := by
  obtain ⟨nothing, fills⟩ :=
    exists_fills_lookUpChildren law (v := v) w.pointerSize holder.handle holder.content.origin
  obtain ⟨found, w₁, run, here₁, beside, grown, listed, empty⟩ :=
    exists_run_listOr fills here hs ⟨live, rfl⟩
  -- the decoding is done for the same size of pointers
  have size : w₁.pointerSize = w.pointerSize := by
    obtain ⟨engine, typeNames, store, rfl⟩ := beside
    rfl
  obtain ⟨w₂, run', same⟩ :=
    run_listOr_again fills here₁ (grown.consistent hs) ⟨grown.mem live, size⟩ listed empty
  have run : (expand holder).run w = (found, w₁) := run
  have kept := grown.has ⟨hs, (hs.handle_range live).2, rfl, rfl⟩
  refine ⟨.of_runs run run' same, ?_⟩
  rw [run]
  exact kept.get?_eq

/-! ### Symbols -/

/-- The symbols of a group are shown below a scope, or what is known there is shown again if there are as
many symbols as before. -/
def showSymbols (scope : Handle) (key : GroupKey) (previous : Option CachedGroup)
    (group : GroupId) (count : UInt32) : WorkerM σ (List (Registered Variable)) := do
  let known := (← get).store.variablesOf scope
  let found ←
    if previous.map (·.count) = some count && !known.isEmpty then pure known
    else do
      modifyStore (·.removeChildren scope)
      materialize scope group count
  putGroup key ⟨group, count⟩
  return found

/-- The number of symbols that is gone by. -/
private def symbolCount (l : SymbolListing) : UInt32 :=
  l.count.toOption.getD 0

/-- None of the symbols of a group is shown. -/
private def Hidden (l : SymbolListing) : Prop :=
  ∀ i ∈ (List.range (symbolCount l).toNat).map UInt32.ofNat, l.shows i = false

variable {l : SymbolListing} {g : GroupId} {scope : Handle} {key : GroupKey}
  {previous : Option CachedGroup} {count : UInt32}

omit law in
/-- Symbols are listed from the store if their number is the same as before, and read anew otherwise. -/
private theorem run_showSymbols (w : Worker σ) :
    (showSymbols scope key previous g count).run w = (do
      let found ←
        if previous.map (·.count) = some count && !(w.store.variablesOf scope).isEmpty then
          pure (w.store.variablesOf scope)
        else do
          modifyStore (·.removeChildren scope)
          materialize scope g count
      putGroup key ⟨g, count⟩
      return found : WorkerM σ _).run w :=
  rfl

omit law in
/-- With the number of symbols as before, the variables in the store are listed. -/
theorem run_showSymbols_of_known (same : previous.map (·.count) = some count)
    (some : w.store.variablesOf scope ≠ []) :
    (showSymbols scope key previous g count).run w =
      (w.store.variablesOf scope, { w with groups := (key, ⟨g, count⟩) :: w.groups }) := by
  have known : (previous.map (·.count) = Option.some count &&
      !(w.store.variablesOf scope).isEmpty) = true := by
    simp [same, some]
  rw [run_showSymbols, if_pos known]
  rfl

omit law in
/-- With another number of symbols, or with none in the store, they are read anew. -/
theorem run_showSymbols_of_other {found : List (Registered Variable)}
    (other : previous.map (·.count) = some count → w.store.variablesOf scope = [])
    (run : (materialize scope g count).run { w with store := w.store.removeChildren scope } =
      (found, w')) :
    (showSymbols scope key previous g count).run w =
      (found, { w' with groups := (key, ⟨g, count⟩) :: w'.groups }) := by
  have unknown : ¬(previous.map (·.count) = some count &&
      !(w.store.variablesOf scope).isEmpty) = true := by
    simpa using other
  rw [run_showSymbols, if_neg unknown]
  -- so what was listed is removed first, and everything is read anew
  change (do
    let found ← materialize scope g count
    putGroup key ⟨g, count⟩
    return found : WorkerM σ _).run { w with store := w.store.removeChildren scope } = _
  rw [StateT.run_bind, run]
  rfl

/-- Looking at a group changes neither the situation nor what the group lists. -/
private theorem lookedFrom_listing (v : ν) (g : GroupId) (l : SymbolListing) :
    LookedFrom fun s => At v s ∧ SymbolListing.of s g = l := by
  rintro α m h s ⟨here, rfl⟩
  exact ⟨lookedFrom law v h s here, law.listing h here g⟩

/-- The symbols of a group are registered below the scope, and none is if all of them are hidden. -/
private theorem registering_materialize (here : At v w.session.engine)
    (listing : SymbolListing.of w.session.engine g = l) (hs : w.store.Consistent)
    (live : scope ∈ w.store.handlesOf .scope) :
    ∃ found w', (materialize scope g (symbolCount l)).run w = (found, w') ∧
      Registering (At v) (·.variablesOf scope) w w' found ∧ (found = [] ↔ Hidden l) := by
  have looked : LookedFrom fun s => At v s ∧ SymbolListing.of s g = l := lookedFrom_listing law v g l
  obtain ⟨found, w', run, registering, none⟩ := registering_registerAll
    (P := fun s => At v s ∧ SymbolListing.of s g = l) (Store.appends_variable rfl scope)
    (glances_describeSymbol looked g)
    (fun i w hw => ensures_describeSymbol g l i w hw.2)
    ((List.range (symbolCount l).toNat).map UInt32.ofNat) ⟨here, listing⟩ hs live
  exact ⟨found, w', run, ⟨registering.engine.1, registering.beside, registering.grown,
    registering.listed, registering.none⟩, none⟩

/-- What is left when the symbols of a group were shown below a scope: they are known there, with their
number, and the choices and all that is older than what is below the scope are as they were. -/
private structure Shown (P : σ → Prop) (l : SymbolListing) (scope : Handle) (key : GroupKey)
    (w w' : Worker σ) (found : List (Registered Variable)) : Prop where
  engine : P w'.session.engine
  consistent : w'.store.Consistent
  groups : ∃ g, w'.groups = (key, ⟨g, symbolCount l⟩) :: w.groups
  currentThread_eq : w'.store.currentThread = w.store.currentThread
  currentFrame_eq : w'.store.currentFrame = w.store.currentFrame
  older : ∀ h entity holder, h.raw ≤ scope.raw → w.store.Has h entity holder →
    w'.store.Has h entity holder
  listed : w'.store.variablesOf scope = found
  none : found = [] → Hidden l

/-- Symbols are listed in the store, and nothing older than the scope is touched. -/
private theorem exists_shown (here : At v w.session.engine)
    (listing : SymbolListing.of w.session.engine g = l) (hs : w.store.Consistent) {c : Scope}
    (is : w.store.get? scope = some (.scope c)) (key : GroupKey) (previous : Option CachedGroup) :
    ∃ found w', (showSymbols scope key previous g (symbolCount l)).run w = (found, w') ∧
      Shown (At v) l scope key w w' found := by
  -- known variables are listed as they are, others are removed and read anew
  by_cases known : previous.map (·.count) = some (symbolCount l) ∧ w.store.variablesOf scope ≠ []
  · exact ⟨_, _, run_showSymbols_of_known known.1 known.2, here, hs, ⟨g, rfl⟩, rfl, rfl,
      fun _ _ _ _ has => has, rfl, fun none => absurd none known.2⟩
  · have removed := hs.removed_removeChildren scope
    have live : scope ∈ w.store.handlesOf .scope := Store.mem_handlesOf_of_get? is
    obtain ⟨sameThread, sameFrame⟩ := hs.choices_removeChildren live
    -- what is below the scope is younger, so what is older is not removed
    have younger : ∀ h : Handle, h.raw ≤ scope.raw → ¬w.store.Below scope h := by
      intro h older below
      have later := hs.lt_of_below below
      omega
    -- the scope itself stays
    have kept : scope ∈ (w.store.removeChildren scope).handlesOf .scope :=
      Store.mem_handlesOf_of_get? ((removed.get?_eq (younger scope (Int.le_refl _))).trans is)
    obtain ⟨found, w₁, run, registering, none⟩ := registering_materialize law
      (w := { w with store := w.store.removeChildren scope }) here listing (hs.removeChildren scope) kept
    have groups : w₁.groups = w.groups := by
      obtain ⟨engine, typeNames, store, rfl⟩ := registering.beside
      rfl
    have listed := registering.listed
    dsimp only at listed
    rw [hs.variablesOf_removeChildren scope, List.nil_append] at listed
    have other : previous.map (·.count) = some (symbolCount l) → w.store.variablesOf scope = [] := by
      intro same
      by_contra some
      exact known ⟨same, some⟩
    refine ⟨found, _, run_showSymbols_of_other other run, registering.engine,
      registering.grown.consistent (hs.removeChildren scope), ⟨g, by rw [groups]⟩,
      registering.grown.currentThread_eq.trans sameThread,
      registering.grown.currentFrame_eq.trans sameFrame, ?_, listed, none.1⟩
    -- what is older was there before anything was added
    intro h entity holder older has
    have stays := younger h older
    have issued : w.store.issued ≤ ((Store.Op.removeChildren scope).apply w.store).issued :=
      Store.issued_le_apply nofun
    exact registering.grown.has ⟨hs.removeChildren scope,
      Int.le_trans has.issued (Int.ofNat_le.2 issued),
      (removed.get?_eq stays).trans has.get?_eq, (removed.parent?_eq stays).trans has.parent?_eq⟩

/-- What is known is shown again, and nothing is changed in the store. -/
private theorem run_showSymbols_again (key : GroupKey) (here : At v w.session.engine)
    (listing : SymbolListing.of w.session.engine g = l) (hs : w.store.Consistent)
    (live : scope ∈ w.store.handlesOf .scope) {found : List (Registered Variable)}
    (known : w.store.variablesOf scope = found) (none : found = [] → Hidden l)
    (same : previous.map (·.count) = some (symbolCount l)) :
    ∃ w', (showSymbols scope key previous g (symbolCount l)).run w = (found, w') ∧
      w'.store = w.store := by
  -- an empty list is read anew each time, and then it is empty again
  by_cases empty : found = []
  · subst known
    have children : w.store.children scope = [] :=
      hs.children_eq_nil live (by intro k; cases k <;> decide) empty
    have unchanged : w.store.removeChildren scope = w.store := Store.removeChildren_of_children children
    obtain ⟨found, w', run, registering, fresh⟩ := registering_materialize law here listing hs live
    obtain rfl : found = [] := fresh.2 (none empty)
    have run' : (materialize scope g (symbolCount l)).run
        { w with store := w.store.removeChildren scope } = ([], w') := by
      rw [unchanged]
      exact run
    rw [empty]
    exact ⟨_, run_showSymbols_of_other (fun _ => empty) run', registering.none rfl⟩
  · subst known
    exact ⟨_, run_showSymbols_of_known same empty, rfl⟩

/-- What is done for a scope of a frame that is selected. -/
def listSymbols (scope : Handle) (key : GroupKey) : WorkerM σ (List (Registered Variable)) := do
  let previous ← takeGroup? key
  match ← ask? (Engine.scopeSymbolGroup key.kind (previous.map (·.group))) with
  | none => return []
  | some group => showSymbols scope key previous group ((← ask? (Engine.groupCount group)).getD 0)

omit law in
/-- The engine refuses to list the symbols. -/
private theorem run_listSymbols_of_refused (scope : Handle) (key : GroupKey) {e : EngineError}
    (refused : ∀ previous, (Engine.scopeSymbolGroup key.kind previous).Answers (At v) (.error e) (At v))
    (here : At v w.session.engine) :
    ∃ w', (listSymbols scope key).run w = ([], w') ∧ At v w'.session.engine ∧ w'.store = w.store := by
  -- the group that was remembered is taken off the list, and lost with the refusal
  let taken : Worker σ := { w with groups := w.groups.filter (·.1 != key) }
  let previous := ((w.groups.find? (·.1 == key)).map (·.2)).map (·.group)
  obtain ⟨engine, there, run⟩ := passes_ask? (refused previous) taken here
  have step : (listSymbols scope key).run w = (do
      match ← ask? (Engine.scopeSymbolGroup key.kind previous) with
      | none => return []
      | some group =>
        showSymbols scope key ((w.groups.find? (·.1 == key)).map (·.2)) group
          ((← ask? (Engine.groupCount group)).getD 0) : WorkerM σ _).run taken := rfl
  refine ⟨{ taken with session := { taken.session with engine } }, ?_, there, rfl⟩
  rw [step, StateT.run_bind, run]
  rfl

/-- The engine lists the symbols in a group. -/
private theorem run_listSymbols_of_listed (scope : Handle) (key : GroupKey)
    (lists : ∀ previous s, At v s → ∃ g,
      ((Engine.scopeSymbolGroup key.kind previous).call s).1 = .ok g ∧
        At v ((Engine.scopeSymbolGroup key.kind previous).call s).2 ∧
        SymbolListing.of ((Engine.scopeSymbolGroup key.kind previous).call s).2 g = l)
    (here : At v w.session.engine) :
    ∃ g engine, At v engine ∧ SymbolListing.of engine g = l ∧
      (listSymbols scope key).run w =
        (showSymbols scope key ((w.groups.find? (·.1 == key)).map (·.2)) g (symbolCount l)).run
          { w with
            session := { w.session with engine }
            groups := w.groups.filter (·.1 != key) } := by
  let previous := (w.groups.find? (·.1 == key)).map (·.2)
  obtain ⟨g, answer, there, listing⟩ := lists (previous.map (·.group)) _ here
  let engine := ((Engine.scopeSymbolGroup key.kind (previous.map (·.group))).call w.session.engine).2
  -- counting the symbols does not change the listing
  obtain ⟨there', listing'⟩ := lookedFrom_listing law v g l (.inr (.groupCount g)) engine ⟨there, listing⟩
  refine ⟨g, _, there', listing', ?_⟩
  -- the number that the engine counts is that of the listing
  have count : symbolCount l = (((Engine.groupCount g).call engine).1.toOption).getD 0 := by
    rw [← listing]
    rfl
  have step : (listSymbols scope key).run w = (do
      match ((Engine.scopeSymbolGroup key.kind (previous.map (·.group))).call
        w.session.engine).1.toOption with
      | none => return []
      | some group =>
        showSymbols scope key previous group ((← ask? (Engine.groupCount group)).getD 0) :
      WorkerM σ _).run { w with
        session := { w.session with engine }
        groups := w.groups.filter (·.1 != key) } := rfl
  rw [step, answer, count]
  rfl

omit law in
/-- The variables of a scope are the symbols of its kind, if its frame can be selected. -/
private theorem run_scopeVariables {scope : Registered Scope} {frame : Handle} {f : DebugAdapter.Frame}
    {t : Thread} (up : w.store.frameOf scope.handle = frame) (placed : w.store.Placed frame f t)
    {r : Except EngineError (Option (UInt32 × UInt32))}
    (chosen : (chooseFrame t.systemId f.order frame).run.run w = (r, w')) :
    (scopeVariables scope).run w = (do
      match r with
      | .error _ | .ok none => return []
      | .ok (some (thread, order)) =>
        listSymbols scope.handle ⟨thread, order, scope.content.kind⟩ : WorkerM σ _).run w' := by
  have looked : ∀ k : Worker σ → WorkerM σ (List (Registered Variable)),
      (get >>= k).run w = (k w).run w := fun _ => rfl
  unfold scopeVariables
  rw [looked]
  dsimp only
  rw [up, StateT.run_bind, selectFrame_of_placed placed, chosen]
  rfl

omit [Engine σ] law in
/-- The choices, the scope and what is older than it are as they were. -/
private structure Spares (scope : Handle) (s s' : Store) : Prop where
  consistent : s'.Consistent
  currentThread_eq : s'.currentThread = s.currentThread
  currentFrame_eq : s'.currentFrame = s.currentFrame
  older : ∀ h entity holder, h.raw ≤ scope.raw → s.Has h entity holder → s'.Has h entity holder

omit [Engine σ] law in
/-- A store that is left alone is spared. -/
private theorem Spares.refl {s : Store} (hs : s.Consistent) : Spares scope s s :=
  ⟨hs, rfl, rfl, fun _ _ _ _ has => has⟩

omit [Engine σ] law in
/-- A spared scope is still there. -/
private theorem Spares.get?_eq {s s' : Store} (spares : Spares scope s s') (hs : s.Consistent) {c : Scope}
    (is : s.get? scope = some (.scope c)) : s'.get? scope = some (.scope c) := by
  have issued := (hs.handle_range (Store.mem_handlesOf_of_get? is)).2
  exact (spares.older scope _ _ (Int.le_refl _) ⟨hs, issued, rfl, rfl⟩).get?_eq.trans is

omit [Engine σ] law in
/-- The way up from the scope leads over what is older, and so it is as it was. -/
private theorem Spares.placed {s s' : Store} (spares : Spares scope s s') (hs : s.Consistent) {c : Scope}
    {frame : Handle} {f : DebugAdapter.Frame} {t : Thread} (is : s.get? scope = some (.scope c))
    (up : s.frameOf scope = frame) (placed : s.Placed frame f t) :
    s'.get? scope = some (.scope c) ∧ s'.frameOf scope = frame ∧ s'.Placed frame f t := by
  obtain ⟨frame₀, -, held, up₀, -⟩ := hs.exists_frameOf is
  obtain rfl : frame₀ = frame := up₀.symm.trans up
  have issued := (hs.handle_range (Store.mem_handlesOf_of_get? is)).2
  have has := spares.older scope _ _ (Int.le_refl _) ⟨hs, issued, rfl, rfl⟩
  have is' := spares.get?_eq hs is
  obtain ⟨frame', -, held', up', -⟩ := spares.consistent.exists_frameOf is'
  obtain rfl : frame₀ = frame' := Option.some.inj (held.symm.trans (has.parent?_eq.symm.trans held'))
  have younger := hs.parent_lt held
  exact ⟨is', up', hs.placed_of_has spares.consistent placed fun g e p h has =>
    spares.older g e p (by omega) has⟩

omit [Engine σ] law in
/-- Listing symbols spares the scope and what it is below. -/
private theorem Shown.spares {P : σ → Prop} {key : GroupKey} {found : List (Registered Variable)}
    (shown : Shown P l scope key w w' found) : Spares scope w.store w'.store :=
  ⟨shown.consistent, shown.currentThread_eq, shown.currentFrame_eq, shown.older⟩

/-- The symbols of a scope are listed, and when they are listed again they are the same. -/
private theorem exists_run_listSymbols (key : GroupKey) (here : At v w.session.engine)
    (hs : w.store.Consistent) {c : Scope} (is : w.store.get? scope = some (.scope c)) :
    ∃ found w', (listSymbols scope key).run w = (found, w') ∧ At v w'.session.engine ∧
      Spares scope w.store w'.store ∧ ∀ engine, At v engine → ∃ w'',
        (listSymbols scope key).run { w' with session := { w'.session with engine } } = (found, w'') ∧
          w''.store = w'.store := by
  -- the engine refuses every group of the kind, or gives the same listing each time
  rcases law.scopeSymbolGroup key.kind v with ⟨e, refused⟩ | ⟨l, lists⟩
  · obtain ⟨w', run, there, same⟩ := run_listSymbols_of_refused scope key refused here
    refine ⟨[], w', run, there, by rw [same]; exact .refl hs, fun engine there => ?_⟩
    obtain ⟨w'', run', -, same'⟩ := run_listSymbols_of_refused scope key
      (w := { w' with session := { w'.session with engine } }) refused there
    exact ⟨w'', run', same'⟩
  · obtain ⟨g, engine, there, listing, run⟩ := run_listSymbols_of_listed law scope key lists here
    obtain ⟨found, w', shownRun, shown⟩ := exists_shown law (w := { w with
      session := { w.session with engine }
      groups := w.groups.filter (·.1 != key) }) there listing hs is key
      ((w.groups.find? (·.1 == key)).map (·.2))
    -- the second time, whatever state of the engine it starts from
    refine ⟨found, w', run.trans shownRun, shown.engine, shown.spares, fun engine there => ?_⟩
    obtain ⟨g', engine', there', listing', run'⟩ := run_listSymbols_of_listed law scope key
      (w := { w' with session := { w'.session with engine } }) lists there
    -- the group of the first time is known, with the number of its symbols
    have previous : ((w'.groups.find? (·.1 == key)).map (·.2)).map (·.count) =
        some (symbolCount l) := by
      obtain ⟨g'', groups⟩ := shown.groups
      rw [groups]
      simp
    have live : scope ∈ w'.store.handlesOf .scope :=
      Store.mem_handlesOf_of_get? (shown.spares.get?_eq hs is)
    obtain ⟨w'', again, same⟩ := run_showSymbols_again law key (w := { w' with
      session := { w'.session with engine := engine' }
      groups := w'.groups.filter (·.1 != key) }) there' listing' shown.consistent live
      shown.listed shown.none previous
    exact ⟨w'', run'.trans again, same⟩

/-- The variables of a scope are listed alike the second time, and the scope stays as it is. -/
private theorem repeats_scopeVariables (scope : Registered Scope) (here : At v w.session.engine)
    (hs : w.store.Consistent) (is : w.store.get? scope.handle = some (.scope scope.content)) :
    Repeats (scopeVariables scope) w ∧
      ((scopeVariables scope).run w).2.store.get? scope.handle = w.store.get? scope.handle := by
  obtain ⟨frame, f, held, up, found⟩ := hs.exists_frameOf is
  obtain ⟨t, placed⟩ := hs.exists_placed found
  obtain ⟨r, chosen, chosenFrame, v', first, again, -, only, answer⟩ :=
    law.chooseFrame t.systemId f.order frame here
  -- the first run chooses the frame
  obtain ⟨engine₁, here₁, run₁⟩ := first w here
  let w₁ : Worker σ := { w with
    session := { w.session with engine := engine₁ }
    store := w.store.choose chosen chosenFrame }
  have live : frame ∈ w.store.handlesOf .frame :=
    Store.mem_handlesOf_of_get? (hs.frameAt?_iff.1 found)
  have hs₁ : w₁.store.Consistent := hs.choose chosen fun f' e => only f' e ▸ live
  have placed₁ : w₁.store.Placed frame f t := hs.placed_choose placed hs₁
  have is₁ : w₁.store.get? scope.handle = some (.scope scope.content) := is
  have up₁ : w₁.store.frameOf scope.handle = frame := by
    obtain ⟨frame₁, -, held₁, up₁, -⟩ := hs₁.exists_frameOf is₁
    rw [up₁]
    exact Option.some.inj (held₁.symm.trans held)
  -- what two runs have to show to count as repeated
  have repeats : ∀ {found : List (Registered Variable)} {w₂ w₃ : Worker σ},
      (scopeVariables scope).run w = (found, w₂) → (scopeVariables scope).run w₂ = (found, w₃) →
      w₃.store = w₂.store → w₂.store.get? scope.handle = some (.scope scope.content) →
      Repeats (scopeVariables scope) w ∧
        ((scopeVariables scope).run w).2.store.get? scope.handle = w.store.get? scope.handle := by
    intro found w₂ w₃ run run' same is'
    refine ⟨.of_runs run run' same, ?_⟩
    rw [run, is]
    exact is'
  cases r with
  | error e =>
    -- the frame is refused both times
    obtain ⟨engine₂, -, run₂⟩ := again w₁ here₁
    exact repeats (run_scopeVariables up placed run₁) (run_scopeVariables up₁ placed₁ run₂)
      (Store.choose_of_chosen rfl rfl) is
  | ok a =>
    obtain rfl := answer a rfl
    obtain ⟨found, w₂, run₂, here₂, spares, listed⟩ :=
      exists_run_listSymbols law ⟨t.systemId, f.order, scope.content.kind⟩ (w := w₁) here₁ hs₁ is₁
    -- the second time the frame is chosen already
    obtain ⟨is₂, up₂, placed₂⟩ := spares.placed hs₁ is₁ up₁ placed₁
    have same : w₂.store.choose chosen chosenFrame = w₂.store :=
      Store.choose_of_chosen spares.currentThread_eq spares.currentFrame_eq
    obtain ⟨engine₃, here₃, run₃⟩ := again w₂ here₂
    rw [same] at run₃
    obtain ⟨w₄, run₄, same₄⟩ := listed engine₃ here₃
    exact repeats ((run_scopeVariables up placed run₁).trans run₂)
      ((run_scopeVariables up₂ placed₂ run₃).trans run₄) same₄ is₂

omit law in
/-- Variables are listed below a scope or below a variable, and nowhere else. -/
theorem run_variablesBelow (reference : Handle) (w : Worker σ) :
    (variablesBelow reference).run w = (match w.store.get? reference with
      | some (.scope c) => scopeVariables ⟨reference, c⟩
      | some (.variable x) => expand ⟨reference, x⟩
      | _ => pure []).run w :=
  rfl

/-- What is below a handle is listed alike the second time, whatever the handle is of. -/
private theorem repeats_variablesBelow (reference : Handle) (here : At v w.session.engine)
    (hs : w.store.Consistent) : Repeats (variablesBelow reference) w := by
  -- only a scope and a variable have variables below them
  cases is : w.store.get? reference with
  | none =>
    have run : (variablesBelow reference).run w = ([], w) := by rw [run_variablesBelow, is]; rfl
    exact .of_runs run run rfl
  | some e =>
    cases e with
    | thread t =>
      have run : (variablesBelow reference).run w = ([], w) := by rw [run_variablesBelow, is]; rfl
      exact .of_runs run run rfl
    | frame f =>
      have run : (variablesBelow reference).run w = ([], w) := by rw [run_variablesBelow, is]; rfl
      exact .of_runs run run rfl
    | scope c =>
      -- the scope stays what it is, so the second run takes the same way
      obtain ⟨repeats, kept⟩ := repeats_scopeVariables law ⟨reference, c⟩ here hs is
      refine repeats.of_step ?_ ?_
      · rw [run_variablesBelow, is]
      · rw [run_variablesBelow, kept, is]
    | «variable» x =>
      have live : reference ∈ w.store.handlesOf .variable := Store.mem_handlesOf_of_get? is
      obtain ⟨repeats, kept⟩ := repeats_expand law ⟨reference, x⟩ here hs live
      refine repeats.of_step ?_ ?_
      · rw [run_variablesBelow, is]
      · rw [run_variablesBelow, kept, is]

omit law in
/-- A request for variables is answered with what is below the handle. -/
theorem run_execute_variables (reference : Handle) (w : Worker σ) :
    ((execute (.variables reference)).run w).1 =
      .answered (.variables ((variablesBelow reference).run w).1) :=
  rfl

/-- A command that lists what is there lists the same when it is carried out again, and leaves the store
as it is then. -/
theorem repeats_execute {c : Command} (lists : c.lists = true) (here : At v w.session.engine)
    (hs : w.store.Consistent) : Repeats (execute c) w := by
  cases c with
  | threads => exact (repeats_threads law here hs).map fun found => Outcome.answered (.threads found)
  | stackTrace thread =>
    exact (repeats_stackTrace law thread here hs).map fun found => Outcome.answered (.frames found)
  | scopes frame => exact (repeats_scopes law frame here hs).map fun found => Outcome.answered (.scopes found)
  | «variables» reference =>
    exact (repeats_variablesBelow law reference here hs).map fun found => Outcome.answered (.variables found)
  | pause | processInfo | setBreakpoints | evaluate | setVariable | launch | attach | «continue»
  | step | terminate => cases lists

end

end Worker

namespace Observed

variable {σ ν : Type} [Engine σ]

/-- Whatever worker a gateway comes to have: on an engine whose answers do not change, what it lists it
lists again, under the same handles, and nothing is done to the store when it does. -/
theorem run_repeats (engine : σ) (options : GatewayOptions) (turns : List Turn) {w : Worker σ}
    (reached : ((new engine options).run turns).Reaches w) {At : ν → σ → Prop}
    (steady : Engine.Steady At) {v : ν} (here : At v w.session.engine) {c : Command}
    (lists : c.lists = true) :
    ((Worker.execute c).run (w.after c)).1 = ((Worker.execute c).run w).1 ∧
      ((w.after c).after c).store = (w.after c).store := by
  have again := Worker.repeats_execute steady lists here reached.consistent
  exact ⟨again.result_eq, again.store_eq⟩

/-- A debuggee with a local variable, after another symbol that cannot be read. -/
def partlyUnreadable : Scripted.World where
  callStacks := [(1, [⟨0x1000, 0⟩])]
  symbols := [("Locals", [none, some ⟨"x", "i32", "7", 0, 0, 0, none, 0⟩])]

/-- The scopes of its frame are listed. -/
def scopesListed : Observed Scripted.World :=
  (new partlyUnreadable {}).run ([.call (.submit (.launch ⟨"app", "app", [], []⟩)),
    .call (.submit (.stackTrace 1)), .call (.submit (.scopes ⟨2⟩))] ++ List.replicate 11 .engine)

/-- The variable is shown twice under one handle. -/
theorem run_repeats_partlyUnreadable :
    let w := scopesListed.gateway.worker
    let c := Command.variables ⟨3⟩
    let x : Variable := .ofRendering ⟨"x", "i32", .none⟩ (.leaf "7")
    ((Worker.execute c).run w).1 = .answered (.variables [⟨⟨5⟩, x⟩]) ∧
      ((Worker.execute c).run (w.after c)).1 = .answered (.variables [⟨⟨5⟩, x⟩]) := by
  intro w c x
  have shown : ((Worker.variablesBelow ⟨3⟩).run w).1 = [⟨⟨5⟩, x⟩] := by decide +kernel
  -- the unreadable symbol is left out both times
  have first : ((Worker.execute c).run w).1 = .answered (.variables [⟨⟨5⟩, x⟩]) := by
    rw [Worker.run_execute_variables, shown]
  have reached : scopesListed.Reaches w := .inl rfl
  have again := run_repeats partlyUnreadable {} _ reached Scripted.World.steady
    (Scripted.World.at_essence _) (c := c) rfl
  exact ⟨first, again.1.trans first⟩

end Observed

end DebugAdapter
