import DebugAdapter.Proofs.FrameSelection
import DebugAdapter.Proofs.VariableWrites

/-!
# Variables far below their frame

The way up from a variable to its frame is followed over fewer than `Store.maxAncestorDepth` holders. It
can be longer: a client that expands a list node by node comes to any depth. Then no frame is selected when
a variable is set there, and the value is computed in whatever frame the engine has selected.

## Key results

- `Observed.Chained.exists_deeper`: a list is shown to any depth
- `Observed.computed_elsewhere`: two values that are computed in another frame, and given without an error
-/

namespace DebugAdapter

/-! ## A variable below another one -/

namespace Store

variable {s : Store} {a h : Handle} {n : Nat}

/-- What is above an entity stays above it when something is added. -/
theorem Rises.add (hs : s.Consistent) (rises : s.Rises a n h) (parent : Handle) (e : Entity) :
    (s.add parent e).2.Rises a n h := by
  induction rises with
  | refl => exact .refl
  | step held _ ih =>
    obtain ⟨k, -, mem⟩ := hs.parent_iff.1 ⟨_, held⟩
    have has : s.Has _ _ _ := ⟨hs, (hs.handle_range mem).2, rfl, held⟩
    exact .step (has.add parent e).parent?_eq ih

/-- A variable that is added below another one holds nothing yet. -/
theorem Consistent.add_below (hs : s.Consistent) {u : Variable} (found : s.get? h = some (.variable u))
    (bare : s.variablesOf h = []) (v : Variable) :
    let s' := (s.add h (.variable v)).2
    s'.variablesOf h = [⟨s.nextHandle, v⟩] ∧ s'.variablesOf s.nextHandle = [] ∧
      s'.issued = s.issued + 1 := by
  intro s'
  have live : h ∈ s.handlesOf .variable := mem_handlesOf_of_get? found
  have hold : EntityKind.mayHold .variable .variable = true := rfl
  obtain ⟨added, listed⟩ := appends_variable hold h s hs live v
  have new : (Op.add h (.variable v)).newHandle? s = some s.nextHandle := congrArg Except.toOption added
  have issued : s'.issued = s.issued + 1 := (of_newHandle?_eq_some new).2
  refine ⟨listed.trans (by simp only [bare, List.nil_append]), ?_, issued⟩
  have hs' : s'.Consistent := hs.add h (.variable v)
  refine List.eq_nil_iff_forall_not_mem.2 fun r mem => ?_
  -- a child of the new entity would be younger than the youngest
  have older := hs'.parent_lt (hs'.parent?_of_mem_variablesOf mem)
  have range := (hs'.handle_range (mem_handlesOf_of_get? (hs'.get?_of_mem_variablesOf mem))).2
  rw [issued] at range
  simp only [nextHandle] at older
  omega

end Store

namespace Scripted.World

/-! ## Reading from a scripted engine -/

/-- The world is what the answers rest on, and what is recorded and handed out. -/
private theorem eq_of_essence {w w' : World} (essence : w'.essence = w.essence) (calls : w'.calls = w.calls)
    (asked : w'.typeNameCalls = w.typeNameCalls) (groups : w'.groups = w.groups) : w' = w := by
  have whole : ∀ w : World, w = { w.essence with
      calls := w.calls, typeNameCalls := w.typeNameCalls, groups := w.groups } := fun _ => rfl
  rw [whole w', whole w, essence, calls, asked, groups]

/-- What is recorded and handed out, and the type names remembered. -/
private def record (mem : Memory World) : List Call × Nat × List Group × TypeNameCache :=
  (mem.engine.calls, mem.engine.typeNameCalls, mem.engine.groups, mem.typeNames)

/-- A look that neither is recorded nor remembers a name leaves everything as it is. -/
private theorem run_of_record {α : Type} {m : MemoryM World α} (mem : Memory World)
    (reads : ∀ {I : Memory World → Prop}, Memory.ReadFrame I → Keeps I m)
    (same : record (m.run mem).2 = record mem) : m.run mem = ((m.run mem).1, mem) := by
  have answers : ReadsSame (At mem.engine.essence) := steady.readsSame _
  obtain ⟨essence, size⟩ := reads answers.readFrame mem ⟨mem.engine.at_essence, rfl⟩
  simp only [record, Prod.mk.injEq] at same
  obtain ⟨calls, asked, groups, names⟩ := same
  have engine : (m.run mem).2.engine = mem.engine := eq_of_essence essence calls asked groups
  have whole : ∀ mem : Memory World, mem = ⟨mem.engine, mem.typeNames, mem.pointerSize⟩ := fun _ => rfl
  have unchanged : (m.run mem).2 = mem := by rw [whole (m.run mem).2, engine, names, size]
  exact Prod.ext rfl unchanged

/-- The status is told without a trace. -/
private theorem run_wantsWait (w : Worker World) :
    Worker.wantsWait.run w = ((Worker.wantsWait.run w).1, w) := by
  have told : ((Engine.executionStatus : EngineM World _).call w.session.engine).2 = w.session.engine :=
    keeps_asking (I := (· = w.session.engine)) (fun _ => .ok _) _ rfl
  have asked : (Worker.wantsWait.run w).2 = { w with session := { w.session with
      engine := ((Engine.executionStatus : EngineM World _).call w.session.engine).2 } } := rfl
  rw [told] at asked
  exact Prod.ext rfl asked

end Scripted.World

/-! ## A variable is expanded -/

namespace Worker

variable {σ : Type} [Engine σ]

/-- The only child of a variable is stored below it when it is shown. -/
private theorem run_variables {w : Worker σ} {h : Handle} {u shown : Variable} {v : NamedValue}
    (known : w.store.get? h = some (.variable u)) (bare : w.store.variablesOf h = [])
    (children : (VisualizerRegistry.standard.children u.origin).run w.memory = ([v], w.memory))
    (presented : (present v).run w.memory = (shown, w.memory)) :
    ∃ r, (execute (.variables h)).run w =
      (.answered r, { w with store := (w.store.add h (.variable shown)).2 }) := by
  -- a look at the worker changes nothing
  have looked : ∀ {α : Type} (k : Worker σ → WorkerM σ α), (get >>= k).run w = (k w).run w := fun _ => rfl
  -- nor does an inspection of memory that leaves the memory as it is
  have seen : ∀ {α : Type} {m : MemoryM σ α} {a : α}, m.run w.memory = (a, w.memory) →
      (inMemory m).run w = (a, w) := by
    intro α m a same
    have run : (inMemory m).run w = ((m.run w.memory).1, w.looked (m.run w.memory).2) := rfl
    rw [run, same]
    rfl
  have below : (variablesBelow h).run w = (expand ⟨h, u⟩).run w := by
    rw [variablesBelow, looked, known]
  -- nothing is listed below the value yet, so its children are registered
  have expanded : (expand ⟨h, u⟩).run w =
      (registerAll h Entity.variable (fun v => some <$> inMemory (present v)) [v]).run w := by
    rw [expand, looked]
    dsimp only
    rw [bare]
    show (inMemory (VisualizerRegistry.standard.children u.origin) >>= _ : WorkerM σ _).run w = _
    rw [StateT.run_bind, seen children]
    rfl
  have executed : (execute (.variables h)).run w =
      (variablesBelow h >>= fun r => pure (Outcome.answered (.variables r))).run w := rfl
  rw [executed, StateT.run_bind, below, expanded, registerAll, List.mapM_cons, List.mapM_nil]
  simp only [StateT.run_bind, StateT.run_map, seen presented]
  exact ⟨_, rfl⟩

/-- Nothing is selected for what is not a frame. -/
private theorem selecting_of_frameAt? {w : Worker σ} {h : Handle} (other : w.store.frameAt? h = none) :
    w.selecting h = w := by
  have looked : ∀ k : Worker σ → ExceptT EngineError (WorkerM σ) (Option (UInt32 × UInt32)),
      (getThe (Worker σ) >>= k).run.run w = (k w).run.run w := fun _ => rfl
  rw [selecting, selectFrame, looked]
  dsimp only
  rw [other]
  rfl

end Worker

/-! ## A command of an idle gateway -/

namespace Gateway

variable {σ : Type} [Engine σ]

/-- The gateway waits for a command. -/
structure Waits (g : Gateway σ) : Prop where
  phase : g.phase = .ready
  queue : g.queue = []
  accepting : g.accepting = true
  going : g.worker.cancelled = false
  idle : Worker.wantsWait.run g.worker = (false, g.worker)

/-- A gateway that waits for a command waits for one again when it has carried out one that only stores
something. -/
theorem Waits.run_command {g : Gateway σ} (waits : g.Waits) {c : Command} (on : c ≠ .terminate) {r : Reply}
    {s : Store} (done : (Worker.execute c).run g.worker = (.answered r, { g.worker with store := s })) :
    (g.run [.submit c, .advance, .advance, .advance]).worker = { g.worker with store := s } ∧
      (g.run [.submit c, .advance, .advance, .advance]).Waits := by
  obtain ⟨phase, queue, accepting, going, idle⟩ := waits
  obtain ⟨w, phase, queue, accepts, issued, answers, disposed, silenced⟩ := g
  dsimp only at phase queue accepting going idle done ⊢
  subst phase queue accepting
  -- whether to wait for the debuggee does not depend on the store
  have idle' : Worker.wantsWait.run { w with store := s } = (false, { w with store := s }) := by
    have same : Worker.wantsWait.run { w with store := s } =
        ((Worker.wantsWait.run w).1, { (Worker.wantsWait.run w).2 with store := s }) := rfl
    rw [same, idle]
  have going' : ({ w with store := s } : Worker σ).cancelled = false := going
  generalize ({ w with store := s } : Worker σ) = w' at done idle' going' ⊢
  -- the command is queued and taken, the queue is found empty, and the engine is asked once more
  have submitted : act ⟨w, .ready, [], true, issued, answers, disposed, silenced⟩ (.submit c) =
      ⟨w, .ready, [(issued, c)], true, issued + 1, answers, disposed, silenced⟩ := by
    simp [act, submit, on]
  have executed : act ⟨w, .ready, [(issued, c)], true, issued + 1, answers, disposed, silenced⟩
      .advance = ⟨w', .draining, [], true, issued + 1, answers ++ [(issued, r)], disposed, silenced⟩ := by
    simp [act, advance, work, idle, takeCommand, perform, done, reply, goto]
  have drained : act ⟨w', .draining, [], true, issued + 1, answers ++ [(issued, r)], disposed, silenced⟩
      .advance = ⟨w', .looping, [], true, issued + 1, answers ++ [(issued, r)], disposed, silenced⟩ := by
    simp [act, advance, going', takeCommand, goto]
  have looped : act ⟨w', .looping, [], true, issued + 1, answers ++ [(issued, r)], disposed, silenced⟩
      .advance = ⟨w', .ready, [], true, issued + 1, answers ++ [(issued, r)], disposed, silenced⟩ := by
    simp [act, advance, going', work, idle', goto]
  have run : (⟨w, .ready, [], true, issued, answers, disposed, silenced⟩ : Gateway σ).run
      [.submit c, .advance, .advance, .advance] =
      ⟨w', .ready, [], true, issued + 1, answers ++ [(issued, r)], disposed, silenced⟩ := by
    simp only [run, List.foldl_cons, List.foldl_nil, submitted, executed, drained, looped]
  rw [run]
  exact ⟨rfl, rfl, rfl, rfl, going', idle'⟩

end Gateway

/-! ## A list that is shown node by node -/

namespace Observed

section

variable {σ : Type} [Engine σ]

/-- The gateway waits for a command. Below a frame `frame`, `n` steps down, there is `holder`, and all that is
shown below it is `last`, below which nothing is shown yet. The only child of `last` is shown as `node`, as
`last` is. -/
structure Chained (o : Observed σ) (frame : Handle) (f : Frame) (node : Variable) (n : Nat)
    (holder last : Handle) : Prop where
  waits : o.gateway.Waits
  consistent : o.gateway.worker.store.Consistent
  live : o.gateway.worker.store.frameAt? frame = some f
  rises : o.gateway.worker.store.Rises frame n holder
  listed : o.gateway.worker.store.variablesOf holder = [⟨last, node⟩]
  bare : o.gateway.worker.store.variablesOf last = []
  children : (VisualizerRegistry.standard.children node.origin).run o.gateway.worker.memory =
    ([node.origin], o.gateway.worker.memory)
  presented : (Worker.present node.origin).run o.gateway.worker.memory = (node, o.gateway.worker.memory)

variable {o : Observed σ} {frame holder last : Handle} {f : Frame} {node : Variable} {n : Nat}

/-- The last node is expanded. -/
private theorem Chained.expand (chained : o.Chained frame f node n holder last) :
    ∃ turns last' s, (o.run turns).gateway.worker = { o.gateway.worker with store := s } ∧
      (o.run turns).Chained frame f node (n + 1) last last' := by
  have hs := chained.consistent
  have found : o.gateway.worker.store.get? last = some (.variable node) :=
    hs.get?_of_mem_variablesOf (chained.listed ▸ List.mem_singleton_self _)
  obtain ⟨r, done⟩ := Worker.run_variables found chained.bare chained.children chained.presented
  obtain ⟨listed, bare, -⟩ := hs.add_below found chained.bare node
  obtain ⟨worker, waits⟩ := chained.waits.run_command (c := .variables last) (fun h => by cases h) done
  have same : (o.run [.call (.submit (.variables last)), .engine, .engine, .engine]).gateway =
      o.gateway.run [.submit (.variables last), .advance, .advance, .advance] := rfl
  -- one look at the children of the last node, with the turns it takes to be answered
  refine ⟨[.call (.submit (.variables last)), .engine, .engine, .engine],
    o.gateway.worker.store.nextHandle, (o.gateway.worker.store.add last (.variable node)).2, ?_,
    ⟨?_, ?_, ?_, ?_, ?_, ?_, ?_, ?_⟩⟩
  · rw [same, worker]
  · rw [same]
    exact waits
  -- what else makes a chain is about the store, which has one node more
  all_goals rw [same, worker]
  · exact hs.add last (.variable node)
  · have frame' := (hs.get?_add last (.variable node)).1 (hs.frameAt?_iff.1 chained.live)
    exact (hs.add last (.variable node)).frameAt?_iff.2 frame'
  · have holder' : o.gateway.worker.store.parent? last = some holder :=
      hs.parent?_of_mem_variablesOf (chained.listed ▸ List.mem_singleton_self _)
    exact (Store.Rises.step holder' chained.rises).add hs last _
  · exact listed
  · exact bare
  · exact chained.children
  · exact chained.presented

/-- Nodes are shown at any depth. -/
theorem Chained.exists_deeper (chained : o.Chained frame f node n holder last) (more : Nat) :
    ∃ turns holder' last' s, (o.run turns).gateway.worker = { o.gateway.worker with store := s } ∧
      (o.run turns).Chained frame f node (n + more) holder' last' := by
  induction more with
  | zero => exact ⟨[], holder, last, _, rfl, chained⟩
  | succ more ih =>
    obtain ⟨turns, holder', last', s, worker, chained'⟩ := ih
    obtain ⟨turns', last'', s', worker', chained''⟩ := chained'.expand
    refine ⟨turns ++ turns', last', last'', s', ?_, ?_⟩
    · rw [run_append, worker', worker]
    · rw [run_append]
      exact chained''

/-- A node too far below its frame is set in whatever frame is selected. -/
private theorem Chained.run_setVariable (chained : o.Chained frame f node n holder last)
    (far : Store.maxAncestorDepth ≤ n) (value : String) :
    o.gateway.worker.selecting (o.gateway.worker.store.frameOf holder) = o.gateway.worker ∧
      (Worker.setVariable holder node.name value).run o.gateway.worker =
        (Worker.overwriteSelected ⟨last, node⟩ value).run o.gateway.worker := by
  have hs := chained.consistent
  have itself : o.gateway.worker.store.frameOf holder = holder :=
    hs.frameOf_of_far chained.live chained.rises far
  -- where the search gives up there is no frame
  have frames : o.gateway.worker.store.frameAt? holder = none := by
    refine Option.eq_none_iff_forall_ne_some.2 fun f' found => ?_
    have frame' := Store.mem_handlesOf_of_get? (hs.frameAt?_iff.1 chained.live)
    have deeper : o.gateway.worker.store.Rises frame (n - 1 + 1) holder := by
      rw [Nat.sub_add_cancel (Nat.le_trans (by decide) far)]
      exact chained.rises
    exact hs.not_frame_of_rises frame' deeper (Store.mem_handlesOf_of_get? (hs.frameAt?_iff.1 found))
  have unselected : o.gateway.worker.selecting (o.gateway.worker.store.frameOf holder) =
      o.gateway.worker := by
    rw [itself]
    exact Worker.selecting_of_frameAt? frames
  -- the node is found by its name below its holder
  have named : o.gateway.worker.variableNamed? holder node.name = some ⟨last, node⟩ := by
    rw [Worker.variableNamed?, chained.listed, List.find?_cons_of_pos (by exact beq_self_eq_true _)]
  refine ⟨unselected, ?_⟩
  rw [Worker.run_setVariable value named, unselected]

end

/-- A debuggee with two frames on its stack, and a variable that is a node of a list. -/
def linked : Scripted.World where
  callStacks := [(1, [⟨0x1000, 0⟩, ⟨0x2000, 1⟩])]
  types := [(1, { name := some "Node", size := 8, tag := some .record, text := some "Node",
                  fields := [("next", { typeId := 1 })] })]
  symbols := [("Locals", [some ⟨"x", "Node", "", 0, 0x100, 1, none, 0⟩])]
  memory := [⟨0x100, #[7, 0, 0, 0, 0, 0, 0, 0]⟩]

/-- The stack is listed, the variable and the next node are shown in the outer frame, and then the inner frame
is selected. -/
def showNode : List Turn :=
  ([.launch ⟨"app", "app", [], []⟩, .stackTrace 1, .scopes ⟨3⟩, .variables ⟨4⟩, .variables ⟨6⟩,
    .scopes ⟨2⟩] : List Command).map (fun c => Turn.call (.submit c)) ++ List.replicate 12 .engine

/-- A node below another one. -/
def node : Variable :=
  ⟨"next", "Node", "Node", true, ⟨"next", "Node", ⟨0, 0x100, 1, 8, .record, 7⟩⟩⟩

/-- The gateway does nothing before it gets a command. -/
private def isReady (g : Gateway Scripted.World) : Bool :=
  g.phase matches .ready && g.queue.isEmpty && g.accepting && !g.worker.cancelled &&
    !(Worker.wantsWait.run g.worker).1

/-- A gateway that passes the check waits for a command. -/
private theorem waits_of_isReady {g : Gateway Scripted.World} (ready : isReady g = true) : g.Waits := by
  simp only [isReady, Bool.and_eq_true, Bool.not_eq_true', List.isEmpty_iff] at ready
  obtain ⟨⟨⟨⟨phase, queue⟩, accepting⟩, going⟩, idle⟩ := ready
  refine ⟨?_, queue, accepting, going, ?_⟩
  · cases at' : g.phase <;> rw [at'] at phase <;> first | rfl | cases phase
  · rw [Scripted.World.run_wantsWait, idle]

/-- The gateway waits for a command. A node is shown below another one in a frame, and is decoded without a
trace. -/
private def ShowsNode (g : Gateway Scripted.World) : Prop :=
  isReady g = true ∧
  g.worker.store.frameAt? ⟨3⟩ = some outerFrame ∧
  g.worker.store.parent? ⟨4⟩ = some ⟨3⟩ ∧
  g.worker.store.parent? ⟨6⟩ = some ⟨4⟩ ∧
  g.worker.store.variablesOf ⟨6⟩ = [⟨⟨7⟩, node⟩] ∧
  g.worker.store.variablesOf ⟨7⟩ = [] ∧
  ((VisualizerRegistry.standard.children node.origin).run g.worker.memory).1 = [node.origin] ∧
  Scripted.World.record ((VisualizerRegistry.standard.children node.origin).run g.worker.memory).2 =
    Scripted.World.record g.worker.memory ∧
  ((Worker.present node.origin).run g.worker.memory).1 = node ∧
  Scripted.World.record ((Worker.present node.origin).run g.worker.memory).2 =
    Scripted.World.record g.worker.memory

private instance decidableShowsNode (g : Gateway Scripted.World) : Decidable (ShowsNode g) :=
  inferInstanceAs (Decidable (_ ∧ _))

/-- Once the node is shown, the chain of nodes has started. -/
private theorem chained_of_showsNode {turns : List Turn}
    (shown : ShowsNode ((new linked {}).run turns).gateway) :
    ((new linked {}).run turns).Chained ⟨3⟩ outerFrame node 2 ⟨6⟩ ⟨7⟩ := by
  obtain ⟨ready, live, scope, first, listed, bare, children, untraced, presented, untraced'⟩ := shown
  have reached : ((new linked {}).run turns).Reaches ((new linked {}).run turns).gateway.worker := .inl rfl
  refine ⟨waits_of_isReady ready, reached.consistent, live, .step first (.step scope .refl), listed, bare,
    ?_, ?_⟩
  · rw [Scripted.World.run_of_record _ (fun F => F.children _) untraced, children]
  · rw [Scripted.World.run_of_record _ (fun F => Worker.keeps_present F _) untraced', presented]

/-- How it is with the first node. -/
private theorem chained_showNode :
    ((new linked {}).run showNode).Chained ⟨3⟩ outerFrame node 2 ⟨6⟩ ⟨7⟩ :=
  -- decided at one go, so the session is run only once
  chained_of_showsNode (by decide +kernel)

/-- A node that is far enough below its frame is set in the frame that is selected. -/
private theorem exists_set_elsewhere {engine : Scripted.World} {turns : List Turn}
    {frame holder last : Handle} {f : Frame} {node : Variable} {n more : Nat} {value : String}
    (chained : ((new engine {}).run turns).Chained frame f node n holder last)
    (deep : n + more = Store.maxAncestorDepth)
    (set : ((Worker.overwrite node value).run.run
      ((new engine {}).run turns).gateway.worker.memory).1.isOk = true)
    (inner : Scripted.World.selectionView.frame
      ((new engine {}).run turns).gateway.worker.session.engine ≠ f.order) :
    ∃ turns w holder target r, ((new engine {}).run turns).Reaches w ∧
      w.store.frameAt? frame = some f ∧ w.store.Rises frame Store.maxAncestorDepth holder ∧
      (Worker.setVariable holder node.name value).run w = (Worker.overwriteSelected target value).run w ∧
      ((Worker.setVariable holder node.name value).run w).1 = .ok r ∧
      Scripted.World.selectionView.frame w.session.engine ≠ f.order := by
  -- expanding the node further makes the chain as long as the way up that is searched
  obtain ⟨turns', holder', last', s, worker, chained'⟩ := chained.exists_deeper more
  rw [← run_append] at worker chained'
  obtain ⟨-, run⟩ := chained'.run_setVariable (Nat.le_of_eq deep.symm) value
  generalize ((new engine {}).run turns).gateway.worker = w at worker set inner
  -- the write is accepted, though it is not made in the frame of the variable
  cases overwritten : ((Worker.overwrite node value).run.run w.memory).1 with
  | error e =>
    rw [overwritten] at set
    cases set
  -- the store alone has grown, so the engine is still in the inner frame
  | ok shown =>
    refine ⟨turns ++ turns', _, holder', ⟨last', node⟩, ⟨last', shown⟩, .inl rfl, chained'.live,
      deep ▸ chained'.rises, run, ?_, ?_⟩
    · have overwritten' : ((Worker.overwrite (⟨last', node⟩ : Registered Variable).content value).run.run
          ({ w with store := s } : Worker Scripted.World).memory).1 = .ok shown := overwritten
      rw [run, worker, Worker.run_overwriteSelected_ok overwritten']
    · rw [worker]
      exact inner

/-- Two values that are computed in another frame than they should, and given for answers without an error:
one when the engine refuses to select the frame, and one that is set too far below its frame. -/
theorem computed_elsewhere :
    (∃ w, (stackListed refusingFrame).Reaches w ∧ w.store.frameAt? ⟨3⟩ = some outerFrame ∧
      (Worker.evaluate "x" (some ⟨3⟩)).run w =
        (Worker.evaluateSelected "x" ⟨3⟩).run (w.selecting ⟨3⟩) ∧
      ((Worker.evaluate "x" (some ⟨3⟩)).run w).1 = .ok ⟨"7", "u64", .none⟩ ∧
      Scripted.World.selectionView.frame (w.selecting ⟨3⟩).session.engine ≠ outerFrame.order) ∧
    ∃ turns w holder target r, ((new linked {}).run turns).Reaches w ∧
      w.store.frameAt? ⟨3⟩ = some outerFrame ∧ w.store.Rises ⟨3⟩ Store.maxAncestorDepth holder ∧
      (Worker.setVariable holder node.name "5").run w = (Worker.overwriteSelected target "5").run w ∧
      ((Worker.setVariable holder node.name "5").run w).1 = .ok r ∧
      Scripted.World.selectionView.frame w.session.engine ≠ outerFrame.order := by
  -- two nodes of the chain are shown; the write and the frame are computed there
  have set : ((Worker.overwrite node "5").run.run
      ((new linked {}).run showNode).gateway.worker.memory).1.isOk = true := by decide +kernel
  have inner : Scripted.World.selectionView.frame
      ((new linked {}).run showNode).gateway.worker.session.engine ≠ outerFrame.order := by decide +kernel
  have deep : 2 + 510 = Store.maxAncestorDepth := rfl
  have elsewhere := exists_set_elsewhere chained_showNode deep set inner
  exact ⟨evaluated_elsewhere, elsewhere⟩

end Observed

end DebugAdapter
