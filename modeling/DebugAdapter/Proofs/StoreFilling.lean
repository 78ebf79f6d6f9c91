import DebugAdapter.Proofs.GatewayTrace

/-!
# When there are entities

The store is cleared when the debuggee is about to be resumed, and filled by the commands that list
threads and frames. Whether there are entities is therefore a matter of the commands that were carried
out, in their order, and of what the engine answered to them (`filled`).

## Key results

- `Worker.isEmpty_execute`: what each command makes of an empty store, and of one that is not
- `Gateway.Tracked.advance`: every step of the engine thread follows this
-/

namespace DebugAdapter

variable {σ : Type}

/-- The tables of the store agree, and it is empty or not. -/
def Store.EmptyIs (empty : Bool) (s : Store) : Prop :=
  s.Consistent ∧ s.isEmpty = empty

/-- An operation that leaves the threads alone makes no store empty, and fills none. -/
theorem Store.EmptyIs.apply {empty : Bool} {s : Store} {op : Store.Op} (h : s.EmptyIs empty)
    (off : ¬op.OnThreads) (legal : op.LegalIn s) : (op.apply s).EmptyIs empty := by
  have applied := h.1.apply legal
  exact ⟨applied, (h.1.isEmpty_congr applied (h.1.threadTable_apply off)).trans h.2⟩

namespace Worker

variable [Engine σ]

/-! ## What holds of the store alone -/

/-- What is said of the store alone is kept by all the work that leaves the store alone. -/
theorem frame_of_store {P : Store → Prop}
    (apply : ∀ {s op}, ¬Store.Op.OnThreads op → op.LegalIn s → P s → P (op.apply s)) :
    Frame fun w : Worker σ => P w.store where
  call := fun _ _ h => h
  wait := fun _ h => h
  interrupt := fun _ h => h
  store := fun _ _ off legal h => apply off legal h
  retainGroups := by
    intro w keep h
    rw [retainGroups_eq]
    exact h
  publish := fun _ _ _ h => h
  typeNames := fun _ _ h => h
  process := fun _ _ h => h
  resume := fun _ _ h => h
  knownThreads := fun _ _ h => h
  exited := fun _ _ h => h
  stalled := fun _ _ h => h

/-- What is said of the store alone is kept while a group is taken out and put back. -/
theorem groupFrame_of_store {P : Store → Prop}
    (apply : ∀ {s op}, ¬Store.Op.OnThreads op → op.LegalIn s → P s → P (op.apply s)) :
    GroupFrame (fun w : Worker σ => P w.store) fun _ _ w => P w.store :=
  (frame_of_store apply).storing.groupFrame (fun _ _ h => h) fun _ _ _ h => h

/-- What is said of the store alone is kept by the work on breakpoints. -/
theorem breakpointFrame_of_store {P : Store → Prop} :
    BreakpointFrame fun w : Worker σ => P w.store where
  call := fun _ _ h => h
  breakpointCall := fun _ _ h => h
  breakpoints := fun _ _ h => h

/-- All the work on threads keeps the store consistent. -/
theorem consistent_frame : ThreadFrame fun w : Worker σ => w.store.Consistent where
  toFrame := frame_of_store fun _ legal h => h.apply legal
  anyStore := fun _ _ legal h => h.apply legal

/-- Work that leaves the threads alone makes no store empty, and fills none. -/
theorem emptyIs_frame (empty : Bool) : Frame fun w : Worker σ => w.store.EmptyIs empty :=
  frame_of_store fun off legal h => h.apply off legal

/-- Quiet work makes no store empty, and fills none. -/
theorem Quiet.emptyIs {w w' : Worker σ} (h : w.Quiet w') {empty : Bool}
    (hw : w.store.EmptyIs empty) : w'.store.EmptyIs empty :=
  h _ (emptyIs_frame empty) hw

/-! ## Commands -/

/-- The engine lets a thread be selected. -/
def canSelect (w : Worker σ) (thread : UInt32) : Bool :=
  ((selectThread thread).run.run w).1.isOk

/-- Whether there are entities after a command, by whether there are before. -/
def filledBy (w : Worker σ) (filled : Bool) : Command → Bool
  | .launch _ | .attach _ | .continue | .step _ none | .terminate => false
  -- the debuggee is not resumed when the thread cannot be selected
  | .step _ (some thread) => filled && !w.canSelect thread
  | .threads =>
    match ((ask? Engine.threadIds).run w).1 with
    | none => filled
    | some ids => !ids.isEmpty
  | .stackTrace thread => filled || w.canSelect thread
  | _ => filled

omit [Engine σ] in
/-- A command that begins by clearing the store. -/
private theorem ensures_cleared {α : Type} {m : WorkerM σ α}
    (keeps : Keeps (fun w : Worker σ => w.store.EmptyIs true) m) :
    Ensures (fun _ => True) (modifyStore (σ := σ) Store.clear >>= fun _ => m) fun _ w =>
      w.store.EmptyIs true :=
  fun _ _ => keeps _ ⟨Store.consistent_empty, rfl⟩

/-- A launch empties the store. -/
private theorem ensures_launch (r : LaunchRequest) :
    Ensures (fun _ => True) (launch (σ := σ) r) fun _ w => w.store.EmptyIs true := by
  refine ensures_cleared (((emptyIs_frame true).ask (.createProcess _)).bind fun answer => ?_)
  cases answer with
  | ok a => exact .pure _
  | error e => exact .pure _

/-- Attaching to a process empties the store. -/
private theorem ensures_attach (r : AttachRequest) :
    Ensures (fun _ => True) (attach (σ := σ) r) fun _ w => w.store.EmptyIs true := by
  refine ensures_cleared (((emptyIs_frame true).ask (.attachProcess _)).bind fun answer => ?_)
  cases answer with
  | ok a => exact .pure _
  | error e => exact .pure _

/-- Resuming empties the store. -/
private theorem ensures_resumeBy (how : Resume) (failure : EngineError → ExecutionFailure)
    (m : EngineM σ Unit) :
    Ensures (fun _ => True) (resumeBy how failure m) fun _ w => w.store.EmptyIs true := by
  have F := emptyIs_frame (σ := σ) true
  have asked : Keeps (fun w : Worker σ => w.store.EmptyIs true) (ask m) := fun _ h => h
  refine ensures_cleared (asked.bind fun answer => ?_)
  cases answer with
  | ok a =>
    exact (Keeps.modify fun (w : Worker σ) hw =>
      F.stalled _ false (F.resume w (some how) hw)).bind fun _ => .pure _
  | error e => exact .pure _

/-- Selecting a thread leaves the entities. -/
private theorem ensures_selectThread {empty : Bool} {w : Worker σ} (hw : w.store.EmptyIs empty)
    (thread : UInt32) :
    Ensures (· = w) (selectThread thread).run fun selected w' =>
      selected.isOk = w.canSelect thread ∧ w'.store.EmptyIs empty := by
  rintro _ rfl
  exact ⟨rfl, (emptyIs_frame empty).selecting.selectThread thread _ hw⟩

/-- A step empties the store, unless its thread cannot be selected. -/
private theorem ensures_step {w : Worker σ} {filled : Bool} (hw : w.store.EmptyIs !filled)
    (kind : StepKind) (thread : UInt32) :
    Ensures (· = w) (step kind (some thread)) fun _ w' =>
      w'.store.EmptyIs !(filled && !w.canSelect thread) := by
  refine (ensures_selectThread hw thread).bind fun selected => ?_
  cases selected with
  | error e =>
    refine .pure fun w' h => ?_
    rw [← h.1]
    simpa [Except.isOk, Except.toBool] using h.2
  | ok a =>
    intro w' h
    rw [← h.1]
    simpa [Except.isOk, Except.toBool] using ensures_resumeBy .stepped .stepping (stepCall kind) w' trivial

omit [Engine σ] in
/-- A thread that is registered is an entity. -/
private theorem ensures_addThread (thread : UInt32) :
    Ensures (fun w : Worker σ => w.store.Consistent)
      (withStore (·.addThread thread (threadName thread))) fun _ w => w.store.EmptyIs false := by
  intro w hw
  refine ⟨hw.addThread thread _, ?_⟩
  rw [← Bool.not_eq_true]
  intro empty
  exact Store.addThread_ne_nil hw thread _ ((hw.addThread thread _).isEmpty_iff.1 empty)

/-- Reading a stack fills the store, unless its thread cannot be selected. -/
private theorem ensures_stackTrace {w : Worker σ} {filled : Bool} (hw : w.store.EmptyIs !filled)
    (thread : UInt32) :
    Ensures (· = w) (stackTrace thread) fun _ w' =>
      w'.store.EmptyIs !(filled || w.canSelect thread) := by
  refine (ensures_selectThread hw thread).bind fun selected => ?_
  cases selected with
  -- a thread that cannot be selected adds nothing
  | error e =>
    refine .pure fun w' h => ?_
    rw [← h.1]
    simpa [Except.isOk, Except.toBool] using h.2
  | ok a =>
    -- the thread is added at least, so the store is not empty any more
    have F := emptyIs_frame (σ := σ) false
    intro w' h
    have selected : (!(filled || w.canSelect thread)) = false := by
      rw [← h.1]
      simp [Except.isOk, Except.toBool]
    rw [selected]
    refine Ensures.bind (ensures_addThread thread) (fun holder => Ensures.of_keeps ?_) w' h.2.1
    refine Keeps.get.bind fun _ => .ite (fun _ => .pure _) fun _ => Keeps.get.bind fun _ => ?_
    refine (F.ask? (.stackTrace _)).bind fun frames => ?_
    cases frames with
    | none => exact .pure _
    | some frames =>
      exact F.storing.adding.registerAll holder .frame (fun f => (F.looking.describeFrame f).map _)
        frames

omit [Engine σ] in
/-- Threads that the engine lists are added one by one, after the first of which the store is not empty. -/
private theorem ensures_addThreads (id : UInt32) (rest : List UInt32) :
    Ensures (fun w : Worker σ => w.store.Consistent)
      (forIn (id :: rest) PUnit.unit fun id _ => do
        let _ ← withStore (·.addThread id (threadName id))
        pure (ForInStep.yield PUnit.unit)) fun _ w => w.store.EmptyIs false := by
  have added : ∀ id, Ensures (fun w : Worker σ => w.store.Consistent) (do
      let _ ← withStore (·.addThread id (threadName id))
      pure (ForInStep.yield PUnit.unit)) fun _ w => w.store.EmptyIs false :=
    fun id => (ensures_addThread id).bind fun _ => .pure fun _ h => h
  -- after the first thread the store is not empty, and it stays so
  rw [List.forIn_cons]
  refine (added id).bind fun step => ?_
  cases step with
  | done b => exact .pure fun _ h => h
  | yield b =>
    refine Keeps.forIn (I := fun w : Worker σ => w.store.EmptyIs false) (fun id _ => ?_) rest b
    exact fun w h => added id w h.1

omit [Engine σ] in
/-- When the threads are those that the engine lists, the store is empty if there are none. -/
private theorem ensures_listThreads (ids : List UInt32) :
    Ensures (fun w : Worker σ => w.store.Consistent) (do
      modifyStore (·.retainThreads ids)
      for id in ids do
        let _ ← withStore (·.addThread id (threadName id))
      return (← get).store.threads) fun _ w' => w'.store.EmptyIs ids.isEmpty := by
  cases ids with
  -- without a thread in the list all of them are removed
  | nil =>
    intro w hw
    have kept := hw.retainThreads []
    exact ⟨kept, kept.isEmpty_iff.2 hw.keys_retainThreads_nil⟩
  | cons id rest =>
    have retained : Keeps (fun w : Worker σ => w.store.Consistent)
        (modifyStore (·.retainThreads (id :: rest))) :=
      .modify fun w hw => hw.retainThreads _
    exact (Ensures.of_keeps retained).bind fun _ => (ensures_addThreads id rest).bind fun _ w h => h

/-- Listing the threads leaves the store with those that are listed. -/
private theorem ensures_threads {w : Worker σ} {filled : Bool} (hw : w.store.EmptyIs !filled) :
    Ensures (· = w) (threads (σ := σ)) fun _ w' =>
      w'.store.EmptyIs !(w.filledBy filled .threads) := by
  refine Ensures.bind (R := fun ids w' => ids = ((ask? Engine.threadIds).run w).1 ∧
    w'.store.EmptyIs !filled) ?_ fun ids => ?_
  · rintro _ rfl
    exact ⟨rfl, (emptyIs_frame _).ask? .threadIds _ hw⟩
  cases ids with
  | none =>
    -- the engine lists no threads, and the store is left as it is
    refine .pure fun w' h => ?_
    rw [filledBy, ← h.1]
    exact h.2
  | some ids =>
    intro w' h
    have answered : (!(w.filledBy filled .threads)) = ids.isEmpty := by
      rw [filledBy, ← h.1]
      exact Bool.not_not _
    rw [answered]
    exact ensures_listThreads ids w' h.2.1

/-- What a command makes of an empty store, and of one that is not. -/
theorem emptyIs_execute {w : Worker σ} {filled : Bool} (hw : w.store.EmptyIs !filled) (c : Command) :
    ((execute c).run w).2.store.EmptyIs !(w.filledBy filled c) := by
  have F := (emptyIs_frame (σ := σ) !filled).storing
  have G := groupFrame_of_store (σ := σ) (P := Store.EmptyIs !filled) fun off legal h => h.apply off legal
  -- the commands that start, resume or end empty the store, those that list threads or frames fill it
  cases c with
  | launch r => exact ensures_launch r w trivial
  | attach r => exact ensures_attach r w trivial
  | «continue» => exact ensures_resumeBy _ _ _ w trivial
  | step kind thread =>
    cases thread with
    | none => exact ensures_resumeBy _ _ _ w trivial
    | some thread => exact ensures_step hw kind thread w rfl
  | terminate =>
    have cleared : ((execute .terminate).run w).2 = (terminate.run w).2 := rfl
    rw [cleared, terminate_eq]
    exact ⟨Store.consistent_empty, rfl⟩
  | threads => exact ensures_threads hw w rfl
  | stackTrace thread => exact ensures_stackTrace hw thread w rfl
  | _ => exact G.execute F breakpointFrame_of_store.setBreakpoints id w hw

end Worker

/-! ## The commands carried out -/

/-- Whether there are entities after commands, when there were none before. -/
def filled [Engine σ] (executed : List (Execution σ)) : Bool :=
  executed.foldl (fun filled e => e.worker.filledBy filled e.command) false

/-- One execution more decides by what it leaves. -/
theorem filled_append_singleton [Engine σ] (executed : List (Execution σ)) (e : Execution σ) :
    filled (executed ++ [e]) = e.worker.filledBy (filled executed) e.command := by
  rw [filled, List.foldl_append]
  rfl

namespace Gateway

variable [Engine σ]

/-- The store holds entities exactly if the commands carried out have filled it. -/
structure Tracked (g : Gateway σ) (executed : List (Execution σ)) : Prop where
  consistent : ∀ e ∈ executed, e.worker.store.Consistent
  store : g.phase ≠ .finished → g.worker.store.EmptyIs !(filled executed)

/-- A new gateway has executed nothing, and its store is empty. -/
theorem tracked_new (engine : σ) (options : GatewayOptions) : (new engine options).Tracked [] where
  consistent := fun _ he => absurd he List.not_mem_nil
  store := fun _ => ⟨Store.consistent_empty, rfl⟩

namespace Tracked

variable {g : Gateway σ} {executed : List (Execution σ)}

/-- Executing a command leaves the store filled or empty as the command decides. -/
private theorem of_execute (h : g.Tracked executed) {w : Worker σ} {ticket : Ticket} {c : Command}
    (off : g.phase ≠ .finished) (quiet : g.worker.Quiet w) {g' : Gateway σ}
    (hw : g'.worker = ((Worker.execute c).run w).2) :
    g'.Tracked (executed ++ [⟨ticket, c, w⟩]) := by
  have before := quiet.emptyIs (h.store off)
  refine ⟨fun e he => ?_, fun _ => ?_⟩
  · rcases List.mem_append.1 he with he | he
    · exact h.consistent e he
    · rw [List.mem_singleton.1 he]
      exact before.1
  · rw [filled_append_singleton, hw]
    exact Worker.emptyIs_execute before c

/-- When the engine thread leaves, the store is cleared by each command that is carried out. -/
private theorem consistent_lastExecutions (l : List (Ticket × Command)) {w : Worker σ}
    (hw : w.store.Consistent) : ∀ e ∈ lastExecutions w l, e.worker.store.Consistent := by
  -- on the commands that are left; each one to terminate empties the store
  induction l generalizing w with
  | nil => exact fun _ he => absurd he List.not_mem_nil
  | cons head rest ih =>
    obtain ⟨ticket, c⟩ := head
    by_cases hc : c = .terminate
    · subst hc
      intro e he
      rcases List.mem_cons.1 he with rfl | he
      · exact hw
      · refine ih ?_ e he
        rw [Worker.terminate_eq]
        exact Store.consistent_empty
    · rw [lastExecutions_of_ne hc]
      exact ih hw

/-- A step of the engine thread keeps the store as the executed commands say. -/
theorem advance (h : g.Tracked executed) : g.advance.Tracked (executed ++ g.executions) := by
  have step := advance_spec g
  -- in both phases the engine thread is still there
  have idle : g.phase = .ready ∨ g.phase = .draining → g.phase ≠ .finished := by
    rintro (e | e) <;> rw [e] <;> exact nofun
  generalize g.executions = executions, g.advance = g' at step ⊢
  -- quiet work neither fills nor empties the store
  cases step with
  | begin phase =>
    rw [List.append_nil]
    exact ⟨h.consistent, fun _ => h.store (by rw [phase]; exact fun h => by cases h)⟩
  | work quiet _ off _ =>
    rw [List.append_nil]
    exact ⟨h.consistent, fun _ => quiet.emptyIs (h.store off.2)⟩
  | @wait purpose phase =>
    have off : g.phase ≠ .finished := by rcases phase with e | e <;> rw [e] <;> exact nofun
    rw [List.append_nil]
    exact ⟨h.consistent, fun _ => (Worker.quiet_awaited _).emptyIs (h.store off)⟩
  | finishStart phase =>
    have off : g.phase ≠ .finished := by rw [phase]; exact nofun
    rw [List.append_nil]
    exact ⟨h.consistent, fun _ => (Worker.quiet_finishStart _ _ _).emptyIs (h.store off)⟩
  | answered quiet phase queue outcome => exact h.of_execute (idle phase) quiet rfl
  | started quiet phase queue outcome => exact h.of_execute (idle phase) quiet rfl
  | giveUp quiet phase queue closed =>
    rw [List.append_nil]
    exact ⟨h.consistent, fun _ => quiet.emptyIs (h.store (idle phase))⟩
  | decide phase cancelled =>
    have off : g.phase ≠ .finished := by rw [phase]; exact nofun
    rw [List.append_nil]
    exact ⟨h.consistent, fun _ => h.store off⟩
  | leave phase =>
    have off : g.phase ≠ .finished := by rw [phase]; exact nofun
    -- when the engine thread has left, nothing is said of its store any more
    refine ⟨fun e he => ?_, fun on => ?_⟩
    · rcases List.mem_append.1 he with he | he
      · exact h.consistent e he
      · exact consistent_lastExecutions _ (h.store off).1 e he
    · rw [leave_eq] at on
      exact absurd rfl on
  | stay phase =>
    rw [List.append_nil]
    exact h

/-- Any action keeps the store as the executed commands say. -/
theorem act (h : g.Tracked executed) (a : GatewayAction) :
    (g.act a).Tracked (executed ++ g.executedBy a) := by
  -- what callers do executes nothing and leaves the store
  have same : ∀ {g' : Gateway σ}, g'.worker.store = g.worker.store → g'.phase = g.phase →
      g'.Tracked (executed ++ []) := by
    intro g' store phase
    rw [List.append_nil]
    exact ⟨h.consistent, fun on => store ▸ h.store (phase ▸ on)⟩
  cases a with
  | submit c =>
    refine same ?_ ?_ <;> simp only [Gateway.act, Gateway.submit] <;> split <;> rfl
  | closeQueue =>
    refine same ?_ ?_ <;> simp only [Gateway.act, Gateway.closeQueue, Gateway.submit] <;> split <;> rfl
  | interrupt =>
    refine same ?_ ?_ <;> simp only [Gateway.act, Gateway.interrupt] <;> split <;> rfl
  | cancel | markDisposed | silence => exact same rfl rfl
  | advance => exact h.advance

end Tracked

end Gateway

end DebugAdapter
