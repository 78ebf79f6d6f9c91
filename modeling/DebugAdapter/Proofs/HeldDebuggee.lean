import DebugAdapter.Proofs.CommandsWhileHeld
import DebugAdapter.Proofs.PlacedBreakpoints
import DebugAdapter.Proofs.RepeatedInspection

/-!
# A debuggee that is held

Of an engine it is seen where its breakpoints are, and how far the debuggee has come
(`DebuggeeView`). As long as the debuggee is held, the engine answers always alike (`HeldAnswers`), and
changes its breakpoints on request only. Then commands to set breakpoints put them in their places, and the
threads that are listed and whether the debuggee resumes do not depend on what was done before.

## Key results

- `Worker.carriesOut_launch`: the start of a debuggee, until it is held
- `Worker.carriesOut_setBreakpoints`: the breakpoints of a file are put in their places
- `Worker.carriesOut_threads`, `Worker.carriesOut_continue`: the threads, and the end of the hold
- `Worker.endFrame_released`: what is known of a debuggee that was let run
-/

namespace DebugAdapter

variable {σ : Type}

/-! ## Engines -/

/-- How an engine that holds a debuggee is seen: the offsets of its breakpoints, by id, and how far the
debuggee has come. -/
structure DebuggeeView (σ : Type) where
  offset? : σ → UInt32 → Option UInt64
  /-- There is no debuggee. -/
  vacant : σ → Prop
  /-- A debuggee was started and has not stopped yet. -/
  begun : σ → Prop
  /-- The debuggee is held at its first stop. -/
  held : σ → Prop
  /-- The debuggee was let run since. -/
  released : σ → Prop

/-- What an engine answers as long as it holds a debuggee. -/
structure HeldAnswers where
  /-- The offset of a line, if it has code. -/
  code : String → UInt32 → Option UInt64
  /-- A breakpoint at an offset is taken. -/
  takes : UInt64 → Bool
  threads : Option (List UInt32)
  /-- The debuggee can be resumed. -/
  goes : Bool

namespace HeldAnswers

variable (A : HeldAnswers)

/-- Where a breakpoint on a line is set, if it is. -/
def site? (file : String) (line : UInt32) : Option UInt64 :=
  (A.code file line).filter A.takes

/-- The threads as they are listed first. -/
def listed : List (Registered Thread) :=
  match A.threads with
  | none => []
  | some ids => (({} : Store).enlist Worker.threadName ids).threads

end HeldAnswers

variable [Engine σ]

/-- What holds of an engine is kept by all it is asked for, but to change its breakpoints and to list
symbols. -/
structure KeptByCalls (K : σ → Prop) : Prop where
  ordinary : ∀ {α : Type} {m : EngineM σ α}, OrdinaryCall m → ∀ s, K s → K (m.call s).2
  wait : ∀ s, K s → K (Engine.waitForEvent.run s).2
  interrupt : ∀ s, K s → K (Engine.interrupt s)
  endSession : ∀ s, K s → K ((Engine.endSession : EngineM σ Unit).call s).2
  releaseGroup : ∀ g s, K s → K (Engine.releaseGroup g s)
  release : ∀ s, K s → K (Engine.release s)

namespace KeptByCalls

/-- Releasing groups keeps what calls keep. -/
theorem releaseGroups {K : σ → Prop} (kept : KeptByCalls K) (groups : List GroupId) (s : σ) (h : K s) :
    K (groups.foldl (fun s g => Engine.releaseGroup g s) s) := by
  induction groups generalizing s with
  | nil => exact h
  | cons g groups ih => exact ih _ (kept.releaseGroup g s h)

/-- Finishing a session keeps what calls keep. -/
theorem finish {K : σ → Prop} (kept : KeptByCalls K) (session : EngineSession σ) (h : K session.engine) :
    K session.finish.2.engine := by
  rw [EngineSession.finish]
  split
  · exact h
  · exact kept.endSession _ h

/-- What is kept by calls holds of a worker to the end, whatever the table is. -/
theorem endFrame {K : BreakpointTable → σ → Prop} (kept : ∀ t, KeptByCalls (K t)) :
    Worker.EndFrame fun w : Worker σ => K w.breakpoints w.session.engine where
  call m _ h := (kept _).ordinary m _ h
  wait _ h := (kept _).wait _ h
  interrupt _ h := (kept _).interrupt _ h
  store _ _ _ _ h := h
  retainGroups w keep h := by
    rw [Worker.retainGroups_eq]
    exact (kept _).releaseGroups _ _ h
  publish _ _ _ h := h
  typeNames _ _ h := h
  process _ _ h := h
  resume _ _ h := h
  knownThreads _ _ h := h
  exited _ _ h := h
  stalled _ _ h := h
  cancelled _ h := h
  -- releasing groups and ending the session are calls of the engine as well
  terminate w h := by
    rw [Worker.terminate_eq]
    exact (kept _).releaseGroups _ _ ((kept _).finish _ h)
  release w h := by
    have cleared : K w.clearGroups.breakpoints w.clearGroups.session.engine := by
      rw [Worker.clearGroups_eq]
      exact (kept _).releaseGroups _ _ h
    exact (kept _).release _ ((kept _).finish _ cleared)

end KeptByCalls

/-- A debuggee that was started is held when the wait for it returns. As long as it is held, it does not
run, and the engine answers always alike. Breakpoints are set on request, and change at no other time. -/
structure DebuggeeView.Answering (V : DebuggeeView σ) (A : HeldAnswers) : Prop where
  offsets : ∀ offset?, KeptByCalls fun s => V.offset? s = offset?
  released : KeptByCalls V.released
  inspecting : ∀ {α : Type} {m : EngineM σ α}, InspectingCall m → ∀ s,
    (V.vacant s → V.vacant (m.call s).2) ∧ (V.held s → V.held (m.call s).2)
  status : ∀ s, V.vacant s ∨ V.held s → ∀ status,
    ((Engine.executionStatus (σ := σ)).call s).1 = .ok status → status.isRunning = false
  clear : ∀ s, V.vacant s → (V.offset? s = fun _ => none) →
    V.vacant ((Engine.clearBreakpoints (σ := σ)).call s).2 ∧
      V.offset? ((Engine.clearBreakpoints (σ := σ)).call s).2 = fun _ => none
  create : ∀ s commandLine, V.vacant s →
    ((Engine.createProcess (σ := σ) commandLine).call s).1 = .ok () →
      V.begun ((Engine.createProcess (σ := σ) commandLine).call s).2
  unstopped : ∀ s, V.begun s → (Engine.waitForEvent.run s).1 = none →
    V.begun (Engine.waitForEvent.run s).2
  stopped : ∀ s events, V.begun s → (Engine.waitForEvent.run s).1 = some (.ok events) →
    V.held (Engine.waitForEvent.run s).2
  code : ∀ s file line, V.held s →
    ((Engine.offsetByLine (σ := σ) file line).call s).1.toOption = A.code file line
  threads : ∀ s, V.held s → ((Engine.threadIds (σ := σ)).call s).1.toOption = A.threads
  add : ∀ s id offset, V.held s → V.offset? s id = none →
    ((Engine.addCodeBreakpoint (σ := σ) id offset).call s).1.isOk = A.takes offset ∧
      V.held ((Engine.addCodeBreakpoint (σ := σ) id offset).call s).2 ∧
      V.offset? ((Engine.addCodeBreakpoint (σ := σ) id offset).call s).2 =
        if A.takes offset then Function.update (V.offset? s) id (some offset) else V.offset? s
  go : ∀ s, V.held s → ((Engine.setExecutionStatus (σ := σ) .go).call s).1.isOk = A.goes ∧
    if A.goes then V.released ((Engine.setExecutionStatus (σ := σ) .go).call s).2
    else V.held ((Engine.setExecutionStatus (σ := σ) .go).call s).2
  apart : ∀ s, V.held s → ¬V.released s

/-- Breakpoints are removed on request, too. -/
structure DebuggeeView.Lawful (V : DebuggeeView σ) (A : HeldAnswers) : Prop extends V.Answering A where
  remove : ∀ s id, V.held s → (V.offset? s id).isSome = true →
    V.held ((Engine.removeBreakpoint (σ := σ) id).call s).2 ∧
      V.offset? ((Engine.removeBreakpoint (σ := σ) id).call s).2 =
        Function.update (V.offset? s) id none

namespace Worker

variable {V : DebuggeeView σ} {A : HeldAnswers} {T : BreakpointTable → (UInt32 → Option UInt64) → Prop}
  {n : Nat}

/-! ## What is known of the worker -/

/-- The engine has come as far as `stage` says, and nothing was done yet but to wait. -/
structure Blank (V : DebuggeeView σ) (stage : σ → Prop) (w : Worker σ) : Prop where
  stage : stage w.session.engine
  offset?_eq : V.offset? w.session.engine = fun _ => none
  breakpoints : w.breakpoints = {}
  store : w.store = {}
  goesOn : w.cancelled = false
  onlyOutput : w.OnlyOutput

/-- The debuggee is held, and the table and the breakpoints of the engine are as `T` says. At most `n` ids
were given out. -/
structure Holding (V : DebuggeeView σ) (T : BreakpointTable → (UInt32 → Option UInt64) → Prop) (n : Nat)
    (w : Worker σ) : Prop where
  held : V.held w.session.engine
  table : T w.breakpoints (V.offset? w.session.engine)
  lastId_le : w.breakpoints.lastId.toNat ≤ n
  goesOn : w.cancelled = false
  onlyOutput : w.OnlyOutput

/-- Nothing was looked up yet in the debuggee that is held. -/
structure Untouched (V : DebuggeeView σ) (T : BreakpointTable → (UInt32 → Option UInt64) → Prop) (n : Nat)
    (w : Worker σ) : Prop extends Holding V T n w where
  store : w.store = {}

/-- The debuggee was let run, and the table and the breakpoints of the engine are as `T` says. -/
def Released (V : DebuggeeView σ) (T : BreakpointTable → (UInt32 → Option UInt64) → Prop) (w : Worker σ) :
    Prop :=
  V.released w.session.engine ∧ T w.breakpoints (V.offset? w.session.engine)

omit [Engine σ] in
/-- A debuggee that has just stopped has no breakpoints. -/
theorem Blank.untouched {site? : String → UInt32 → Option UInt64} {w : Worker σ}
    (h : w.Blank V V.held) : w.Untouched V (BreakpointTable.Placed site? fun _ => []) 0 where
  held := h.stage
  table := by
    rw [h.offset?_eq, h.breakpoints]
    exact BreakpointTable.placed_empty
  lastId_le := by
    rw [h.breakpoints]
    exact Nat.le_refl 0
  goesOn := h.goesOn
  onlyOutput := h.onlyOutput
  store := h.store

/-- A worker whose debuggee does not run has nothing to do by itself. -/
theorem Idles.of_calls {P : Worker σ → Prop} (F : CallFrame P)
    (idle : ∀ w, P w → ∀ status, ((Engine.executionStatus (σ := σ)).call w.session.engine).1 = .ok status →
      status.isRunning = false)
    (goesOn : ∀ w, P w → w.cancelled = false) : Idles P where
  wantsWait := by
    -- a status that cannot be read counts as no debuggee, which does not run either
    have read : Ensures P (status (σ := σ)) fun status w => P w ∧ status.isRunning = false := by
      refine fun w h => ⟨F.status w h, ?_⟩
      change ((((Engine.executionStatus (σ := σ)).call w.session.engine).1.toOption).getD
        .noDebuggee).isRunning = false
      cases answer : ((Engine.executionStatus (σ := σ)).call w.session.engine).1 with
      | error e => rfl
      | ok status => exact idle w h status answer
    refine read.bind fun status => Ensures.bindGet fun w h => .pure fun w' h' => ⟨h'.1.1, ?_⟩
    rw [h.2]
    rfl
  cancelled := goesOn

/-- A worker rests if its debuggee stands still and it has published output alone. -/
theorem Rests.of_calls {P : Worker σ → Prop} (F : CallFrame P)
    (idle : ∀ w, P w → ∀ status, ((Engine.executionStatus (σ := σ)).call w.session.engine).1 = .ok status →
      status.isRunning = false)
    (goesOn : ∀ w, P w → w.cancelled = false) (onlyOutput : ∀ w, P w → w.OnlyOutput) : Rests P where
  toIdles := .of_calls F idle goesOn
  onlyOutput := onlyOutput

section

variable (L : V.Lawful A)
include L

/-- What is known of the engine's breakpoints is kept by calls. -/
theorem keptByCalls_released (T : (UInt32 → Option UInt64) → Prop) :
    KeptByCalls fun s => V.released s ∧ T (V.offset? s) where
  ordinary h s hs := ⟨L.released.ordinary h s hs.1, (L.offsets _).ordinary h s rfl ▸ hs.2⟩
  wait s hs := ⟨L.released.wait s hs.1, (L.offsets _).wait s rfl ▸ hs.2⟩
  interrupt s hs := ⟨L.released.interrupt s hs.1, (L.offsets _).interrupt s rfl ▸ hs.2⟩
  endSession s hs := ⟨L.released.endSession s hs.1, (L.offsets _).endSession s rfl ▸ hs.2⟩
  releaseGroup g s hs := ⟨L.released.releaseGroup g s hs.1, (L.offsets _).releaseGroup g s rfl ▸ hs.2⟩
  release s hs := ⟨L.released.release s hs.1, (L.offsets _).release s rfl ▸ hs.2⟩

/-! ## Calls that inspect -/

/-- Calls that inspect keep a worker blank. -/
theorem callFrame_blank {stage : σ → Prop}
    (kept : ∀ {α : Type} {m : EngineM σ α}, InspectingCall m → ∀ s, stage s → stage (m.call s).2) :
    CallFrame (Blank V stage) where
  call m _ h := { h with
    stage := kept m _ h.stage
    offset?_eq := (L.offsets _).ordinary m.ordinary _ h.offset?_eq }

/-- Calls that inspect keep a worker holding its debuggee. -/
theorem callFrame_holding : CallFrame (Holding V T n) where
  call := by
    intro α m inspects w h
    have same : V.offset? (m.call w.session.engine).2 = V.offset? w.session.engine :=
      (L.offsets _).ordinary inspects.ordinary _ rfl
    exact { h with
      held := (L.inspecting inspects _).2 h.held
      table := (congrArg (T w.breakpoints) same).mpr h.table }

/-- Calls that inspect keep a worker untouched. -/
theorem callFrame_untouched : CallFrame (Untouched V T n) where
  call m w h := ⟨(callFrame_holding L).call m w h.toHolding, h.store⟩

/-- What is known of a new worker is kept when the first stop of the debuggee has been awaited. -/
theorem startingFrame_blank : StartingFrame (Blank V V.held) where
  toCallFrame := callFrame_blank L fun m s => (L.inspecting m s).2
  output w text h := { h with
    onlyOutput := by
      intro e mem
      rcases List.mem_append.1 mem with mem | mem
      · exact h.onlyOutput e mem
      · exact ⟨text, List.mem_singleton.1 mem⟩ }
  reset w h := { h with }
  knownThreads w threads h := { h with }
  process w process h := { h with }

/-- A blank worker rests. -/
theorem rests_blank : Rests (Blank V V.vacant) :=
  .of_calls (callFrame_blank L fun m s => (L.inspecting m s).1) (fun _ h => L.status _ (.inl h.stage))
    (fun _ h => h.goesOn) fun _ h => h.onlyOutput

/-- A worker that holds its debuggee rests. -/
theorem rests_holding : Rests (Holding V T n) :=
  .of_calls (callFrame_holding L) (fun _ h => L.status _ (.inr h.held)) (fun _ h => h.goesOn)
    fun _ h => h.onlyOutput

/-- An untouched worker rests. -/
theorem rests_untouched : Rests (Untouched V T n) :=
  .of_calls (callFrame_untouched L) (fun _ h => L.status _ (.inr h.held)) (fun _ h => h.goesOn)
    fun _ h => h.onlyOutput

/-! ## The start of a debuggee -/

/-- After the answer to the start of a debuggee. -/
def Started (V : DebuggeeView σ) : Reply → Worker σ → Prop
  | .launched (.ok _), w => w.Blank V V.held
  | _, _ => True

/-- A debuggee is started, and is held when it has stopped. -/
theorem carriesOut_launch (r : LaunchRequest) :
    CarriesOut (Blank V V.vacant) (fun _ => Blank V V.begun) (Started V) (.launch r) where
  comes := by
    have cleared : Ensures (Blank V V.vacant) (modifyStore (σ := σ) Store.clear) fun _ => Blank V V.vacant := by
      intro w h
      exact { h with store := congrArg Store.clear h.store }
    have created : Ensures (Blank V V.vacant) (ask (Engine.createProcess (σ := σ) r.commandLine))
        fun answer w => answer = .ok () → w.Blank V V.begun := by
      intro w h ok
      exact { h with
        stage := L.create _ _ h.stage ok
        offset?_eq := (L.offsets _).ordinary (.createProcess _) _ h.offset?_eq }
    have launched : Ensures (Blank V V.vacant) (launch (σ := σ) r)
        fun result w => ∀ d, result = .ok d → w.Blank V V.begun := by
      refine cleared.bind fun _ => created.bind fun answer => ?_
      -- without a process there is no debuggee
      cases answer with
      | error e => exact .pure fun _ _ _ given => nomatch given
      | ok u => exact .pure fun _ h _ _ => h rfl
    refine launched.bind fun result => .pure fun w h => ?_
    cases result with
    | error e => trivial
    | ok d => exact h d rfl
  onlyOutput := fun _ _ h => h.onlyOutput
  waits := fun _ w h none => { h with
    stage := L.unstopped _ h.stage none
    offset?_eq := (L.offsets _).wait _ h.offset?_eq }
  -- the wait returns with events, and then the debuggee is held
  returns := by
    intro d w answer h returned
    cases answer with
    | error e => trivial
    | ok events =>
      have stopped : w.awaited.Blank V V.held := { h with
        stage := L.stopped _ events h.stage returned
        offset?_eq := (L.offsets _).wait _ h.offset?_eq }
      have kept := (startingFrame_blank L).finishStart d (.ok events) _ stopped
      cases result : ((finishStart d (.ok events)).run w.awaited).1 with
      | ok info => exact kept
      | error e => trivial

/-! ## Breakpoints -/

/-- A breakpoint is removed from the engine. -/
private theorem ensures_remove {site? : String → UInt32 → Option UInt64} {wanted : String → List UInt32}
    {file : String} {id : UInt32} {ids : List UInt32} :
    Ensures (Holding V (BreakpointTable.Emptying site? wanted file (id :: ids)) n)
      (ask? (σ := σ) (Engine.removeBreakpoint id))
      fun _ => Holding V (BreakpointTable.Emptying site? wanted file ids) n := by
  intro w h
  obtain ⟨held, gone⟩ := L.remove _ id h.held (h.table.left id List.mem_cons_self).1
  exact { h with
    held
    table := (congrArg (BreakpointTable.Emptying site? wanted file ids w.breakpoints) gone).mpr h.table.remove }

/-- All breakpoints that a file had are removed. -/
private theorem ensures_emptied {site? : String → UInt32 → Option UInt64} {wanted : String → List UInt32}
    {file : String} (ids : List UInt32) :
    Ensures (Holding V (BreakpointTable.Emptying site? wanted file ids) n)
      (forIn ids PUnit.unit fun id _ => do
        let _ ← ask? (σ := σ) (Engine.removeBreakpoint id)
        pure (ForInStep.yield PUnit.unit))
      fun _ => Holding V (BreakpointTable.Placed site? (Function.update wanted file [])) n := by
  -- induction on the breakpoints that are left to remove
  induction ids with
  | nil => exact .pure fun w h => { h with table := h.table.placed }
  | cons id ids ih =>
    rw [List.forIn_cons]
    have next : Ensures (Holding V (BreakpointTable.Emptying site? wanted file (id :: ids)) n) (do
        let _ ← ask? (σ := σ) (Engine.removeBreakpoint id)
        pure (ForInStep.yield PUnit.unit)) fun step w => step = .yield PUnit.unit ∧
          w.Holding V (BreakpointTable.Emptying site? wanted file ids) n :=
      (ensures_remove L).bind fun _ => .pure fun w h => ⟨rfl, h⟩
    -- the loop is not left before all are removed
    refine next.bind fun step => ?_
    cases step with
    | done b => exact fun w h => nomatch h.1
    | yield b => exact fun w h => ih w h.2

/-- The engine is asked for a breakpoint under the next id. If it takes it, the line has its place when the
id is put into the table, and if not, the line has none. -/
private theorem ensures_asked {wanted : String → List UInt32} {file : String} {done : List UInt32}
    {line : UInt32} {offset : UInt64} (room : n + 1 < UInt32.size) {w₀ : Worker σ}
    (h₀ : w₀.Holding V (BreakpointTable.Placed A.site? (Function.update wanted file done)) n)
    (code : A.code file line = some offset) :
    Ensures (· = { w₀ with breakpoints := w₀.breakpoints.nextId.2 })
      (ask? (σ := σ) (Engine.addCodeBreakpoint w₀.breakpoints.nextId.1 offset)) fun taken w =>
      Holding V (BreakpointTable.Placed A.site? (Function.update wanted file (done ++ [line]))) (n + 1)
        (if taken.isSome
          then { w with breakpoints := w.breakpoints.insert w₀.breakpoints.nextId.1 ⟨file, line⟩ } else w) := by
  rintro w rfl
  have last : w₀.breakpoints.lastId.toNat + 1 < UInt32.size :=
    Nat.lt_of_le_of_lt (Nat.succ_le_succ h₀.lastId_le) room
  obtain ⟨counted, new⟩ := h₀.table.nextId last
  have lastId_le : w₀.breakpoints.nextId.1.toNat ≤ n + 1 := by
    rw [BreakpointTable.toNat_nextId last]
    exact Nat.succ_le_succ h₀.lastId_le
  obtain ⟨answer, held, offsets⟩ := L.add _ w₀.breakpoints.nextId.1 offset h₀.held new
  -- the call answers without an error exactly if the engine takes the offset
  have taken : ((ask? (σ := σ) (Engine.addCodeBreakpoint w₀.breakpoints.nextId.1 offset)).run
      { w₀ with breakpoints := w₀.breakpoints.nextId.2 }).1.isSome = A.takes offset := by
    rw [← answer]
    change ((Engine.addCodeBreakpoint (σ := σ) w₀.breakpoints.nextId.1 offset).call _).1.toOption.isSome = _
    cases ((Engine.addCodeBreakpoint (σ := σ) w₀.breakpoints.nextId.1 offset).call w₀.session.engine).1 <;> rfl
  -- so the line has a place exactly if the engine takes it
  have site : A.site? file line = if A.takes offset then some offset else none := by
    rw [HeldAnswers.site?, code, Option.filter_some]
  rw [taken]
  -- a refused breakpoint has used up its id, and nothing else
  cases takes : A.takes offset with
  | true =>
    rw [takes] at site offsets
    exact
    { held
      table := (congrArg (BreakpointTable.Placed A.site? _ (w₀.breakpoints.nextId.2.insert _ _)) offsets).mpr
        (h₀.table.insert last site)
      lastId_le
      goesOn := h₀.goesOn
      onlyOutput := h₀.onlyOutput }
  | false =>
    rw [takes] at site offsets
    exact
    { held
      table := (congrArg (BreakpointTable.Placed A.site? _ w₀.breakpoints.nextId.2) offsets).mpr
        (counted.skip site)
      lastId_le
      goesOn := h₀.goesOn
      onlyOutput := h₀.onlyOutput }

/-- The next line of a file gets its breakpoint, if it has a place. -/
private theorem ensures_added {wanted : String → List UInt32} {file : String} {done : List UInt32}
    (line : UInt32) (room : n + 1 < UInt32.size) :
    Ensures (Holding V (BreakpointTable.Placed A.site? (Function.update wanted file done)) n)
      (addBreakpoint (σ := σ) ⟨file, line⟩) fun _ =>
      Holding V (BreakpointTable.Placed A.site? (Function.update wanted file (done ++ [line]))) (n + 1) := by
  let Before := Holding V (BreakpointTable.Placed A.site? (Function.update wanted file done)) n
  have located : Ensures Before (ask? (σ := σ) (Engine.offsetByLine file line)) fun offset w =>
      Before w ∧ offset = A.code file line :=
    fun w h => ⟨(callFrame_holding L).ask? (.offsetByLine file line) w h, L.code _ file line h.held⟩
  refine located.bind fun offset => ?_
  cases offset with
  | none =>
    -- a line without code has no place, and no id is given out for it
    refine .pure fun w h => ?_
    have unplaced : A.site? file line = none := by
      rw [HeldAnswers.site?, ← h.2]
      rfl
    exact { h.1 with table := h.1.table.skip unplaced, lastId_le := Nat.le_succ_of_le h.1.lastId_le }
  | some offset =>
    -- an id is given out before the engine is asked
    refine .bindGet fun w₀ h₀ => ?_
    have counted : Ensures (fun w => (Before w ∧ some offset = A.code file line) ∧ w = w₀)
        (modify fun w => { w with breakpoints := w₀.breakpoints.nextId.2 }) fun _ w =>
          w = { w₀ with breakpoints := w₀.breakpoints.nextId.2 } := by
      rintro w ⟨-, rfl⟩
      rfl
    refine counted.bind fun _ => (ensures_asked L room h₀.1 h₀.2.symm).bind fun taken => ?_
    -- the breakpoint is entered only if the engine has taken it
    cases taken with
    | none => exact .pure fun _ h => h
    | some taken =>
      exact Ensures.bind (R := fun _ => Holding V (BreakpointTable.Placed A.site?
        (Function.update wanted file (done ++ [line]))) (n + 1)) (fun _ h => h) fun _ => .pure fun _ h => h

/-- The breakpoints of a file are replaced, as long as there are ids left. -/
theorem ensures_setBreakpoints {wanted : String → List UInt32} (file : String) (lines : List UInt32)
    (room : n + lines.length < UInt32.size) :
    Ensures (Holding V (BreakpointTable.Placed A.site? wanted) n) (setBreakpoints (σ := σ) file lines)
      fun _ => Holding V (BreakpointTable.Placed A.site? (Function.update wanted file lines))
        (n + lines.length) := by
  -- after some lines, as long as they are not too many
  let Done (done : List UInt32) (_ : List BreakpointResult) (w : Worker σ) : Prop :=
    n + done.length < UInt32.size →
      w.Holding V (BreakpointTable.Placed A.site? (Function.update wanted file done)) (n + done.length)
  refine .bindGet fun w₀ h₀ => ?_
  refine Ensures.bind (R := fun _ =>
    Holding V (BreakpointTable.Emptying A.site? wanted file (w₀.breakpoints.idsOf file)) n) ?_ fun _ => ?_
  · rintro w ⟨before, rfl⟩
    exact { before with table := before.table.takeFile file }
  refine (ensures_emptied L _).bind fun _ => ?_
  refine Ensures.mono (P := Done [] []) (Ensures.mapM (P := Done) (fun done found line => ?_) lines)
    (fun w h _ => h) fun _ w h => h room
  intro w h fits
  rw [List.length_append, List.length_singleton] at fits ⊢
  exact (ensures_added L line fits).bind (fun _ => .pure fun w h => h) w (h (Nat.lt_of_succ_lt fits))

/-- A command to set the breakpoints of a file puts them in their places. -/
theorem carriesOut_setBreakpoints {wanted : String → List UInt32} (file : String) (lines : List UInt32)
    (room : n + lines.length < UInt32.size) :
    CarriesOut (Untouched V (BreakpointTable.Placed A.site? wanted) n) (fun _ _ => False)
      (fun _ => Untouched V (BreakpointTable.Placed A.site? (Function.update wanted file lines))
        (n + lines.length)) (.setBreakpoints file lines) := by
  have store : BreakpointFrame fun w : Worker σ => w.store = {} :=
    { call := fun _ _ h => h, breakpointCall := fun _ _ h => h, breakpoints := fun _ _ h => h }
  refine .of_answered fun w h => ⟨_, rfl, ?_⟩
  exact ⟨ensures_setBreakpoints L file lines room w h.toHolding, store.setBreakpoints file lines w h.store⟩

/-! ## The threads, and the end of the hold -/

/-- The threads are listed as the engine tells them. -/
theorem carriesOut_threads : CarriesOut (Untouched V T n) (fun _ _ => False)
    (fun r w => r = .threads A.listed ∧ w.Holding V T n) .threads := by
  have listed : Ensures (Untouched V T n) (threads (σ := σ)) fun found w =>
      found = A.listed ∧ w.Holding V T n := by
    intro w h
    have answer := L.threads _ h.held
    have kept := (callFrame_untouched L).ask? .threadIds w h
    cases told : (ask? (Engine.threadIds (σ := σ))).run w with
    | mk ids w' =>
      rw [told] at kept
      obtain rfl : ids = A.threads := (congrArg Prod.fst told).symm.trans answer
      rw [HeldAnswers.listed]
      -- an engine that does not tell the threads counts as one without any
      cases known : A.threads with
      | none =>
        rw [known] at told
        have run : threads.run w = ([], w') := by
          unfold threads
          rw [StateT.run_bind, told]
          rfl
        rw [run]
        exact ⟨rfl, kept.toHolding⟩
      | some ids =>
        rw [known] at told
        rw [run_threads told, kept.store]
        exact ⟨rfl, { kept with }⟩
  refine .of_answered fun w h => ⟨_, rfl, ?_⟩
  -- the reply is what was listed
  obtain ⟨found, after⟩ := listed w h
  exact ⟨congrArg Reply.threads found, after⟩

/-- After the answer to a command to resume. -/
def Resumed (V : DebuggeeView σ) (A : HeldAnswers)
    (T : BreakpointTable → (UInt32 → Option UInt64) → Prop) (n : Nat) : Reply → Worker σ → Prop
  | .executed (.ok _), w => A.goes = true ∧ w.Released V T
  | .executed (.error _), w => A.goes = false ∧ w.Holding V T n
  | _, _ => False

/-- The debuggee is let run, unless the engine refuses. -/
theorem carriesOut_continue : CarriesOut (Holding V T n) (fun _ _ => False) (Resumed V A T n) .continue := by
  have cleared : Ensures (Holding V T n) (modifyStore (σ := σ) Store.clear) fun _ => Holding V T n :=
    fun w h => { h with }
  -- the engine answers as it is said to, and so it runs or is held
  have asked : Ensures (Holding V T n) (ask (Engine.setExecutionStatus (σ := σ) .go)) fun answer w =>
      answer.isOk = A.goes ∧ if A.goes then w.Released V T else w.Holding V T n := by
    intro w h
    obtain ⟨answer, after⟩ := L.go _ h.held
    have same : V.offset? ((Engine.setExecutionStatus (σ := σ) .go).call w.session.engine).2 =
        V.offset? w.session.engine := (L.offsets _).ordinary (.setExecutionStatus _) _ rfl
    have table := (congrArg (T w.breakpoints) same).mpr h.table
    refine ⟨answer, ?_⟩
    -- a refused continuation leaves the debuggee held
    cases goes : A.goes with
    | true =>
      rw [goes] at after
      exact ⟨after, table⟩
    | false =>
      rw [goes] at after
      exact { h with held := after, table }
  have resumed : Ensures (Holding V T n) (continueExecution (σ := σ)) fun result =>
      Resumed V A T n (.executed result) := by
    refine cleared.bind fun _ => asked.bind fun answer => ?_
    cases answer with
    | error e =>
      refine .pure fun w h => ?_
      obtain ⟨refused, after⟩ := h
      rw [← refused] at after
      exact ⟨refused.symm, after⟩
    | ok u =>
      -- that the debuggee goes on is put down, and published later
      have marked : Ensures (fun w => (Except.ok u : Except EngineError Unit).isOk = A.goes ∧
          if A.goes then w.Released V T else w.Holding V T n)
          (modify fun w => { w with resume := some .continued, stalled := false } : WorkerM σ PUnit)
          fun _ => Resumed V A T n (.executed (.ok ())) := by
        rintro w ⟨goes, after⟩
        rw [← goes] at after
        exact ⟨goes.symm, after⟩
      exact marked.bind fun _ => .pure fun _ h => h
  exact .of_answered fun w h => ⟨_, rfl, resumed w h⟩

/-- What is known of a debuggee that was let run stays so to the end. -/
theorem endFrame_released : EndFrame (Released (σ := σ) V T) :=
  KeptByCalls.endFrame (K := fun t s => V.released s ∧ T t (V.offset? s)) fun t =>
    keptByCalls_released L (T t)

end

end Worker

end DebugAdapter
