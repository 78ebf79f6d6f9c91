import DebugAdapter.Proofs.ExecutionStatus
import DebugAdapter.Proofs.InspectionFrame
import DebugAdapter.Proofs.StoreFilling

/-!
# Debuggees that are not resumed

A command that resumes the debuggee may fail where its thread is selected, and where the engine is told to
go on. A thread that cannot be selected leaves what is stored as it was. Before the engine is told to go
on, all that is stored is forgotten, and it stays forgotten if the engine refuses. How the debuggee was
resumed last is remembered anew only when it is resumed.

## Key results

- `Worker.after_refused`: what a command leaves that did not resume the debuggee
-/

namespace DebugAdapter

/-- The failure is that of selecting a thread. -/
def ExecutionFailure.selects : ExecutionFailure → Bool
  | .selectingThread .. => true
  | _ => false

namespace Worker

variable {σ : Type} [Engine σ]

/-- The command is a step of a thread that cannot be selected. -/
def cannotSelect (w : Worker σ) : Command → Bool
  | .step _ (some thread) => !w.canSelect thread
  | _ => false

/-- In `w`, only the engine and what is stored are not as they were in `w₀`. -/
def Stores (w₀ : Worker σ) (store : Store) (w : Worker σ) : Prop :=
  ∃ session, w = { w₀ with session, store }

omit [Engine σ] in
/-- Asking the engine leaves the rest of the worker as it is. -/
theorem Stores.ask {w₀ : Worker σ} {store : Store} {α : Type} (m : EngineM σ α) :
    Keeps (w₀.Stores store) (Worker.ask m) := by
  rintro _ ⟨session, rfl⟩
  exact ⟨_, rfl⟩

omit [Engine σ] in
/-- Asking the engine leaves the rest of the worker as it is, also where it fails. -/
theorem Stores.require {w₀ : Worker σ} {store : Store} {ε α : Type} (failure : EngineError → ε)
    (m : EngineM σ α) : Keeps (w₀.Stores store) (Worker.require failure m).run := by
  refine (Stores.ask m).lift.bindExcept fun answer => ?_
  cases answer with
  | ok a => exact .ok a
  | error e => exact .error _

omit [Engine σ] in
/-- If the engine refuses to go on, all that is stored is forgotten. -/
private theorem resumeBy_refused (how : Resume) (failure : EngineError → ExecutionFailure)
    (m : EngineM σ Unit) (w₀ : Worker σ) (store : Store) :
    Ensures (w₀.Stores store) (resumeBy how failure m) fun r w =>
      ∀ f, r = .error f → (∃ e, f = failure e) ∧ w₀.Stores {} w := by
  -- the store is cleared before the engine is told
  have cleared : Ensures (w₀.Stores store) (modifyStore (σ := σ) Store.clear) fun _ => w₀.Stores {} := by
    rintro _ ⟨session, rfl⟩
    exact ⟨session, rfl⟩
  refine cleared.bind fun _ => (Ensures.of_keeps (Stores.ask m)).bind fun answer => ?_
  cases answer with
  | ok a =>
    intro w hw f refused
    cases refused
  | error e =>
    intro w hw f refused
    exact ⟨⟨e, (Except.error.inj refused).symm⟩, hw⟩

/-- A thread that cannot be selected is not made the current one. -/
private theorem selectThread_refused (thread : UInt32) (w₀ : Worker σ) :
    Ensures (w₀.Stores w₀.store) (selectThread thread).run fun r w =>
      ∃ store, w₀.Stores store w ∧ (r.isOk = false → store = w₀.store) := by
  have failed : ∀ (e : EngineError) w, w₀.Stores w₀.store w →
      ∃ store, w₀.Stores store w ∧ ((.error e : Except EngineError Unit).isOk = false → store = w₀.store) :=
    fun e w h => ⟨_, h, fun _ => rfl⟩
  have chosen : Ensures (w₀.Stores w₀.store)
      (ExceptT.lift (modifyStore (·.setCurrentThread thread)) :
        ExceptT EngineError (WorkerM σ) Unit).run fun r w =>
      ∃ store, w₀.Stores store w ∧ (r.isOk = false → store = w₀.store) := by
    rintro _ ⟨session, rfl⟩
    exact ⟨_, ⟨session, rfl⟩, fun refused => Bool.noConfusion refused⟩
  -- the thread is chosen in the store only after the engine has accepted it
  refine (Ensures.of_keeps (Stores.require _ _)).bindExcept (fun current => ?_) failed
  refine .iteExcept (fun _ => ?_) fun _ => chosen
  exact (Ensures.of_keeps (Stores.require _ _)).bindExcept (fun _ => chosen) failed

/-- What is left by a command that fails with `f`, and does not resume the debuggee. -/
def Leaves (w₀ : Worker σ) (c : Command) (f : ExecutionFailure) (w : Worker σ) : Prop :=
  f.selects = w₀.cannotSelect c ∧ w₀.Stores (if f.selects then w₀.store else {}) w

/-- A continue that is refused empties the store. -/
private theorem continue_refused (w₀ : Worker σ) :
    Ensures (· = w₀) (continueExecution (σ := σ)) fun r w =>
      ∀ f, r = .error f → w₀.Leaves .continue f w := by
  rintro w rfl f refused
  obtain ⟨⟨e, rfl⟩, stores⟩ := resumeBy_refused .continued .continuing _ w w.store w ⟨_, rfl⟩ f refused
  exact ⟨rfl, stores⟩

/-- A step that is refused empties the store, unless its thread could not be selected. -/
private theorem step_refused (kind : StepKind) (thread : Option UInt32) (w₀ : Worker σ) :
    Ensures (· = w₀) (step kind thread) fun r w =>
      ∀ f, r = .error f → w₀.Leaves (.step kind thread) f w := by
  have stays : w₀.Stores w₀.store w₀ := ⟨_, rfl⟩
  have refuses := resumeBy_refused (σ := σ) .stepped .stepping (stepCall kind) w₀
  cases thread with
  | none =>
    rintro _ rfl f refused
    obtain ⟨⟨e, rfl⟩, stores⟩ := refuses _ _ stays f refused
    exact ⟨rfl, stores⟩
  | some id =>
    have selected : Ensures (· = w₀) (selectThread id).run fun r w =>
        r.isOk = w₀.canSelect id ∧ ∃ store, w₀.Stores store w ∧ (r.isOk = false → store = w₀.store) := by
      rintro _ rfl
      exact ⟨rfl, selectThread_refused id _ _ stays⟩
    -- the failure tells whether the thread could be selected
    refine selected.bind fun r => ?_
    cases r with
    | error e =>
      rintro w ⟨unable, store, stores, same⟩ f refused
      -- a thread that cannot be selected leaves the store as it was
      obtain rfl := same rfl
      obtain rfl := Except.error.inj refused
      exact ⟨by rw [cannotSelect, ← unable]; rfl, stores⟩
    | ok u =>
      rintro w ⟨able, store, stores, -⟩ f refused
      -- the engine has refused the step, and the store is cleared by then
      obtain ⟨⟨e, rfl⟩, forgets⟩ := refuses _ w stores f refused
      exact ⟨by rw [cannotSelect, ← able]; rfl, forgets⟩

/-- The answer to a continue tells how it went. -/
private theorem answer_continue (w : Worker σ) :
    ((execute .continue).run w).1 = .answered (.executed ((continueExecution (σ := σ)).run w).1) :=
  rfl

/-- The answer to a step tells how it went. -/
private theorem answer_step (kind : StepKind) (thread : Option UInt32) (w : Worker σ) :
    ((execute (.step kind thread)).run w).1 = .answered (.executed ((step kind thread).run w).1) :=
  rfl

/-- A command that was to resume the debuggee, and fails, leaves it as it was how the debuggee was resumed
last, and that a wait has failed. What is stored is as before if the thread of a step cannot be selected,
and is forgotten if it is the engine that refuses to go on. -/
theorem after_refused {w : Worker σ} {c : Command} (resumes : c.resumes = true) {f : ExecutionFailure}
    (refused : ((execute c).run w).1 = .answered (.executed (.error f))) :
    (w.after c).resume = w.resume ∧ (w.after c).stalled = w.stalled ∧
      f.selects = w.cannotSelect c ∧ (w.after c).store = if f.selects then w.store else {} := by
  -- to continue and to step are the only commands that resume
  have leaves : w.Leaves c f (w.after c) := by
    cases c with
    | «continue» =>
      rw [answer_continue] at refused
      exact continue_refused w w rfl f (Reply.executed.inj (Outcome.answered.inj refused))
    | step kind thread =>
      rw [answer_step] at refused
      exact step_refused kind thread w w rfl f (Reply.executed.inj (Outcome.answered.inj refused))
    | _ => cases resumes
  obtain ⟨selects, session, after⟩ := leaves
  rw [after]
  exact ⟨rfl, rfl, selects, rfl⟩

end Worker

/-! ### An engine that refuses -/

namespace Observed

/-- A debuggee with two threads that cannot be told to go on. -/
def refusing : Scripted.World where
  threads := [1, 2]
  callStacks := [(1, [⟨0x1000, 0⟩])]
  failures := [("set_execution_status", .status .fail)]

/-- The stack of the first thread is listed. -/
def refusingStopped : Observed Scripted.World :=
  (new refusing {}).run ([.call (.submit (.launch ⟨"app", "app", [], []⟩)),
    .call (.submit (.stackTrace 1))] ++ List.replicate 8 .engine)

/-- A step of a thread that is not there leaves the frame. -/
theorem after_refused_absentThread :
    let w := refusingStopped.gateway.worker
    let c := Command.step .over (some 3)
    ((Worker.execute c).run w).1 = .answered (.executed (.error (.selectingThread 3 (.status .invalidArgument)))) ∧
      (w.after c).store = w.store ∧ w.store.get? ⟨2⟩ = some (.frame ⟨0x1000, 0, none, 0, "0x1000"⟩) := by
  intro w c
  have refused : ((Worker.step .over (some 3)).run w).1 =
      .error (.selectingThread 3 (.status .invalidArgument)) := by decide +kernel
  have answered : ((Worker.execute c).run w).1 =
      .answered (.executed (.error (.selectingThread 3 (.status .invalidArgument)))) := by
    rw [Worker.answer_step, refused]
  obtain ⟨-, -, -, store⟩ := Worker.after_refused (c := c) rfl answered
  exact ⟨answered, store, by decide +kernel⟩

/-- To continue forgets the frame, also if the engine refuses: the debuggee is stopped as before, and the
frame is not found any more. -/
theorem refused_forgets :
    let w := refusingStopped.gateway.worker
    refusingStopped.Reaches w ∧
      ((Worker.execute .continue).run w).1 =
        .answered (.executed (.error (.continuing (.status .fail)))) ∧
      w.engine.status = .stopped ∧ (w.after .continue).engine.status = .stopped ∧
      w.store.get? ⟨2⟩ = some (.frame ⟨0x1000, 0, none, 0, "0x1000"⟩) ∧
      (w.after .continue).store.get? ⟨2⟩ = none := by
  intro w
  have refused : ((Worker.continueExecution).run w).1 = .error (.continuing (.status .fail)) := by
    decide +kernel
  refine ⟨.inl rfl, by rw [Worker.answer_continue, refused], ?_, ?_, ?_, ?_⟩
  all_goals decide +kernel

end Observed

end DebugAdapter
