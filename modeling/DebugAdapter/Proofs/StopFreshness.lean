import DebugAdapter.Proofs.GatewayLifecycle
import DebugAdapter.Proofs.StoreFilling
import DebugAdapter.Scripted.Engine

/-!
# What is known at a stop

When a native wait returns, what was known of the debuggee before it ran should be forgotten. That is
so unless commands that list threads or frames are carried out after the debuggee was told to resume
and before the wait is entered: they fill the store, and nothing clears it before the stop.

Without such commands, the entities listed after a stop were all found at it.

## Key results

- `Worker.lists_execute`: what a command lists is stored under the handles it is given
- `Observed.run_isEmpty_iff`: when the store is empty at a stop, and what is listed after it then
-/

namespace DebugAdapter

/-- The frames, scopes and variables that a reply lists. -/
def Reply.entities : Reply → List (Registered Entity)
  | .frames l => l.map fun r => ⟨r.handle, .frame r.content⟩
  | .scopes l => l.map fun r => ⟨r.handle, .scope r.content⟩
  | .variables l => l.map fun r => ⟨r.handle, .variable r.content⟩
  | _ => []

/-- The frames, scopes and variables that are listed when a command is carried out. -/
def Worker.Outcome.entities : Worker.Outcome → List (Registered Entity)
  | answered r => r.entities
  | started _ => []

/-- What a native wait has returned. -/
def Phase.returned? : Phase → Option (List NativeEvent)
  | woken _ (.ok events) => some events
  | _ => none

/-- The tables of the store agree, and the entities of a list are stored under their handles. -/
def Store.Lists (l : List (Registered Entity)) (s : Store) : Prop :=
  s.Consistent ∧ ∀ x ∈ l, s.get? x.handle = some x.content

/-- An empty list is stored. -/
theorem Store.Lists.nil {s : Store} (h : s.Consistent) : s.Lists [] :=
  ⟨h, fun _ hx => absurd hx List.not_mem_nil⟩

variable {σ : Type} [Engine σ]

namespace Worker

/-! ## Entities that are listed -/

/-- Looking leaves the store as it is. -/
theorem looking_of_store (P : Store → Prop) : LookingFrame fun w : Worker σ => P w.store where
  call := fun _ _ h => h
  typeNames := fun _ _ h => h

omit [Engine σ] in
/-- An entity that is registered is stored beside those listed before. -/
private theorem ensures_register (l : List (Registered Entity)) (parent : Handle) (entity : Entity) :
    Ensures (fun w : Worker σ => w.store.Lists l) (register parent entity) fun h? w =>
      w.store.Lists (l ++ h?.toList.map (⟨·, entity⟩)) := by
  intro w hw
  obtain ⟨known, new⟩ := hw.1.get?_add parent entity
  refine ⟨hw.1.add parent entity, fun x hx => ?_⟩
  -- what was listed is found as before, and the new entity under the handle it was given
  rcases List.mem_append.1 hx with hx | hx
  · exact known (hw.2 x hx)
  · obtain ⟨h, hh, rfl⟩ := List.mem_map.1 hx
    have result : (w.store.add parent entity).1.toOption = some h := Option.mem_toList.1 hh
    cases added : (w.store.add parent entity).1 with
    | error e =>
      rw [added] at result
      exact nomatch result
    | ok h' =>
      rw [added] at result
      obtain rfl : h' = h := Option.some.inj result
      exact new added

omit [Engine σ] in
/-- What is registered one after the other is all stored. -/
private theorem ensures_registerAll {α β : Type} (parent : Handle) (toEntity : β → Entity)
    {describe : α → WorkerM σ (Option β)}
    (looks : ∀ P : Store → Prop, ∀ a, Keeps (fun w : Worker σ => P w.store) (describe a))
    (elements : List α) :
    Ensures (fun w : Worker σ => w.store.Consistent)
      (registerAll parent toEntity describe elements) fun found w =>
        w.store.Lists (found.map fun r => ⟨r.handle, toEntity r.content⟩) := by
  let entry : Registered β → Registered Entity := fun r => ⟨r.handle, toEntity r.content⟩
  let listed : List (Option (Registered β)) → Worker σ → Prop := fun found w =>
    w.store.Lists ((found.filterMap id).map entry)
  refine Ensures.bind (R := listed) ?_ fun found => .pure fun _ hw => hw
  -- on the elements: what is registered so far is stored
  refine (Ensures.mapM (P := fun _ => listed) (fun _ found a => ?_) elements).mono
    (fun _ hw => .nil hw) fun _ _ hw => hw
  refine (Ensures.of_keeps (looks (Store.Lists _) a)).bind fun described => ?_
  cases described with
  | none =>
    refine .pure fun w hw => ?_
    simpa [listed] using hw
  | some b =>
    refine (ensures_register _ parent (toEntity b)).bind fun h? => .pure fun w hw => ?_
    cases h? <;> simpa [listed] using hw

/-- The entities of a list of frames, scopes or variables are stored under their handles. -/
private def Shows {β : Type} (toEntity : β → Entity) (l : List (Registered β)) (w : Worker σ) : Prop :=
  w.store.Lists (l.map fun r => ⟨r.handle, toEntity r.content⟩)

omit [Engine σ] in
/-- Showing nothing is right for any consistent store. -/
private theorem Shows.nil {β : Type} {toEntity : β → Entity} {w : Worker σ}
    (h : w.store.Consistent) : Shows toEntity [] w :=
  Store.Lists.nil h

omit [Engine σ] in
/-- What is found with its content in the store is shown rightly. -/
private theorem Shows.of_mem {β : Type} {toEntity : β → Entity} {l : List (Registered β)}
    {w : Worker σ} (hw : w.store.Consistent)
    (h : ∀ r ∈ l, w.store.get? r.handle = some (toEntity r.content)) : Shows toEntity l w := by
  refine ⟨hw, fun x hx => ?_⟩
  obtain ⟨r, hr, rfl⟩ := List.mem_map.1 hx
  exact h r hr

/-- The frames that are listed are stored. -/
private theorem shows_stackTrace (thread : UInt32) :
    Ensures (fun w : Worker σ => w.store.Consistent) (stackTrace thread) (Shows .frame) := by
  have F := (consistent_frame (σ := σ)).commands.threadAdding
  refine (Ensures.of_keeps (F.selectThread thread)).bind fun selected => ?_
  cases selected with
  | error e => exact .pure fun w hw => .nil hw
  | ok a =>
    refine (Ensures.of_keeps (F.keeps_addThread thread)).bind fun holder => .bindGet fun w₀ _ => ?_
    -- frames that are known are listed from the store, others are registered first
    refine .ite (fun _ => .pure ?_) fun _ => ?_
    · rintro w ⟨hw, rfl⟩
      exact .of_mem hw fun r hr => hw.get?_of_mem_framesOf hr
    · refine Ensures.of_left ((Ensures.of_keeps Keeps.get).bind fun _ => ?_)
      refine (Ensures.of_keeps (F.ask? (.stackTrace _))).bind fun frames => ?_
      cases frames with
      | none => exact .pure fun w hw => .nil hw
      | some frames =>
        exact ensures_registerAll holder .frame
          (fun P f => ((looking_of_store P).describeFrame f).map _) frames

/-- The scopes that are listed are stored. -/
private theorem shows_scopes (frame : Handle) :
    Ensures (fun w : Worker σ => w.store.Consistent) (scopes frame) (Shows .scope) := by
  have F := (consistent_frame (σ := σ)).commands.storing.adding
  let entry : Registered Scope → Registered Entity := fun r => ⟨r.handle, .scope r.content⟩
  -- each scope is known, or it is registered below the frame
  have each : ∀ (found : List (Option (Registered Scope))) (kind : ScopeKind),
      Ensures (fun w : Worker σ => w.store.Lists ((found.filterMap id).map entry))
        (scopeOfKind frame kind) fun r w =>
          w.store.Lists (((found ++ [r]).filterMap id).map entry) := by
    intro found kind
    refine .bindGet fun w₀ _ => ?_
    split
    · next scope known =>
      refine .pure ?_
      rintro w ⟨hw, rfl⟩
      have stored := hw.1.get?_of_mem_scopesOf (List.mem_of_find?_eq_some known)
      refine ⟨hw.1, fun x hx => ?_⟩
      simp only [List.filterMap_append, List.map_append] at hx
      rcases List.mem_append.1 hx with hx | hx
      · exact hw.2 x hx
      · obtain rfl : x = entry scope := by simpa using hx
        exact stored
    · refine ((ensures_register _ frame (.scope ⟨kind⟩)).bind fun h? => .pure fun w hw => ?_).of_left
      cases h? <;> simpa [entry] using hw
  refine .bindGet fun w₀ _ => .ite (fun _ => .pure fun w hw => .nil hw.1) fun _ => ?_
  refine Ensures.of_left ((Ensures.of_keeps (F.selectFrame frame)).bind fun selected => ?_)
  cases selected with
  -- without the frame no scope is listed
  | error e => exact .pure fun w hw => .nil hw
  | ok a =>
    refine Ensures.bind (R := fun found w => w.store.Lists ((found.filterMap id).map entry)) ?_
      fun found => .pure fun _ hw => hw
    exact (Ensures.mapM (fun _ => each) ScopeKind.all).mono (fun _ hw => .nil hw) fun _ _ hw => hw

/-- The variables of a scope that are listed are stored. -/
private theorem shows_scopeVariables (scope : Registered Scope) :
    Ensures (fun w : Worker σ => w.store.Consistent) (scopeVariables scope) (Shows .variable) := by
  have F := (consistent_frame (σ := σ)).commands.storing.adding
  refine (Ensures.of_keeps Keeps.get).bind fun _ => ?_
  refine (Ensures.of_keeps (F.selectFrame _)).bind fun selected => ?_
  split
  · exact .pure fun w hw => .nil hw
  · exact .pure fun w hw => .nil hw
  · next thread order =>
    -- the steps up to the list leave the store as it is, or consistent
    have taken : ∀ key, Keeps (fun w : Worker σ => w.store.Consistent) (takeGroup? key) :=
      fun _ _ h => h
    have asked : ∀ previous, Keeps (fun w : Worker σ => w.store.Consistent)
        (ask? (Engine.scopeSymbolGroup scope.content.kind previous)) := fun _ _ h => h
    refine (Ensures.of_keeps (taken _)).bind fun previous => ?_
    refine (Ensures.of_keeps (asked _)).bind fun group => ?_
    cases group with
    | none => exact .pure fun w hw => .nil hw
    | some group =>
      -- putting the group back leaves the store
      have put : ∀ key count (found : List (Registered Variable)),
          Ensures (Shows .variable found) (do putGroup (σ := σ) key ⟨group, count⟩; return found)
            (Shows .variable) := fun _ _ _ _ h => h
      refine (Ensures.of_keeps (F.ask? (.groupCount group))).bind fun count => ?_
      refine .bindGet fun w₀ _ => .ite (fun _ => ?_) fun _ => ?_
      · -- the variables that are known, or new ones in their place
        refine Ensures.bind (R := Shows .variable) (.pure ?_) fun known => put _ _ known
        rintro w ⟨hw, rfl⟩
        exact .of_mem hw fun r hr => hw.get?_of_mem_variablesOf hr
      · have removed : Keeps (fun w : Worker σ => w.store.Consistent)
            (modifyStore (·.removeChildren scope.handle)) :=
          .modify fun w hw => hw.removeChildren scope.handle
        refine Ensures.of_left ((Ensures.of_keeps removed).bind fun _ => ?_)
        exact (ensures_registerAll scope.handle .variable
          (fun P => (looking_of_store P).describeSymbol group) _).bind fun found => put _ _ found

/-- The children of a variable that are listed are stored. -/
private theorem shows_expand (holder : Registered Variable) :
    Ensures (fun w : Worker σ => w.store.Consistent) (expand holder) (Shows .variable) := by
  have F := (consistent_frame (σ := σ)).commands.storing.adding
  refine .bindGet fun w₀ _ => .ite (fun _ => .pure ?_) fun _ => ?_
  · rintro w ⟨hw, rfl⟩
    exact .of_mem hw fun r hr => hw.get?_of_mem_variablesOf hr
  · refine Ensures.of_left
      ((Ensures.of_keeps (F.inMemory fun G => G.reading.children _)).bind fun children => ?_)
    exact ensures_registerAll holder.handle .variable
      (fun P => (looking_of_store P).describeValue) children

/-- What is listed below a reference is stored. -/
private theorem shows_variablesBelow (reference : Handle) :
    Ensures (fun w : Worker σ => w.store.Consistent) (variablesBelow reference) (Shows .variable) := by
  refine (Ensures.of_keeps Keeps.get).bind fun w => ?_
  split
  · exact shows_scopeVariables _
  · exact shows_expand _
  · exact .pure fun w hw => .nil hw

/-- What a command lists is stored under the handles it is given. -/
theorem lists_execute {w : Worker σ} (hw : w.store.Consistent) (c : Command) :
    ∀ x ∈ ((execute c).run w).1.entities,
      ((execute c).run w).2.store.get? x.handle = some x.content := by
  -- most replies list nothing of this kind
  have unlisted : ∀ {l : List (Registered Entity)}, l = [] → ∀ x ∈ l,
      ((execute c).run w).2.store.get? x.handle = some x.content := by
    rintro _ rfl x hx
    exact absurd hx List.not_mem_nil
  have unlistedStart : ∀ start : Except LaunchFailure NewDebuggee,
      (Outcome.ofStart start).entities = [] := by
    intro start
    cases start <;> rfl
  cases c with
  | launch r => exact unlisted (unlistedStart _)
  | attach r => exact unlisted (unlistedStart _)
  | stackTrace thread => exact (shows_stackTrace thread w hw).2
  | scopes frame => exact (shows_scopes frame w hw).2
  | «variables» reference => exact (shows_variablesBelow reference w hw).2
  | _ => exact unlisted rfl

end Worker

namespace Observed

/-- In any run, the executed commands say whether the store is filled. -/
theorem tracked_run (engine : σ) (options : GatewayOptions) (turns : List Turn) :
    ((new engine options).run turns).gateway.Tracked ((new engine options).run turns).executed :=
  run_induction (P := fun g _ executed => g.Tracked executed) (fun h a => h.act a)
    (Gateway.tracked_new engine options) turns

/-- At a stop nothing is known of the debuggee, unless the commands that were carried out have filled the
store again after it was cleared for the debuggee to resume. If nothing is known, what is listed later is
stored then and was not stored at the stop. -/
theorem run_isEmpty_iff (engine : σ) (options : GatewayOptions) (turns : List Turn)
    {events : List NativeEvent}
    (returned : ((new engine options).run turns).gateway.phase.returned? = some events) :
    let o := (new engine options).run turns
    (o.gateway.worker.store.isEmpty = true ↔ filled o.executed = false) ∧
    (filled o.executed = false → ∀ later, ∀ e ∈ (o.run later).executed.drop o.executed.length,
      ∀ x ∈ e.outcome.entities, o.gateway.worker.store.get? x.handle = none ∧
        e.after.store.get? x.handle = some x.content) := by
  intro o
  -- an engine thread whose wait has returned has not finished
  have on : o.gateway.phase ≠ .finished := by
    intro finished
    rw [finished] at returned
    exact nomatch returned
  have h := (tracked_run engine options turns).store on
  have empty : o.gateway.worker.store.isEmpty = !filled o.executed := h.2
  refine ⟨by rw [empty, Bool.not_eq_true'], ?_⟩
  -- an empty store finds nothing, while what is listed later is stored by then
  intro unfilled later e he x hx
  rw [unfilled] at empty
  refine ⟨Store.get?_of_isEmpty empty _, ?_⟩
  have known := (tracked_run engine options (turns ++ later)).consistent e ?_
  · exact Worker.lists_execute known e.command x hx
  · rw [run_append]
    exact List.mem_of_mem_drop he

/-- A debuggee with one thread, which is in one function, that stops once after it is resumed. -/
def stoppingOnce : Scripted.World where
  callStacks := [(1, [⟨0x1000, 0⟩])]
  names := [(0x1000, "app!main")]
  stops := [{ events := [.breakIn] }]

/-- The debuggee is launched and resumed, commands are queued behind that, and the engine thread makes a
number of steps. -/
def resumed (behind : List Command) (steps : Nat) : Observed Scripted.World :=
  (new stoppingOnce {}).run (((.launch ⟨"app", "app", [], []⟩ :: .continue :: behind).map
    fun c => .call (.submit c)) ++ List.replicate steps .engine)

/-- Nothing is asked before the stop, and nothing is known at it. -/
theorem run_isEmpty_iff_resumed :
    (resumed [] 9).gateway.phase.returned? = some [.breakIn] ∧
    (resumed [] 9).gateway.worker.store.isEmpty = true := by
  have returned : (resumed [] 9).gateway.phase.returned? = some [.breakIn] := by decide +kernel
  have unfilled : filled (resumed [] 9).executed = false := by decide +kernel
  exact ⟨returned, (run_isEmpty_iff stoppingOnce {} _ returned).1.2 unfilled⟩

/-- The stack is listed when the debuggee is told to resume and the native wait is not entered yet. So
its frame is stored at the stop, and is what a list of the stack at the stop is made of. -/
theorem resumed_stackTrace_not_isEmpty :
    (resumed [.stackTrace 1] 10).gateway.phase.returned? = some [.breakIn] ∧
    (resumed [.stackTrace 1] 10).gateway.worker.store.isEmpty = false ∧
    ∃ e ∈ ((resumed [.stackTrace 1] 10).run
        (.call (.submit (.stackTrace 1)) :: List.replicate 3 .engine)).executed.drop 3,
      e.command = .stackTrace 1 ∧ ∃ x ∈ e.outcome.entities,
        (resumed [.stackTrace 1] 10).gateway.worker.store.get? x.handle = some x.content := by
  refine ⟨?_, ?_, ?_⟩ <;> decide +kernel

end Observed

end DebugAdapter
