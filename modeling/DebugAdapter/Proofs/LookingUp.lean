import DebugAdapter.Proofs.SteadyEngine

/-!
# What is looked up and registered

A worker that looks at the stopped debuggee changes nothing but its engine and the type names that it
remembers (`Glances`). What it finds it registers at the end of a list (`Registering`). The next time the
list is there, and it is not looked up anew unless nothing was found.

## Key results

- `Worker.exists_run_registerAll`: what is known when entities were registered one after the other
- `Worker.exists_run_listOr`, `Worker.run_listOr_again`: what is listed is known, and is listed again
-/

namespace DebugAdapter.Worker

variable {σ : Type} [Engine σ] {P : σ → Prop}

/-! ## Looking -/

/-- Calls that look do not lead out of the states with `P`. -/
def LookedFrom (P : σ → Prop) : Prop :=
  ∀ {α : Type} {m : EngineM σ α}, LookCall m ∨ GroupCall m → ∀ s, P s → P (m.call s).2

/-- The work changes the engine, within `P`, and the type names that are remembered, and nothing else. -/
def Glances {α : Type} (P : σ → Prop) (m : WorkerM σ α) : Prop :=
  ∀ w, P w.session.engine → ∃ engine typeNames, P engine ∧
    (m.run w).2 = { w with session := { w.session with engine }, typeNames }

namespace Glances

variable {α β : Type}

omit [Engine σ] in
/-- Returning a value is a glance. -/
theorem pure (a : α) : Glances P (Pure.pure a : WorkerM σ α) :=
  fun w hw => ⟨w.session.engine, w.typeNames, hw, rfl⟩

omit [Engine σ] in
/-- Two glances are a glance. -/
theorem bind {m : WorkerM σ α} {k : α → WorkerM σ β} (hm : Glances P m) (hk : ∀ a, Glances P (k a)) :
    Glances P (m >>= k) := by
  intro w hw
  obtain ⟨engine, typeNames, hw', same⟩ := hm w hw
  obtain ⟨engine', typeNames', hw'', same'⟩ :=
    hk (m.run w).1 { w with session := { w.session with engine }, typeNames } hw'
  refine ⟨engine', typeNames', hw'', ?_⟩
  change ((k (m.run w).1).run (m.run w).2).2 = _
  rw [same]
  exact same'

omit [Engine σ] in
/-- Mapping the result of a glance is a glance. -/
theorem map {m : WorkerM σ α} (f : α → β) (hm : Glances P m) : Glances P (f <$> m) :=
  hm.bind fun _ => .pure _

/-- Asking the engine for something to look at is a glance. -/
theorem ask? (looked : LookedFrom P) {m : EngineM σ α} (h : LookCall m ∨ GroupCall m) :
    Glances P (Worker.ask? m) :=
  fun w hw => ⟨_, w.typeNames, looked h _ hw, rfl⟩

omit [Engine σ] in
/-- Looking at the memory is a glance. -/
theorem inMemory {m : MemoryM σ α} (hm : ∀ size, Keeps (Memory.In P size) m) :
    Glances P (Worker.inMemory m) :=
  fun w hw => ⟨_, _, (hm w.pointerSize ⟨w.session.engine, w.typeNames, w.pointerSize⟩ ⟨hw, rfl⟩).1, rfl⟩

end Glances

section

variable (looked : LookedFrom P) (size : UInt8)
include looked

/-- States that one may look at from any of them are a frame for reading. -/
theorem readFrame : Memory.ReadFrame (Memory.In P size) where
  call := fun h mem hmem => ⟨looked (.inl (.read h)) mem.engine hmem.1, hmem.2⟩
  typeNames := fun _ _ hmem => hmem

end

/-- What is shown for a native frame is looked up. -/
theorem glances_describeFrame (looked : LookedFrom P) (f : NativeFrame) :
    Glances P (describeFrame f) := by
  have source : Glances P (sourceOf (σ := σ) f.instructionOffset) := by
    refine (Glances.ask? looked (.inl (.lineByOffset _))).bind fun source => ?_
    split
    · exact .pure _
    · exact (Glances.ask? looked (.inl (.findSourceFile _))).bind fun _ => .pure _
  refine source.bind fun _ => ?_
  exact (Glances.ask? looked (.inl (.nameByOffset _))).bind fun _ => .pure _

/-- Describing a symbol is a glance. -/
theorem glances_describeSymbol (looked : LookedFrom P) (g : GroupId) (index : UInt32) :
    Glances P (describeSymbol (σ := σ) g index) := by
  refine (Glances.ask? looked (.inr (.groupEntry g index))).bind fun entry => ?_
  split
  · exact .pure _
  · split
    · exact .pure _
    · refine .inMemory fun size => ?_
      have F := readFrame looked size
      refine (F.create _ _ _).bind fun data => ?_
      -- the type name is asked for only if the entry has none
      refine .ite (fun _ => (F.typeName data).bind fun typeName => ?_)
        fun _ => (Keeps.pure _).bind fun typeName => ?_
      all_goals
        refine .ite (fun _ => .pure _) fun _ => ?_
        exact (keeps_present F _).bind fun _ => .pure _

omit [Engine σ] in
/-- What is always found in memory is found from a worker. -/
private theorem isSome_inMemory {α : Type} {m : MemoryM σ (Option α)}
    (hm : Ensures (fun _ => True) m fun r _ => r.isSome = true) (w : Worker σ) :
    ((inMemory m).run w).1.isSome = true :=
  hm _ trivial

/-- Something is shown for a symbol exactly if the listing has it at the top level. -/
theorem ensures_describeSymbol (g : GroupId) (l : SymbolListing) (index : UInt32) :
    Ensures (fun w : Worker σ => SymbolListing.of w.session.engine g = l) (describeSymbol g index)
      fun shown _ => shown.isSome = l.shows index := by
  refine Ensures.bind (R := fun entry _ => entry = (l.entry index).toOption) ?_ fun entry => ?_
  · rintro w rfl
    rfl
  refine Ensures.assume (fun _ answer => answer) fun answer => ?_
  -- by what the engine answers: nothing, an entry below another one, or one at the top level
  cases entry with
  | none =>
    cases given : l.entry index with
    | ok entry => rw [given] at answer; cases answer
    | error e =>
      have shows : l.shows index = false := by rw [SymbolListing.shows, given]
      exact .pure fun _ _ => shows.symm
  | some entry =>
    have given : l.entry index = .ok entry := by
      cases given : l.entry index with
      | ok entry' => rw [given] at answer; rw [Option.some.inj answer]
      | error e => rw [given] at answer; cases answer
    have shows : l.shows index = entry.parent.isNone := by rw [SymbolListing.shows, given]
    rw [shows]
    by_cases parent : entry.parent.isSome = true
    · -- an entry below another one is not shown on its own
      have below : entry.parent.isNone = false := by simpa using parent
      exact .ite (fun _ => .pure fun _ _ => below.symm) fun none => absurd parent none
    · have top : entry.parent.isNone = true := by simpa using parent
      refine .ite (fun some => absurd some parent) fun _ => ?_
      rw [top]
      -- whatever is found in memory, something is shown
      refine fun w _ => isSome_inMemory ?_ w
      refine Ensures.bind (R := fun _ _ => True) (fun _ _ => trivial) fun data => ?_
      refine .ite (fun _ => ?_) fun _ => ?_
      all_goals
        refine Ensures.bind (R := fun _ _ => True) (fun _ _ => trivial) fun typeName => ?_
        exact .ite (fun _ => .pure fun _ _ => rfl) fun _ => fun _ _ => rfl

/-! ## Registering -/

/-- The workers differ in the engine, the type names that are remembered, and the store. -/
def Beside (w w' : Worker σ) : Prop :=
  ∃ engine typeNames store,
    w' = { w with session := { w.session with engine }, typeNames, store }

/-- From `w` to `w'` entities were looked up and registered at the end of a list: those that were
found. -/
structure Registering {β : Type} (P : σ → Prop) (list : Store → List (Registered β)) (w w' : Worker σ)
    (found : List (Registered β)) : Prop where
  engine : P w'.session.engine
  beside : Beside w w'
  grown : w.store.Grown w'.store
  listed : list w'.store = list w.store ++ found
  none : found = [] → w'.store = w.store

variable {α β : Type} {list : Store → List (Registered β)} {w w' w'' : Worker σ}

omit [Engine σ] in
/-- Registering twice registers what is found in a row. -/
theorem Registering.trans {found found' : List (Registered β)} (h : Registering P list w w' found)
    (h' : Registering P list w' w'' found') : Registering P list w w'' (found ++ found') where
  engine := h'.engine
  beside := by
    obtain ⟨engine, typeNames, store, rfl⟩ := h.beside
    obtain ⟨engine', typeNames', store', rfl⟩ := h'.beside
    exact ⟨engine', typeNames', store', rfl⟩
  grown := h.grown.trans h'.grown
  listed := by rw [h'.listed, h.listed, List.append_assoc]
  none := by
    intro none
    obtain ⟨here, later⟩ := List.append_eq_nil_iff.1 none
    exact (h'.none later).trans (h.none here)

/-- Look an element up, and register what is found. -/
private def registerOne (parent : Handle) (toEntity : β → Entity) (describe : α → WorkerM σ (Option β))
    (a : α) : WorkerM σ (Option (Registered β)) := do
  match ← describe a with
  | none => return none
  | some b => return (← register parent (toEntity b)).map (⟨·, b⟩)

variable {parent : Handle} {kind : EntityKind} {toEntity : β → Entity}
  {describe : α → WorkerM σ (Option β)} {shown : α → Bool}

omit [Engine σ] in
/-- What is looked up for an element is registered, if it is anything. -/
private theorem registering_registerOne (appends : Store.Appends kind parent toEntity list)
    (glances : ∀ a, Glances P (describe a)) (a : α) (hw : P w.session.engine)
    (hs : w.store.Consistent) (live : parent ∈ w.store.handlesOf kind) :
    ∃ found store, (registerOne parent toEntity describe a).run w =
        (found, { ((describe a).run w).2 with store }) ∧
      Registering P list w { ((describe a).run w).2 with store } found.toList ∧
      found.map (·.content) = ((describe a).run w).1 := by
  -- describing an element touches the engine and the names of types only
  obtain ⟨engine, typeNames, hw', looked⟩ := glances a w hw
  have described : (describe a).run w = (((describe a).run w).1,
      { w with session := { w.session with engine }, typeNames }) := Prod.ext rfl looked
  unfold registerOne
  rw [looked, StateT.run_bind, described]
  -- nothing to show registers nothing, and anything else is the last of the list
  cases given : ((describe a).run w).1 with
  | none =>
    exact ⟨none, w.store, rfl, ⟨hw', ⟨engine, typeNames, w.store, rfl⟩, .refl _,
      (List.append_nil _).symm, fun _ => rfl⟩, rfl⟩
  | some b =>
    obtain ⟨added, listed⟩ := appends w.store hs live b
    let w' : Worker σ := { w with
      session := { w.session with engine }
      typeNames
      store := (w.store.add parent (toEntity b)).2 }
    refine ⟨some ⟨w.store.nextHandle, b⟩, w'.store, ?_, ?_, rfl⟩
    · change ((w.store.add parent (toEntity b)).1.toOption.map fun h => Registered.mk h b, w') = _
      rw [added]
      rfl
    · exact ⟨hw', ⟨engine, typeNames, _, rfl⟩, Store.grown_add _ _ _, listed, nofun⟩

omit [Engine σ] in
/-- What is looked up and registered one after the other comes last on the list. What every look keeps
holds of what was shown in the end. -/
theorem exists_run_registerAll (appends : Store.Appends kind parent toEntity list)
    (glances : ∀ a, Glances P (describe a)) {I : List α → List β → Worker σ → Prop}
    (each : ∀ done given a w, P w.session.engine → I done given w →
      I (done ++ [a]) (given ++ ((describe a).run w).1.toList) ((describe a).run w).2)
    (stores : ∀ done given w store, I done given w → I done given { w with store })
    (elements : List α) (hw : P w.session.engine) (hs : w.store.Consistent)
    (live : parent ∈ w.store.handlesOf kind) (start : I [] [] w) :
    ∃ found w', (registerAll parent toEntity describe elements).run w = (found, w') ∧
      Registering P list w w' found ∧ I elements (found.map (·.content)) w' := by
  -- the invariant of the loop: what is registered so far, and what holds of the elements so far
  let Q : List α → List (Option (Registered β)) → Worker σ → Prop := fun done found w' =>
    Registering P list w w' (found.filterMap id) ∧ I done ((found.filterMap id).map (·.content)) w'
  have loop : Ensures (Q [] []) (elements.mapM (registerOne parent toEntity describe))
      (Q elements) := by
    refine .mapM (fun done found a w₁ h => ?_) elements
    obtain ⟨here, given⟩ := h
    obtain ⟨one, store, run, later, content⟩ := registering_registerOne appends glances a here.engine
      (here.grown.consistent hs) (here.grown.mem live)
    -- an element that shows nothing adds nothing to either list
    have appended : (found ++ [one]).filterMap id = found.filterMap id ++ one.toList := by
      cases one <;> simp
    have contents : (one.toList.map (·.content)) = ((describe a).run w₁).1.toList := by
      rw [← content]
      cases one <;> rfl
    rw [run]
    refine ⟨appended ▸ here.trans later, ?_⟩
    rw [appended, List.map_append, contents]
    exact stores _ _ _ _ (each done _ a w₁ here.engine given)
  have done := loop w ⟨⟨hw, ⟨_, _, _, rfl⟩, .refl _, (List.append_nil _).symm, fun _ => rfl⟩, start⟩
  exact ⟨_, _, rfl, done⟩

omit [Engine σ] in
/-- Nothing is found exactly if none of the elements is shown. -/
theorem registering_registerAll (appends : Store.Appends kind parent toEntity list)
    (glances : ∀ a, Glances P (describe a))
    (shows : ∀ a w, P w.session.engine → ((describe a).run w).1.isSome = shown a) (elements : List α)
    (hw : P w.session.engine) (hs : w.store.Consistent) (live : parent ∈ w.store.handlesOf kind) :
    ∃ found w', (registerAll parent toEntity describe elements).run w = (found, w') ∧
      Registering P list w w' found ∧ (found = [] ↔ ∀ a ∈ elements, shown a = false) := by
  have each : ∀ (done : List α) (given : List β) a (w : Worker σ), P w.session.engine →
      (given = [] ↔ ∀ x ∈ done, shown x = false) →
      (given ++ ((describe a).run w).1.toList = [] ↔ ∀ x ∈ done ++ [a], shown x = false) := by
    intro done given a w hw none
    rw [List.append_eq_nil_iff, none, List.forall_mem_append, List.forall_mem_singleton, ← shows a w hw]
    cases ((describe a).run w).1 <;> simp
  obtain ⟨found, w', run, registering, none⟩ := exists_run_registerAll appends glances each
    (fun _ _ _ _ h => h) elements hw hs live (by simp)
  exact ⟨found, w', run, registering, by rw [← none, List.map_eq_nil_iff]⟩

/-! ## What is known is not looked up -/

/-- What is listed already, or else what some work finds. -/
def listOr (list : Store → List (Registered β)) (lookUp : WorkerM σ (List (Registered β))) :
    WorkerM σ (List (Registered β)) := do
  let known := list (← get).store
  if !known.isEmpty then return known
  lookUp

omit [Engine σ] in
theorem run_listOr (lookUp : WorkerM σ (List (Registered β))) (w : Worker σ) :
    (listOr list lookUp).run w =
      if (list w.store).isEmpty then lookUp.run w else (list w.store, w) := by
  change (if (!(list w.store).isEmpty) = true then (pure (list w.store) : WorkerM σ _)
    else lookUp).run w = _
  cases (list w.store).isEmpty <;> rfl

/-- The work registers what it finds, and whether it finds anything is settled. -/
def Fills (P : σ → Prop) (list : Store → List (Registered β)) (fit : Worker σ → Prop)
    (lookUp : WorkerM σ (List (Registered β))) (nothing : Prop) : Prop :=
  ∀ w, P w.session.engine → w.store.Consistent → fit w →
    ∃ found w', lookUp.run w = (found, w') ∧ Registering P list w w' found ∧ (found = [] ↔ nothing)

variable {lookUp : WorkerM σ (List (Registered β))} {fit : Worker σ → Prop} {nothing : Prop}

omit [Engine σ] in
/-- What is listed is known then, or there is nothing to be found. -/
theorem exists_run_listOr (fills : Fills P list fit lookUp nothing)
    (hw : P w.session.engine) (hs : w.store.Consistent) (ready : fit w) :
    ∃ found w', (listOr list lookUp).run w = (found, w') ∧ P w'.session.engine ∧ Beside w w' ∧
      w.store.Grown w'.store ∧ list w'.store = found ∧ (found = [] → nothing) := by
  rw [run_listOr]
  split
  · next empty =>
    obtain ⟨found, w', run, registering, fresh⟩ := fills w hw hs ready
    have listed := registering.listed
    rw [List.isEmpty_iff.1 empty, List.nil_append] at listed
    exact ⟨found, w', run, registering.engine, registering.beside, registering.grown, listed, fresh.1⟩
  · next some =>
    exact ⟨_, w, rfl, hw, ⟨_, _, _, rfl⟩, .refl _, rfl, fun none => absurd (List.isEmpty_iff.2 none) some⟩

omit [Engine σ] in
/-- What is known is listed again, and nothing is added. -/
theorem run_listOr_again (fills : Fills P list fit lookUp nothing) {found : List (Registered β)}
    (hw : P w.session.engine) (hs : w.store.Consistent) (ready : fit w) (known : list w.store = found)
    (none : found = [] → nothing) :
    ∃ w', (listOr list lookUp).run w = (found, w') ∧ w'.store = w.store := by
  rw [run_listOr, known]
  split
  · next empty =>
    have empty := List.isEmpty_iff.1 empty
    obtain ⟨found', w', run, registering, fresh⟩ := fills w hw hs ready
    obtain rfl : found' = [] := fresh.2 (none empty)
    exact ⟨w', by rw [run, empty], registering.none rfl⟩
  · exact ⟨w, rfl, rfl⟩

end DebugAdapter.Worker
