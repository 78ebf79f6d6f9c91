import DebugAdapter.Proofs.ScriptedSteady

/-!
# Looking type names up

Names of types are remembered between lookups, at most as many as the cache has room for, and a lookup
through any gateway may find what a lookup through another one has left. As long as the engine names types
by their module and number alone, this cannot be seen: each lookup gives what the engine would have
answered.

Nothing of the cache matters for that but one property, which any container may have
(`NameContainer.Faithful`): what it gives for a key was stored under that key. When it forgets, what it
forgets, and whether it counts lookups is left to it. Failures and empty names are not stored, so they are
asked for again each time.

## Key results

- `TypeNameCache.faithful_container`: the cache gives only what was stored under the key
- `NameLookup.look_through`: one lookup gives what the engine has, and stores nothing else
- `NameLookup.run_cached`: lookups with the cache give what lookups without it give
-/

namespace DebugAdapter

/-! ## Containers -/

/-- A container of type names. Looking at it may change it. -/
structure NameContainer (κ : Type) where
  empty : κ
  get : κ → TypeKey → Option String × κ
  put : κ → TypeKey → String → κ
  clear : κ → κ

namespace NameContainer

variable {κ : Type}

/-- A state of the container, with all that was ever stored on the way to it, held or not. -/
inductive Used (C : NameContainer κ) : List (TypeKey × String) → κ → Prop
  | empty : C.Used [] C.empty
  | get {stored : List (TypeKey × String)} {c : κ} (k : TypeKey) :
      C.Used stored c → C.Used stored (C.get c k).2
  | put {stored : List (TypeKey × String)} {c : κ} (k : TypeKey) (name : String) :
      C.Used stored c → C.Used ((k, name) :: stored) (C.put c k name)
  | clear {stored : List (TypeKey × String)} {c : κ} : C.Used stored c → C.Used stored (C.clear c)

/-- What the container gives for a key was stored under that key before. -/
def Faithful (C : NameContainer κ) : Prop :=
  ∀ {stored c}, C.Used stored c → ∀ {k name}, (C.get c k).1 = some name → (k, name) ∈ stored

end NameContainer

namespace TypeNameCache

/-- The cache, as a container. -/
def container : NameContainer TypeNameCache where
  empty := {}
  get := lookup
  put := insert
  clear _ := {}

/-- A lookup only moves names. -/
theorem entries_lookup_subset (c : TypeNameCache) (k : TypeKey) :
    (c.lookup k).2.entries ⊆ c.entries := by
  unfold lookup
  split
  · rename_i e found
    have there : e ∈ c.entries := List.mem_of_find?_eq_some found
    simp [there, without]
  · simp

/-- Only the name that is stored comes in. -/
theorem entries_insert_subset (c : TypeNameCache) (k : TypeKey) (name : String) :
    (c.insert k name).entries ⊆ (k, name) :: c.entries := by
  -- names are lost at the end only, and that of the key is replaced
  have taken : (c.insert k name).entries ⊆ (k, name) :: c.without k := List.take_subset _ _
  exact List.Subset.trans taken (List.cons_subset_cons _ List.filter_sublist.subset)

/-- The cache holds nothing but what was stored in it. -/
theorem entries_subset {stored : List (TypeKey × String)} {c : TypeNameCache}
    (used : container.Used stored c) : c.entries ⊆ stored := by
  induction used with
  | empty => simp [container]
  | @get stored c k _ ih => exact List.Subset.trans (entries_lookup_subset c k) ih
  | @put stored c k name _ ih =>
    exact List.Subset.trans (entries_insert_subset c k name) (List.cons_subset_cons _ ih)
  | clear _ _ => simp [container]

/-- The cache gives only what was stored under the key. -/
theorem faithful_container : container.Faithful :=
  fun used _ _ given => entries_subset used (mem_of_lookup given)

end TypeNameCache

/-! ## Lookups -/

variable {σ : Type} [DataSpaces σ]

/-- What the engine answers for the name of a type, none if it fails. -/
def EngineM.typeName? (moduleBase : UInt64) (typeId : UInt32) (s : σ) : Option String :=
  ((DataSpaces.typeName moduleBase typeId).call s).1.toOption

/-- In states with `I` the engine names types by their module and number alone, be it that it gives a
name, an empty one or none, and it stays in such states. -/
structure NamesByType (I : σ → Prop) : Prop where
  same : ∀ moduleBase typeId {s s' : σ}, I s → I s' →
    EngineM.typeName? moduleBase typeId s = EngineM.typeName? moduleBase typeId s'
  keeps : ∀ moduleBase typeId {s : σ}, I s → I ((DataSpaces.typeName moduleBase typeId).call s).2

/-- An engine whose answers do not change names types by module and number. -/
theorem ReadsSame.namesByType {I : σ → Prop} (reads : ReadsSame I) : NamesByType I where
  same := by
    intro moduleBase typeId s s' here here'
    obtain ⟨answer, given⟩ := reads (.typeName moduleBase typeId)
    simp only [EngineM.typeName?, (given s here).1, (given s' here').1]
  keeps := by
    intro moduleBase typeId s here
    obtain ⟨answer, given⟩ := reads (.typeName moduleBase typeId)
    exact (given s here).2

/-- Something that is done with the engine and the names remembered for it. -/
inductive NameStep (I : σ → Prop)
  /-- The type name of a value is looked up, through a gateway for pointers of a size. -/
  | look (pointerSize : UInt8) (data : TypedData)
  /-- The names are forgotten. -/
  | clear
  /-- The engine is used for something else. -/
  | other (f : σ → σ) (keeps : ∀ s, I s → I (f s))

/-- A way to look type names up, which keeps something beside the engine. -/
structure NameLookup (σ κ : Type) where
  start : κ
  look : (pointerSize : UInt8) → TypedData → σ → κ → String × σ × κ
  clear : κ → κ

namespace NameLookup

variable {κ : Type} {I : σ → Prop}

omit [DataSpaces σ] in
/-- The names that are given in a run, one for each lookup. -/
def names (L : NameLookup σ κ) : List (NameStep I) → σ → κ → List String
  | [], _, _ => []
  | .look pointerSize data :: rest, s, c =>
    let (name, s, c) := L.look pointerSize data s c
    name :: L.names rest s c
  | .clear :: rest, s, c => L.names rest s (L.clear c)
  | .other f _ :: rest, s, c => L.names rest (f s) c

omit [DataSpaces σ] in
/-- The names that are given in a run that begins with no name remembered. -/
def run (L : NameLookup σ κ) (steps : List (NameStep I)) (s : σ) : List String :=
  L.names steps s L.start

/-- Lookups through gateways that share the cache. -/
def cached : NameLookup σ TypeNameCache where
  start := {}
  look pointerSize data engine typeNames :=
    let (name, mem) := (Memory.typeName data).run { engine, typeNames, pointerSize }
    (name, mem.engine, mem.typeNames)
  clear _ := {}

/-- Lookups that ask the engine each time. -/
def uncached : NameLookup σ Unit where
  start := ()
  look _ data s _ :=
    if data.isNone then ("", s, ())
    else
      let (answer, s) := (DataSpaces.typeName data.moduleBase data.typeId).call s
      (answer.toOption.getD "", s, ())
  clear := id

/-- Lookups through gateways that share a container. -/
def through (C : NameContainer κ) : NameLookup σ κ where
  start := C.empty
  look _ data s c :=
    if data.isNone then ("", s, c)
    else
      let key : TypeKey := ⟨data.moduleBase, data.typeId⟩
      match C.get c key with
      | (some name, c) => (name, s, c)
      | (none, c) =>
        let (answer, s) := (DataSpaces.typeName data.moduleBase data.typeId).call s
        let name := answer.toOption.getD ""
        (name, s, if name.isEmpty then c else C.put c key name)
  clear := C.clear

/-- Memory looks names up through the cache as a container. -/
theorem cached_eq_through : (cached : NameLookup σ TypeNameCache) = through TypeNameCache.container := by
  have look : (cached (σ := σ)).look = (through TypeNameCache.container).look := by
    funext pointerSize data engine typeNames
    -- the name of an absent value is empty, and the engine is not asked
    cases absent : data.isNone with
    | true =>
      simp only [cached, through, Memory.typeName, absent, if_true]
      rfl
    | false =>
      cases found : typeNames.lookup ⟨data.moduleBase, data.typeId⟩ with
      | mk known c =>
        -- a name that is not stored is asked for
        cases known with
        | some name =>
          simp [cached, through, Memory.typeName, absent, TypeNameCache.container, found]
          rfl
        | none =>
          have asked : (Memory.ask (DataSpaces.typeName data.moduleBase data.typeId)).run
              ⟨engine, c, pointerSize⟩ = (pure (EngineM.typeName? data.moduleBase data.typeId engine,
                ⟨((DataSpaces.typeName data.moduleBase data.typeId).call engine).2, c, pointerSize⟩) :
                Id _) := rfl
          -- the name is stored unless it is empty
          by_cases empty : (EngineM.typeName? data.moduleBase data.typeId engine).getD "" = ""
          all_goals
            simp [cached, through, Memory.typeName, absent, TypeNameCache.container, found, asked,
              empty]
            rw [EngineM.typeName?] at empty
            simp [empty]
            rfl
  exact congrArg (fun look => (⟨{}, look, fun _ => {}⟩ : NameLookup σ TypeNameCache)) look

/-! ## Cached and uncached lookups side by side -/

/-- Every name that was stored is the one that the engine gives. -/
def Told (I : σ → Prop) (stored : List (TypeKey × String)) : Prop :=
  ∀ k name, (k, name) ∈ stored → ∀ s, I s → EngineM.typeName? k.moduleBase k.typeId s = some name

/-- A run with a container next to one without. The engines need not be in the same state, since the one
is asked less often than the other. -/
structure Beside (I : σ → Prop) (C : NameContainer κ) (s : σ) (c : κ) (s' : σ) : Prop where
  here : I s
  here' : I s'
  told : ∃ stored, C.Used stored c ∧ Told I stored

variable {C : NameContainer κ} {s s' : σ} {c : κ}

/-- A lookup through the container gives the name that the engine has, and only such names are stored
by it. -/
theorem look_through (named : NamesByType I) (faithful : C.Faithful) (beside : Beside I C s c s')
    (pointerSize : UInt8) (data : TypedData) :
    ∃ name s₁ c₁ s₁', (through C).look pointerSize data s c = (name, s₁, c₁) ∧
      uncached.look pointerSize data s' () = (name, s₁', ()) ∧ Beside I C s₁ c₁ s₁' := by
  obtain ⟨here, here', stored, used, told⟩ := beside
  cases absent : data.isNone with
  -- an absent value has no name, and nothing is looked up
  | true =>
    exact ⟨"", s, c, s', by simp [through, absent], by simp [uncached, absent], here, here',
      stored, used, told⟩
  | false =>
    have same := named.same data.moduleBase data.typeId here here'
    have kept := named.keeps data.moduleBase data.typeId here
    have kept' := named.keeps data.moduleBase data.typeId here'
    -- without a container the engine is asked each time
    have without : uncached.look pointerSize data s' () =
        ((EngineM.typeName? data.moduleBase data.typeId s').getD "",
          ((DataSpaces.typeName data.moduleBase data.typeId).call s').2, ()) := by
      simp [uncached, absent, EngineM.typeName?]
    have looked := NameContainer.Used.get ⟨data.moduleBase, data.typeId⟩ used
    cases found : C.get c ⟨data.moduleBase, data.typeId⟩ with
    | mk known c₁ =>
      rw [found] at looked
      cases known with
      | some name =>
        -- it was stored under this key, so the engine gave it, and gives it now
        have there := faithful used (by rw [found])
        have given := told _ name there s' here'
        exact ⟨name, s, c₁, _, by simp [through, absent, found], by simp [without, given], here, kept',
          stored, looked, told⟩
      | none =>
        -- what is not found in the container is asked, and stored if it has a name
        have asked : (through C).look pointerSize data s c =
            ((EngineM.typeName? data.moduleBase data.typeId s).getD "",
              ((DataSpaces.typeName data.moduleBase data.typeId).call s).2,
              if ((EngineM.typeName? data.moduleBase data.typeId s).getD "").isEmpty then c₁
              else C.put c₁ ⟨data.moduleBase, data.typeId⟩
                ((EngineM.typeName? data.moduleBase data.typeId s).getD "")) := by
          simp [through, absent, found, EngineM.typeName?]
        refine ⟨_, _, _, _, asked, by rw [without, same], kept, kept', ?_⟩
        cases answer : EngineM.typeName? data.moduleBase data.typeId s with
        | none => exact ⟨stored, by simpa using looked, told⟩
        | some name =>
          -- an empty name is not stored, so what is stored stays as it was
          by_cases empty : name = ""
          · exact ⟨stored, by simpa [empty] using looked, told⟩
          · refine ⟨(⟨data.moduleBase, data.typeId⟩, name) :: stored, ?_, ?_⟩
            · simpa [empty] using looked.put _ name
            · intro k other there s₁ here₁
              cases there with
              | head => rw [← answer]; exact named.same _ _ here₁ here
              | tail _ there => exact told k other there s₁ here₁

/-- The names that a run gives with the container are those that it gives without. -/
theorem names_through (named : NamesByType I) (faithful : C.Faithful) (steps : List (NameStep I))
    (beside : Beside I C s c s') : (through C).names steps s c = uncached.names steps s' () := by
  -- induction on the steps: both gateways stay beside each other
  induction steps generalizing s c s' with
  | nil => rfl
  | cons step rest ih =>
    cases step with
    | look pointerSize data =>
      obtain ⟨name, s₁, c₁, s₁', gives, gives', beside₁⟩ :=
        look_through named faithful beside pointerSize data
      simp only [names, gives, gives']
      rw [ih beside₁]
    | clear =>
      -- what was stored stays true of the engine
      obtain ⟨stored, used, told⟩ := beside.told
      exact ih ⟨beside.here, beside.here', stored, used.clear, told⟩
    | other f keeps => exact ih ⟨keeps s beside.here, keeps s' beside.here', beside.told⟩

/-- Type names looked up through any number of gateways that share the cache are those that the engine
would have given, whatever was looked up and cleared before and however many types there are. The same
holds for every container that gives a name only for the key it was stored under. -/
theorem run_cached (named : NamesByType I) {s : σ} (here : I s) (steps : List (NameStep I)) :
    cached.run steps s = uncached.run steps s ∧
    ∀ {κ : Type} (C : NameContainer κ), C.Faithful →
      (through C).run steps s = uncached.run steps s := by
  have start {κ : Type} (C : NameContainer κ) : Beside I C s C.empty s :=
    ⟨here, here, [], .empty, by simp [Told]⟩
  constructor
  · rw [cached_eq_through]
    exact names_through named TypeNameCache.faithful_container steps (start _)
  · intro κ C faithful
    exact names_through named faithful steps (start C)

end NameLookup

namespace Scripted

/-- A world with a type that has a name, one whose name is empty and one whose name cannot be read. -/
def partlyNamed : World where
  types := [(1, { name := some "u64" }), (2, { name := some "" }), (3, {})]

/-- Each type is looked up through gateways for pointers of both sizes, and so is an absent value. Then the
names are forgotten, the record of lookups is wiped, and two types are looked up again. -/
def partlyNamedLookups : List (NameStep (World.At partlyNamed.essence)) :=
  let value (typeId : UInt32) : TypedData := ⟨0x1000, 0x100, typeId, 8, .base, 7⟩
  [.look 8 (value 1), .look 4 (value 1), .look 8 (value 2), .look 4 (value 2), .look 8 (value 3),
    .look 4 (value 3), .look 8 .none, .clear,
    .other (fun w => { w with typeNameCalls := 0 }) (fun _ here => here), .look 8 (value 3),
    .look 8 (value 1)]

/-- The failure and the empty name are given again, and so is the name. -/
theorem run_cached_partlyNamed :
    NameLookup.cached.run partlyNamedLookups partlyNamed =
        ["u64", "u64", "", "", "", "", "", "", "u64"] ∧
      NameLookup.cached.run partlyNamedLookups partlyNamed =
        NameLookup.uncached.run partlyNamedLookups partlyNamed ∧
      (NameLookup.through TypeNameCache.container).run partlyNamedLookups partlyNamed =
        NameLookup.uncached.run partlyNamedLookups partlyNamed := by
  have reads : ReadsSame (World.At partlyNamed.essence) := World.steady.readsSame _
  have agree := NameLookup.run_cached reads.namesByType partlyNamed.at_essence partlyNamedLookups
  exact ⟨by decide +kernel, agree.1, agree.2 _ TypeNameCache.faithful_container⟩

end Scripted

end DebugAdapter
