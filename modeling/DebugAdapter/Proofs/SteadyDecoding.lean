import DebugAdapter.Proofs.MemoryFrame

/-!
# Decoding what does not change

As long as an engine gives the same answers, a look at memory gives the same result. The names of types
are no part of that: a name may be remembered from before, so only the engine decides which children a
value has and how many there are, and not what their types are called.

The answers do not change in a set of engine states that calls do not leave, and in which each call has
one answer (`ReadsSame`). Work settles a question if its results have the same answer to it in all states
of such a set (`Settles`).

## Key results

- `ReadsSame.children`: the number of children of a value is settled, whichever visualizer decodes it
-/

namespace DebugAdapter

/-- In all states with `P` the call gives the same answer, and it leads to states with `P'`. -/
def EngineM.Answers {σ α : Type} (P : σ → Prop) (m : EngineM σ α) (a : Except EngineError α)
    (P' : σ → Prop) : Prop :=
  ∀ s, P s → (m.call s).1 = a ∧ P' (m.call s).2

/-- From states with `U` the work leads to states with `U`, and all its results are the same in what `f`
tells of them. -/
def Settles {S α β : Type} (U : S → Prop) (f : α → β) (m : StateM S α) : Prop :=
  ∃ b, Ensures U m fun a s => f a = b ∧ U s

/-- From states with `U` the work gives `a`, and leads to states with `U`. -/
abbrev Finds {S α : Type} (U : S → Prop) (m : StateM S α) (a : α) : Prop :=
  Ensures U m fun a' s => a' = a ∧ U s

namespace Settles

variable {S α β γ : Type} {U : S → Prop}

/-- What is given once is given always. -/
theorem finds {m : StateM S α} (hm : Settles U id m) {s : S} (hs : U s) {a : α} (given : (m.run s).1 = a) :
    Finds U m a := by
  obtain ⟨b, hb⟩ := hm
  -- the result of one run is that of all
  obtain rfl : b = a := (hb s hs).1.symm.trans given
  exact hb

/-- Returning a value settles whatever is looked at in it. -/
theorem pure (f : α → β) (a : α) : Settles U f (Pure.pure a) :=
  ⟨f a, .pure fun _ hs => ⟨rfl, hs⟩⟩

/-- A sequence settles what its second part settles for the settled result of the first. -/
theorem bind {m : StateM S α} {k : α → StateM S β} {f : β → γ} (hm : Settles U id m)
    (hk : ∀ a, Settles U f (k a)) : Settles U f (m >>= k) := by
  obtain ⟨a, ha⟩ := hm
  obtain ⟨b, hb⟩ := hk a
  refine ⟨b, ha.bind fun a' s hs => ?_⟩
  obtain rfl : a' = a := hs.1
  exact hb s hs.2

/-- Of the state that is read only what is the same in all states is used. -/
theorem bindGet {k : S → StateM S α} {k₀ : StateM S α} {f : α → β} (h : Settles U f k₀)
    (hk : ∀ s, U s → k s = k₀) : Settles U f (MonadState.get >>= k) := by
  obtain ⟨b, hb⟩ := h
  refine ⟨b, .bindGet fun s₀ h₀ => ?_⟩
  rw [hk s₀ h₀]
  exact hb.of_left

/-- A choice that does not depend on the state settles what both branches settle. -/
theorem ite {c : Prop} [Decidable c] {m m' : StateM S α} {f : α → β} (hm : c → Settles U f m)
    (hm' : ¬c → Settles U f m') : Settles U f (if c then m else m') := by
  by_cases h : c
  · rw [if_pos h]
    exact hm h
  · rw [if_neg h]
    exact hm' h

/-- The results for the elements of a list are settled one by one. -/
theorem mapM {f : α → StateM S β} (hf : ∀ a, Settles U id (f a)) (l : List α) :
    Settles U id (l.mapM f) := by
  induction l with
  | nil => exact .pure id []
  | cons a l ih =>
    rw [List.mapM_cons]
    exact (hf a).bind fun _ => ih.bind fun _ => .pure id _

/-- There are as many results as elements. -/
theorem length_mapM {f : α → StateM S β} (hf : ∀ a, Keeps U (f a)) (l : List α) :
    Settles U List.length (l.mapM f) := by
  refine ⟨l.length, ?_⟩
  induction l with
  | nil => exact .pure fun _ hs => ⟨rfl, hs⟩
  | cons a l ih =>
    rw [List.mapM_cons]
    refine (Ensures.of_keeps (hf a)).bind fun _ => ih.bind fun rest => .pure fun s hs => ?_
    exact ⟨congrArg (· + 1) hs.1, hs.2⟩

/-! ### Work that may fail -/

/-- Succeeding settles whatever is looked at in the result. -/
theorem ok {ε : Type} (f : Except ε α → β) (a : α) :
    Settles U f (Pure.pure a : ExceptT ε (StateM S) α).run :=
  .pure f (.ok a)

/-- Failing settles whatever is looked at in the failure. -/
theorem error {ε : Type} (f : Except ε α → β) (e : ε) :
    Settles U f (throw e : ExceptT ε (StateM S) α).run :=
  .pure f (.error e)

/-- A sequence that may fail settles what its second part settles; a settled failure is its result otherwise. -/
theorem bindExcept {ε : Type} {m : ExceptT ε (StateM S) α} {k : α → ExceptT ε (StateM S) β}
    {f : Except ε β → γ} (hm : Settles U id m.run) (hk : ∀ a, Settles U f (k a).run) :
    Settles U f (m >>= k).run := by
  rw [ExceptT.run_bind]
  refine hm.bind fun r => ?_
  cases r with
  | ok a => exact hk a
  | error e => exact .pure f (.error e)

/-- A choice between computations that may fail settles what both branches settle. -/
theorem iteExcept {ε : Type} {c : Prop} [Decidable c] {m m' : ExceptT ε (StateM S) α}
    {f : Except ε α → β} (hm : c → Settles U f m.run) (hm' : ¬c → Settles U f m'.run) :
    Settles U f (if c then m else m').run :=
  ite hm hm'

end Settles

variable {σ : Type} [DataSpaces σ]

/-- In states with `P` each call for memory or types that writes nothing has one answer, and leads to
states with `P`. -/
def ReadsSame (P : σ → Prop) : Prop :=
  ∀ {α : Type} {m : EngineM σ α}, ReadCall m → ∃ a, m.Answers P a P

/-- The engine is in a state with `P`, and pointers are of a size. -/
def Memory.In (P : σ → Prop) (size : UInt8) (mem : Memory σ) : Prop :=
  P mem.engine ∧ mem.pointerSize = size

omit [DataSpaces σ] in
/-- Looking settles in a success what the computation settles. -/
theorem Settles.look {α β : Type} {U : Memory σ → Prop} {m : MemoryM σ α} {f : α → β}
    (h : Settles U f m) : Settles U (fun r => r.toOption.map f) (look m).run := by
  obtain ⟨b, hb⟩ := h
  refine ⟨some b, fun mem hmem => ⟨?_, (hb mem hmem).2⟩⟩
  exact congrArg some (hb mem hmem).1

omit [DataSpaces σ] in
/-- Looking settles the whole result if the computation does. -/
theorem Settles.lookId {α : Type} {U : Memory σ → Prop} {m : MemoryM σ α} (h : Settles U id m) :
    Settles U id (DebugAdapter.look m).run := by
  obtain ⟨a, ha⟩ := h
  refine ⟨.ok a, fun mem hmem => ⟨?_, (ha mem hmem).2⟩⟩
  exact congrArg Except.ok (ha mem hmem).1

namespace ReadsSame

variable {P : σ → Prop} {size : UInt8} (same : ReadsSame P)
include same

/-- States in which the same is read are a frame for reading. -/
theorem readFrame : Memory.ReadFrame (Memory.In P size) where
  call := by
    intro α m h mem hmem
    obtain ⟨a, ha⟩ := same h
    exact ⟨(ha mem.engine hmem.1).2, hmem.2⟩
  typeNames := fun _ _ hmem => hmem

/-! ## Memory -/

/-- A reading call has one answer in all these states. -/
theorem ask {α : Type} {m : EngineM σ α} (h : ReadCall m) :
    Settles (Memory.In P size) id (Memory.ask m) := by
  obtain ⟨a, ha⟩ := same h
  refine ⟨a.toOption, fun mem hmem => ⟨?_, (ha mem.engine hmem.1).2, hmem.2⟩⟩
  exact congrArg Except.toOption (ha mem.engine hmem.1).1

/-- So has a request for typed data. -/
theorem request (r : TypedRequest) : Settles (Memory.In P size) id (Memory.request r) :=
  (same.ask (.typedData r)).bind fun _ => .pure id _

/-- A pointer leads to the same value. -/
theorem dereference (data : TypedData) : Settles (Memory.In P size) id (Memory.dereference data) :=
  .ite (fun _ => .pure id _) fun _ => same.request _

/-- A field has the same value. -/
theorem field (data : TypedData) (name : String) :
    Settles (Memory.In P size) id (Memory.field data name) :=
  .ite (fun _ => .pure id _) fun _ => same.request _

/-- The same bytes are read. -/
theorem readBytes (offset : UInt64) (length : UInt32) :
    Settles (Memory.In P size) id (Memory.readBytes offset length) :=
  (same.ask (.readVirtual offset length)).bind fun _ => .pure id _

/-- The same field names are listed. -/
theorem fieldNames (data : TypedData) : Settles (Memory.In P size) id (Memory.fieldNames data) :=
  .ite (fun _ => .pure id _) fun _ => (same.ask (.fieldNames data)).bind fun _ => .pure id _

/-- The fields have the same values, in the same order. -/
theorem fields (data : TypedData) : Settles (Memory.In P size) id (Memory.fields data) := by
  refine (same.fieldNames data).bind fun names => ?_
  refine (Settles.mapM (fun name => ?_) names).bind fun _ => .pure id _
  exact (same.field data name).bind fun _ => .pure id _

/-- One child, whatever its type is called. -/
private theorem named_singleton (name : String) (data : TypedData) :
    Settles (Memory.In P size) (fun r => r.toOption.map List.length)
      (do return [← look (Memory.named name data)] : VisualM σ (List NamedValue)).run := by
  -- the name of its type may differ, the number of children does not
  refine ⟨some 1, fun mem hmem => ⟨rfl, ?_⟩⟩
  exact same.readFrame.named name data mem hmem

/-! ## Decoding -/

/-- An array has the same length. -/
theorem arrayLength (array : TypedData) :
    Settles (Memory.In P size) id (Visualizer.arrayLength array) :=
  (same.dereference array).bind fun _ => .ite (fun _ => .pure id _) fun _ => .pure id _

/-- As many elements are listed, whatever names their types are given. -/
theorem length_elements (base : TypedData) (length : Nat) :
    Settles (Memory.In P size) List.length (Visualizer.elements base length) := by
  refine .length_mapM (fun i => ?_) _
  exact (same.readFrame.arrayElement base _).bind fun _ => same.readFrame.named _ _

/-- A field that must be there is found in all these states or in none. -/
theorem requiredField (data : TypedData) (name : String) :
    Settles (Memory.In P size) id (Visualizer.requiredField data name).run := by
  refine (same.field data name).lookId.bindExcept fun field => ?_
  exact .iteExcept (fun _ => (Settles.error id _).bindExcept fun _ => .ok id _) fun _ => .ok id _

/-- The same pointer is found, at any depth. -/
theorem findPointer? (depth : Nat) (data : TypedData) :
    Settles (Memory.In P size) id (Visualizer.findPointer? depth data) := by
  induction depth generalizing data with
  | zero => exact .pure id _
  | succ depth ih =>
    refine .ite (fun _ => .pure id _) fun _ => .ite (fun _ => .pure id _) fun _ => ?_
    -- the names are the same in all states, and so is the first field
    refine (same.fieldNames data).bind fun names => ?_
    split
    · exact .pure id _
    · exact (same.field data _).bind fun field => ih field

/-- The same discriminant is read. -/
theorem discriminant (data : TypedData) :
    Settles (Memory.In P size) id (Visualizer.discriminant data).run := by
  refine (same.readBytes data.offset 1).lookId.bindExcept fun bytes => ?_
  split
  · exact .error id _
  · exact .ok id _

/-- The same payload is seen. -/
theorem hasPayload (data : TypedData) :
    Settles (Memory.In P size) id (Visualizer.trailingPointerRule.hasPayload data).run := by
  let word (size : UInt8) : VisualM σ Bool := do
    let word ← look (Memory.readBytes
      (data.offset + (data.size - size.toUInt32).toUInt64) size.toUInt32)
    if word.length < size.toUInt32.toNat then
      throw (.unreadable (data.offset + (data.size - size.toUInt32).toUInt64))
    return word.any (· != 0)
  let body (size : UInt8) : VisualM σ Bool := do
    if data.size < size.toUInt32 then
      throw (.noData ("trailing-pointer-v1: value of " ++ toString data.size.toNat ++ " bytes"))
    word size
  -- a word is read, or the value has no room for one
  have read : Settles (Memory.In P size) id (word size).run := by
    refine (same.readBytes _ _).lookId.bindExcept fun word => ?_
    exact .iteExcept (fun _ => (Settles.error id _).bindExcept fun _ => .ok id _) fun _ => .ok id _
  have settled : Settles (Memory.In P size) id (body size).run :=
    .iteExcept (fun _ => (Settles.error id _).bindExcept fun _ => read) fun _ => read
  -- of the memory only the size of pointers is looked at
  exact settled.bindGet (k := fun mem => (body mem.pointerSize).run) fun mem hmem => by rw [hmem.2]

/-- What is told of the children of a value: how many there are, if they can be decoded. -/
abbrev childCount (r : Except VisualizeError (List NamedValue)) : Option Nat :=
  r.toOption.map List.length

/-- A vector has as many children, or fails. -/
theorem vectorElements (v : NamedValue) :
    Settles (Memory.In P size) childCount (Visualizer.vectorElements v).run := by
  refine (same.requiredField v.data _).bindExcept fun length => ?_
  refine (same.requiredField v.data _).bindExcept fun buffer => ?_
  refine (same.findPointer? _ buffer).lookId.bindExcept fun pointer => ?_
  split
  · exact .error _ _
  · exact (same.length_elements _ _).look

/-- A slice has as many children, or fails. -/
theorem sliceElements (v : NamedValue) :
    Settles (Memory.In P size) childCount (Visualizer.sliceElements v).run := by
  refine (same.requiredField v.data _).bindExcept fun length => ?_
  refine (same.requiredField v.data _).bindExcept fun pointer => ?_
  exact (same.length_elements pointer _).look

/-- A tagged value has as many children, or fails. -/
theorem taggedChildren (v : NamedValue) :
    Settles (Memory.In P size) childCount (Visualizer.taggedChildren v).run := by
  refine (same.discriminant v.data).bindExcept fun d => Settles.look ?_
  refine (same.fieldNames v.data).bind fun names => .length_mapM (fun name => ?_) _
  exact (same.readFrame.field v.data name).bind fun field => same.readFrame.named name field

/-- A value with an encoded tag has as many children, or fails. -/
theorem encodedChildren (v : NamedValue) :
    Settles (Memory.In P size) childCount
      (Visualizer.encodedChildren Visualizer.trailingPointerRule v).run := by
  refine (same.hasPayload v.data).bindExcept fun payload => ?_
  refine .iteExcept (fun _ => .ok _ _) fun _ => ?_
  refine (same.fields v.data).lookId.bindExcept fun fields => ?_
  split
  · exact .error _ _
  · refine .iteExcept (fun _ => ?_) fun _ => same.named_singleton _ _
    exact (same.dereference _).lookId.bindExcept fun pointee => same.named_singleton _ _

/-- A value that is shown by its structure has as many children, or fails. -/
theorem structureChildren (v : NamedValue) :
    Settles (Memory.In P size) childCount (Visualizer.structureChildren v).run := by
  unfold Visualizer.structureChildren
  split
  · refine .iteExcept (fun _ => .ok _ _) fun _ => ?_
    refine (same.dereference v.data).lookId.bindExcept fun inner => ?_
    exact .iteExcept (fun _ => (Settles.error _ _).bindExcept fun _ => same.named_singleton _ _)
      fun _ => same.named_singleton _ _
  · exact Settles.look ((same.arrayLength v.data).bind fun length => same.length_elements v.data length)
  · refine Settles.look ((same.fields v.data).bind fun fields => .length_mapM (fun field => ?_) fields)
    exact same.readFrame.named field.1 field.2

/-! ## Visualizers -/

/-- A visualizer of which it is settled which values it accepts, and how many children a value has. -/
structure Settling (U : Memory σ → Prop) (z : Visualizer σ) : Prop where
  accepts : ∀ v, Settles U id (z.accepts v)
  children : ∀ v, Settles U childCount (z.children v).run

/-- Each of the known visualizers decides and counts alike in all these states. -/
theorem settling_known : ∀ z ∈ VisualizerRegistry.known, Settling (Memory.In P size) z := by
  intro z hz
  simp only [VisualizerRegistry.known, List.mem_cons, List.not_mem_nil, or_false] at hz
  rcases hz with rfl | rfl | rfl | rfl | rfl | rfl
  · exact ⟨fun _ => .pure id _, fun _ => .ok _ _⟩
  · exact ⟨fun _ => .pure id _, fun _ => .ok _ _⟩
  · exact ⟨fun _ => .pure id _, same.vectorElements⟩
  · exact ⟨fun _ => .pure id _, same.sliceElements⟩
  · exact ⟨fun v => (same.fieldNames v.data).bind fun _ => .pure id _, same.taggedChildren⟩
  · exact ⟨fun v => (same.fieldNames v.data).bind fun _ => .pure id _, same.encodedChildren⟩

omit [DataSpaces σ] same in
/-- The same visualizer is the first to accept, and it accepts whenever it is asked again. -/
private theorem settles_firstAccepting? {U : Memory σ → Prop} (v : NamedValue)
    (l : List (Visualizer σ)) (hl : ∀ z ∈ l, Settling U z) :
    ∃ z?, Ensures U (VisualizerRegistry.firstAccepting? v l) (fun found mem => found = z? ∧ U mem) ∧
      ∀ z, z? = some z → z ∈ l ∧ Ensures U (z.accepts v) fun accepted mem => accepted = true ∧ U mem := by
  -- on the list of visualizers; a first one that does not accept leaves the state in the same class
  induction l with
  | nil => exact ⟨none, .pure fun _ hs => ⟨rfl, hs⟩, nofun⟩
  | cons z rest ih =>
    obtain ⟨accepted, ha⟩ := (hl z List.mem_cons_self).accepts v
    obtain ⟨later, hlater, mem⟩ := ih fun z' hz' => hl z' (List.mem_cons_of_mem _ hz')
    refine ⟨if accepted then some z else later, ha.bind fun a s hs => ?_, ?_⟩
    · obtain rfl : a = accepted := hs.1
      cases a with
      | true => exact ⟨rfl, hs.2⟩
      | false => exact hlater s hs.2
    · intro z' hz'
      cases accepted with
      | true => exact Option.some.inj hz' ▸ ⟨List.mem_cons_self, ha⟩
      | false => exact ⟨List.mem_cons_of_mem _ (mem z' hz').1, (mem z' hz').2⟩

/-- It is settled which visualizer decodes a value. -/
theorem settles_find? (v : NamedValue) :
    ∃ z?, Ensures (Memory.In P size) (VisualizerRegistry.standard.find? v) (fun found mem =>
        found = z? ∧ Memory.In P size mem) ∧
      ∀ z, z? = some z → z ∈ VisualizerRegistry.known ∧
        Ensures (Memory.In P size) (z.accepts v) fun accepted mem =>
          accepted = true ∧ Memory.In P size mem :=
  settles_firstAccepting? v _ same.settling_known

omit [DataSpaces σ] same in
/-- Children that cannot be decoded are none. -/
private theorem length_getD_toOption (r : Except VisualizeError (List NamedValue)) :
    (r.toOption.getD []).length = (childCount r).getD 0 := by
  cases r <;> rfl

/-- The number of children of a value is settled. -/
theorem children (v : NamedValue) :
    Settles (Memory.In P size) List.length (VisualizerRegistry.standard.children v) := by
  obtain ⟨z?, found, mem⟩ := same.settles_find? v
  -- what is asked for the children is the visualizer that was found, or the one of last resort
  have decoding : Settling (Memory.In P size) (z?.getD Visualizer.structural) := by
    cases z? with
    | none => exact ⟨fun _ => .pure id _, same.structureChildren⟩
    | some z => exact same.settling_known z (mem z rfl).1
  obtain ⟨count, counted⟩ := decoding.children v
  refine ⟨count.getD 0, found.bind fun z s hs => ?_⟩
  obtain rfl : z = z? := hs.1
  have decoded := counted s hs.2
  refine ⟨?_, decoded.2⟩
  rw [← decoded.1]
  exact length_getD_toOption _

end ReadsSame

end DebugAdapter
