import DebugAdapter.Proofs.FallbackExpansion

/-!
# Values that are shown as expandable

A rendering tells whether a value can be expanded. It comes from the visualizer that decodes the value, or
from the default one in its place, or from none, if the value cannot be shown at all (`RenderingSource`).
Children are listed by the visualizer that decodes the value. So both go together unless the default
visualizer stood in: a value that is not expandable has no children, whatever the engine was asked for to
tell the one and to list the other.

## Key results

- `VisualizerRegistry.resolve_eq`: a value is shown by its rendering, wherever it comes from
- `ReadsSame.children_of_source`: which values that are shown have children
-/

namespace DebugAdapter

/-- Where the rendering of a value comes from. -/
inductive RenderingSource
  /-- The visualizer that decodes the value: the first that accepts it, or else the default one. -/
  | selected
  /-- The default visualizer, in the place of one that accepts the value and cannot show it. -/
  | fallback
  /-- None: the value cannot be shown. -/
  | sentinel
  deriving DecidableEq, Repr

namespace VisualizerRegistry

variable {σ : Type}

/-- Show a value by the default visualizer, in the place of another one or not, and tell where the rendering
comes from. -/
def resolveDefaultFrom (r : VisualizerRegistry σ) (source : RenderingSource) (v : NamedValue) :
    MemoryM σ (RenderingSource × Rendering) := do
  match ← attempt (r.default.render v) with
  | some rendering => return (source, rendering)
  | none => return (.sentinel, .unidentified)

/-- Show a value, and tell where the rendering comes from. -/
def resolveFrom (r : VisualizerRegistry σ) (v : NamedValue) : MemoryM σ (RenderingSource × Rendering) := do
  match ← r.find? v with
  | none => r.resolveDefaultFrom .selected v
  | some z =>
    match ← attempt (z.render v) with
    | some rendering => return (.selected, rendering)
    | none => r.resolveDefaultFrom .fallback v

/-- The default rendering is the same whether or not its source is kept. -/
theorem resolveDefault_eq (r : VisualizerRegistry σ) (source : RenderingSource) (v : NamedValue) :
    r.resolveDefault v = Prod.snd <$> r.resolveDefaultFrom source v := by
  rw [resolveDefault, resolveDefaultFrom, map_bind]
  refine congrArg (attempt (r.default.render v) >>= ·) (funext fun shown => ?_)
  cases shown <;> rfl

/-- A value is shown by its rendering, wherever it comes from. -/
theorem resolve_eq (r : VisualizerRegistry σ) (v : NamedValue) :
    r.resolve v = Prod.snd <$> r.resolveFrom v := by
  rw [resolve, resolveFrom, map_bind]
  refine congrArg (r.find? v >>= ·) (funext fun z => ?_)
  cases z with
  | none => exact r.resolveDefault_eq .selected v
  | some z =>
    rw [map_bind]
    refine congrArg (attempt (z.render v) >>= ·) (funext fun shown => ?_)
    cases shown with
    | some rendering => rfl
    | none => exact r.resolveDefault_eq .fallback v

end VisualizerRegistry

/-! ## What follows from a rendering -/

section

variable {S α β ε : Type} {U : S → Prop} {m : ExceptT ε (StateM S) α} {k : α → ExceptT ε (StateM S) β}
  {s : S} {b : β}

/-- Of work that succeeded, the first step always succeeds, with what the rest went on from. -/
theorem Settles.of_bind_ok (hm : Settles U id m.run) (here : U s) (done : ((m >>= k).run.run s).1 = .ok b) :
    ∃ a, Finds U m.run (.ok a) ∧ ∃ s', U s' ∧ ((k a).run.run s').1 = .ok b := by
  obtain ⟨r, finds⟩ := hm
  have first := finds s here
  rw [ExceptT.run_bind, StateT.run_bind] at done
  cases ran : m.run.run s with
  | mk r' s' =>
    rw [ran] at first done
    obtain ⟨same, after⟩ := first
    obtain rfl : r' = r := same
    cases r' with
    | error e => cases done
    | ok a => exact ⟨a, finds, s', after, done⟩

end

variable {σ : Type} [DataSpaces σ]

omit [DataSpaces σ] in
/-- After work with a known result the rest starts from that result. -/
theorem Finds.run_bind {S α β : Type} {U : S → Prop} {m : StateM S α} {k : α → StateM S β} {a : α} {s : S}
    (finds : Finds U m a) (here : U s) : ∃ s', U s' ∧ ((m >>= k).run s).1 = ((k a).run s').1 := by
  obtain ⟨same, after⟩ := finds s here
  refine ⟨_, after, ?_⟩
  rw [← same]
  rfl

omit [DataSpaces σ] in
/-- An attempt always ends the same way if what is attempted does. -/
theorem Finds.attempt {α : Type} {U : Memory σ → Prop} {m : VisualM σ α} {r : Except VisualizeError α}
    (finds : Finds U m.run r) : Finds U (VisualizerRegistry.attempt m) r.toOption :=
  finds.bindEq (.pure fun _ h => ⟨rfl, h⟩)

/-- What is listed goes with a rendering: nothing if the value is not expandable, and something if it is and
`full` holds. -/
def ListsWith (shown : Rendering) (full : Prop) (r : Except VisualizeError (List NamedValue)) : Prop :=
  (shown.hasChildren = false → childNames r = []) ∧ (shown.hasChildren = true → full → childNames r ≠ [])

/-- Where not everything is promised to be listed, only the values shown as leaves matter. -/
theorem ListsWith.of_not_full {shown : Rendering} {full : Prop} {r : Except VisualizeError (List NamedValue)}
    (none : shown.hasChildren = false → childNames r = []) (not : ¬full) : ListsWith shown full r :=
  ⟨none, fun _ h => absurd h not⟩

section

omit [DataSpaces σ]

variable {U : Memory σ → Prop} {shown : Rendering}

/-- Children are listed under the names that they are given. -/
theorem Ensures.names_mapM {α : Type} {f : α → MemoryM σ NamedValue} {name : α → String}
    (named : ∀ a, Ensures U (f a) fun child mem => child.name = name a ∧ U mem) (l : List α) :
    Ensures U (l.mapM f) fun children _ => children.map (·.name) = l.map name := by
  refine Ensures.mono (Ensures.mapM (P := fun done found mem => found.map (·.name) = done.map name ∧ U mem)
    (fun done found a => ?_) l) (fun _ h => ⟨rfl, h⟩) fun _ _ h => h.1
  rintro mem ⟨before, h⟩
  have next := named a mem h
  rw [List.map_append, List.map_append, before]
  exact ⟨congrArg (_ ++ [·]) next.1, next.2⟩

/-- What is looked at is listed. -/
theorem ListsWith.look {m : MemoryM σ (List NamedValue)} {full : Prop} {names : List String}
    (lists : Ensures U m fun children _ => children.map (·.name) = names)
    (none : shown.hasChildren = false → names = []) (some : shown.hasChildren = true → full → names ≠ []) :
    Ensures U (DebugAdapter.look m).run fun r _ => ListsWith shown full r := by
  intro mem h
  have listed : childNames ((DebugAdapter.look m).run.run mem).1 = names := lists mem h
  exact ⟨fun off => listed.trans (none off), fun on h => listed ▸ some on h⟩

/-- Of a sequence without elements none are listed. -/
theorem childNames_elements [DataSpaces σ] (base : TypedData) {length : TypedData} (none : length.word = 0) :
    Ensures U (DebugAdapter.look (Visualizer.elements base length.word.toNat) : VisualM σ _).run
      fun r _ => childNames r = [] := by
  rw [none]
  exact fun _ _ => rfl

end

namespace ReadsSame

variable {P : σ → Prop} {size : UInt8} (same : ReadsSame P) {v : NamedValue} {shown : Rendering}
  {mem : Memory σ} (here : Memory.In P size mem)
include same here

omit here in
/-- Elements are listed by their numbers. -/
theorem names_elements (base : TypedData) (length : Nat) : Ensures (Memory.In P size)
    (Visualizer.elements base length) fun children _ => children.map (·.name) =
      (List.range (min length Visualizer.maxElements)).map fun i => "[" ++ toString i ++ "]" := by
  refine Ensures.names_mapM (fun i => ?_) _
  refine (Ensures.of_keeps (same.readFrame.arrayElement base _)).bind fun element mem h => ?_
  exact ⟨rfl, same.readFrame.named _ element mem h⟩

/-- A sequence without elements lists none. -/
private theorem sequence_listsWith {title field : String} {rest : TypedData → VisualM σ (List NamedValue)}
    (shows : ((do return Visualizer.titled title (← Visualizer.requiredField v.data field).word :
      VisualM σ Rendering).run.run mem).1 = .ok shown)
    (empty : ∀ length : TypedData, length.word = 0 →
      Ensures (Memory.In P size) (rest length).run fun r _ => childNames r = []) :
    Ensures (Memory.In P size) (Visualizer.requiredField v.data field >>= rest).run
      fun r _ => ListsWith shown False r := by
  obtain ⟨length, found, _, _, titled⟩ := (same.requiredField v.data field).of_bind_ok here shows
  refine Ensures.bindOk found ?_
  -- the flag is read off the same length that the children are counted by
  have flag : shown.hasChildren = decide (0 < length.word) := by
    cases titled
    rfl
  by_cases none : length.word = 0
  · refine (empty length none).mono (fun _ h => h) fun r _ h => ?_
    exact .of_not_full (fun _ => h) id
  · refine fun mem _ => .of_not_full (fun off => absurd ?_ none) id
    rw [flag, decide_eq_false_iff_not, UInt64.not_lt, UInt64.le_zero_iff] at off
    exact off

/-- A vector shown as a leaf has no elements to list. -/
private theorem vector_listsWith (shows : ((Visualizer.vector.render v).run.run mem).1 = .ok shown) :
    Ensures (Memory.In P size) (Visualizer.vector.children v).run fun r _ => ListsWith shown False r := by
  refine same.sequence_listsWith here shows fun length none => ?_
  obtain ⟨buffer?, buffer⟩ : Settles (Memory.In P size) id (Visualizer.requiredField v.data "buf").run :=
    same.requiredField v.data "buf"
  refine Ensures.bindExcept buffer (fun buffer => ?_) fun _ _ _ => rfl
  obtain ⟨pointer?, pointer⟩ : Settles (Memory.In P size) id
    (Visualizer.findPointer? Visualizer.maxPointerDepth buffer) := same.findPointer? _ buffer
  refine Ensures.mono (Ensures.bindLookEq pointer ?_) (fun _ h => h.2) fun _ _ h => h
  cases pointer? with
  | none => exact .pure fun _ _ => rfl
  | some base => exact childNames_elements base none

/-- A slice shown as a leaf has no elements to list. -/
private theorem slice_listsWith (shows : ((Visualizer.slice.render v).run.run mem).1 = .ok shown) :
    Ensures (Memory.In P size) (Visualizer.slice.children v).run fun r _ => ListsWith shown False r := by
  refine same.sequence_listsWith here shows fun length none => ?_
  obtain ⟨pointer?, pointer⟩ : Settles (Memory.In P size) id
    (Visualizer.requiredField v.data "data_ptr").run := same.requiredField v.data "data_ptr"
  refine Ensures.bindExcept pointer (fun base => ?_) fun _ _ _ => rfl
  exact (childNames_elements base none).mono (fun _ h => h.2) fun _ _ h => h

/-- A tagged enum is always expandable. -/
private theorem tagged_hasChildren (shows : ((Visualizer.taggedEnum.render v).run.run mem).1 = .ok shown) :
    shown.hasChildren = true := by
  obtain ⟨names, -, mem, here, shows⟩ := (same.fieldNames v.data).lookId.of_bind_ok here shows
  -- without a first field nothing is shown at all
  cases named : names.head? with
  | none =>
    rw [named] at shows
    cases shows
  | some first =>
    rw [named] at shows
    obtain ⟨marker, -, mem, here, shows⟩ := (same.field v.data first).lookId.of_bind_ok here shows
    obtain ⟨definition, -, mem, here, shows⟩ := (same.typeDefinition marker).lookId.of_bind_ok here shows
    obtain ⟨d, -, mem, here, shows⟩ := (same.discriminant v.data).of_bind_ok here shows
    split at shows
    · cases shows
      rfl
    · cases shows
      rfl

/-- An enum without discriminant has a child if its payload is active. -/
private theorem encoded_listsWith {first : String} {rest : List String}
    (named : Ensures (Memory.In P size) (Memory.fieldNames v.data) fun names mem =>
      names = first :: rest ∧ Memory.In P size mem)
    (shows : (((Visualizer.encodedEnum Visualizer.trailingPointerRule).render v).run.run mem).1 = .ok shown) :
    Ensures (Memory.In P size) ((Visualizer.encodedEnum Visualizer.trailingPointerRule).children v).run
      fun r _ => ListsWith shown True r := by
  have lists := same.encoded_lists here named
  obtain ⟨definition, -, mem', here', shows⟩ := (same.typeDefinition v.data).lookId.of_bind_ok here shows
  cases parsed : Visualizer.NicheVariants.parse? definition with
  | none =>
    rw [parsed] at shows
    cases shows
  | some variants =>
    rw [parsed] at shows
    obtain ⟨payload, found, mem', here', shows⟩ := (same.hasPayload v.data).of_bind_ok here' shows
    rw [(found mem here).1] at lists
    cases shows
    refine lists.mono (fun _ h => h) fun r _ h => ?_
    -- the flag and the listing are both read off the same answer about the payload
    cases payload with
    | false => exact ⟨fun _ => h.1, nofun⟩
    | true => exact ⟨nofun, fun _ _ none => by rw [h.1] at none; cases none⟩

omit here in
/-- An array that is expandable if it has elements lists one at least. -/
private theorem array_listsWith {length : Nat} {full : Prop}
    (counted : Finds (Memory.In P size) (Visualizer.arrayLength v.data) length)
    (flag : shown.hasChildren = decide (0 < length)) :
    Ensures (Memory.In P size)
      (DebugAdapter.look (do Visualizer.elements v.data (← Visualizer.arrayLength v.data)) :
        VisualM σ (List NamedValue)).run fun r _ => ListsWith shown full r := by
  refine ListsWith.look (counted.bindEq (same.names_elements v.data length)) (fun off => ?_) fun on _ => ?_
  · have empty : length = 0 := Nat.eq_zero_of_not_pos (of_decide_eq_false (flag.symm.trans off))
    rw [empty]
    rfl
  · have some : min length Visualizer.maxElements ≠ 0 := by
      have positive : 0 < length := of_decide_eq_true (flag.symm.trans on)
      have limit : Visualizer.maxElements = 10000 := rfl
      omega
    simpa using some

/-- A record that is expandable if its type has fields lists one at least. -/
private theorem record_listsWith {names : List String} {full : Prop}
    (named : Finds (Memory.In P size) (Memory.fieldNames v.data) names)
    (flag : shown.hasChildren = !names.isEmpty) :
    Ensures (Memory.In P size)
      (DebugAdapter.look (do (← Memory.fields v.data).mapM fun (name, field) => Memory.named name field) :
        VisualM σ (List NamedValue)).run fun r _ => ListsWith shown full r := by
  obtain ⟨fields, listed⟩ : Settles (Memory.In P size) id (Memory.fields v.data) := same.fields v.data
  have called : ∀ field : String × TypedData, Ensures (Memory.In P size) (Memory.named field.1 field.2)
      fun child mem => child.name = field.1 ∧ Memory.In P size mem :=
    fun field mem h => ⟨rfl, same.readFrame.named field.1 field.2 mem h⟩
  -- the children have the names of the fields
  have lists : Ensures (Memory.In P size)
      (do (← Memory.fields v.data).mapM fun field => Memory.named field.1 field.2)
      fun children _ => children.map (·.name) = fields.map Prod.fst :=
    Ensures.bindEq listed (.names_mapM called fields)
  have given : fields = ((Memory.fields v.data).run mem).1 := (listed mem here).1.symm
  refine ListsWith.look lists (fun off => ?_) fun on _ => ?_
  · -- a record whose type has no fields
    obtain rfl : names = [] := by simpa using flag.symm.trans off
    have none : Ensures (Memory.In P size) (Memory.fields v.data) fun fields _ => fields = [] :=
      named.bindEq fun _ _ => rfl
    rw [given, none mem here]
    rfl
  · -- a record whose type has fields has those of the value
    cases names with
    | nil => exact absurd (flag.symm.trans on) (by simp)
    | cons first rest =>
      obtain ⟨field, others, some⟩ := same.fields_of_named here named
      rw [given, (some mem here).1]
      exact List.cons_ne_nil _ _

/-- A pointer is expandable unless it is null, an array if it has elements, and a record if it has fields. -/
private theorem structural_listsWith
    (shows : ((Visualizer.structural.render v).run.run mem).1 = .ok shown) :
    Ensures (Memory.In P size) (Visualizer.structural.children v).run
      fun r _ => ListsWith shown (v.data.tag ≠ .pointer) r := by
  change ((Visualizer.renderStructure v).run.run mem).1 = .ok shown at shows
  change Ensures (Memory.In P size) (Visualizer.structureChildren v).run _
  unfold Visualizer.renderStructure at shows
  unfold Visualizer.structureChildren
  -- an absent value is not shown
  cases absent : v.data.isNone with
  | true =>
    rw [absent] at shows
    cases shows
  | false =>
    rw [absent] at shows
    simp only [Bool.false_eq_true, if_false] at shows
    split at shows
    · next pointer =>
      -- a null pointer is a leaf, and any other may still have an unreadable target
      cases shows
      simp only [pointer]
      refine Ensures.iteExcept (fun null => ?_) fun address => ?_
      · exact .pure fun _ _ => .of_not_full (fun _ => rfl) fun other => other rfl
      · refine fun _ _ => .of_not_full (fun off => absurd ?_ address) fun other => other rfl
        exact bne_eq_false_iff_eq.1 off
    · next array =>
      -- an array is listed with as many elements as are counted for its flag
      obtain ⟨length, found, _, _, shows⟩ := (same.arrayLength v.data).lookId.of_bind_ok here shows
      cases shows
      simp only [array]
      exact same.array_listsWith
        ((same.arrayLength v.data).finds here (Except.ok.inj (found mem here).1)) rfl
    · next pointer array =>
      -- everything else is listed by its fields
      obtain ⟨names, found, _, here', shows⟩ := (same.fieldNames v.data).lookId.of_bind_ok here shows
      obtain ⟨text, -, _, _, shows⟩ := (same.shortValue v.data).lookId.of_bind_ok here' shows
      cases shows
      exact same.record_listsWith here
        ((same.fieldNames v.data).finds here (Except.ok.inj (found mem here).1)) rfl

/-- What the visualizer that accepts a value lists goes with what it shows. -/
private theorem known_listsWith {z : Visualizer σ} (hz : z ∈ VisualizerRegistry.known)
    (accepted : Ensures (Memory.In P size) (z.accepts v) fun a mem => a = true ∧ Memory.In P size mem)
    (shows : ((z.render v).run.run mem).1 = .ok shown) :
    Ensures (Memory.In P size) (z.children v).run
      fun r _ => ListsWith shown (z.name = "encoded-enum") r := by
  have weaken : ∀ {z : Visualizer σ} {full : Prop}, z.name ≠ "encoded-enum" →
      (Ensures (Memory.In P size) (z.children v).run fun r _ => ListsWith shown full r) →
      Ensures (Memory.In P size) (z.children v).run fun r _ => ListsWith shown (z.name = "encoded-enum") r :=
    fun other lists => lists.mono (fun _ h => h) fun _ _ h => .of_not_full h.1 other
  simp only [VisualizerRegistry.known, List.mem_cons, List.not_mem_nil, or_false] at hz
  -- only the encoded enum promises a child whenever it is shown as expandable
  rcases hz with rfl | rfl | rfl | rfl | rfl | rfl
  · exact fun _ _ => .of_not_full (fun _ => rfl) (by decide : "string" ≠ "encoded-enum")
  · exact fun _ _ => .of_not_full (fun _ => rfl) (by decide : "wtf8" ≠ "encoded-enum")
  · exact weaken (by decide : "vec" ≠ "encoded-enum") (same.vector_listsWith here shows)
  · exact weaken (by decide : "slice" ≠ "encoded-enum") (same.slice_listsWith here shows)
  · have on := same.tagged_hasChildren here shows
    refine fun _ _ => .of_not_full (fun off => ?_) (by decide : "tagged-enum" ≠ "encoded-enum")
    rw [on] at off
    cases off
  · obtain ⟨first, rest, named⟩ := same.fieldNames_of_accepted here accepted
    refine (same.encoded_listsWith here named shows).mono (fun _ h => h) fun _ _ h => ?_
    exact ⟨h.1, fun on _ => h.2 on trivial⟩

/-! ## Absent values -/

/-- Only an absent value has no structure that could be shown. -/
private theorem isNone_of_structure_failed
    (failed : ((Visualizer.structural.render v).run.run mem).1.isOk = false) :
    v.data.isNone = true := by
  rw [← Bool.not_eq_false]
  intro present
  have shows : Succeeds (Memory.In P size) (Visualizer.renderStructure v) := by
    unfold Visualizer.renderStructure
    rw [present]
    simp only [Bool.false_eq_true, if_false]
    -- for a value that is there, every way to show its structure succeeds
    split
    · exact .pure _
    · exact Succeeds.bind (.look (same.readFrame.arrayLength v.data)) fun _ => .pure _
    · refine Succeeds.bind (.look (same.readFrame.fieldNames v.data)) fun _ => ?_
      exact Succeeds.bind (.look (same.readFrame.shortValue v.data)) fun _ => .pure _
  have shown : ((Visualizer.structural.render v).run.run mem).1.isOk = true := (shows mem here).1
  rw [failed] at shown
  cases shown

omit same in
/-- Nothing is listed for an absent value, whichever visualizer accepts it. -/
private theorem childNames_of_isNone (absent : v.data.isNone = true) {z? : Option (Visualizer σ)}
    (known : ∀ z, z? = some z → z ∈ VisualizerRegistry.known ∧
      Ensures (Memory.In P size) (z.accepts v) fun a mem => a = true ∧ Memory.In P size mem) :
    Ensures (Memory.In P size) ((z?.getD Visualizer.structural).children v).run
      fun r _ => childNames r = [] := by
  -- an absent value has no fields, so what is asked of a field fails
  have unnamed : (Memory.fieldNames v.data : MemoryM σ (List String)) = return [] := by
    rw [Memory.fieldNames, if_pos absent]
  have missing : ∀ name, Fails (Memory.In P size) (Visualizer.requiredField v.data name) := by
    intro name mem h
    rw [Visualizer.requiredField, Memory.field, if_pos absent]
    exact ⟨rfl, h⟩
  -- what is accepted for the name of a field is there
  have unmarked : ∀ marks : String → Bool, ¬Ensures (Memory.In P size)
      (do return (← Memory.fieldNames v.data).any marks : MemoryM σ Bool)
      fun a mem => a = true ∧ Memory.In P size mem := by
    intro marks accepted
    rw [unnamed] at accepted
    cases (accepted mem here).1
  -- a visualizer that needs a field lists nothing
  have failed : ∀ {m : VisualM σ (List NamedValue)}, Fails (Memory.In P size) m →
      Ensures (Memory.In P size) m.run fun r _ => childNames r = [] :=
    fun fails => fails.childNames_eq_nil.mono (fun _ h => h) fun _ _ h => h.1
  cases z? with
  | none =>
    have tag : v.data.tag = .null := by
      rw [TypedData.isNone, Bool.and_eq_true, beq_iff_eq, beq_iff_eq] at absent
      exact absent.2
    intro mem _
    change childNames ((Visualizer.structureChildren v).run.run mem).1 = []
    rw [Visualizer.structureChildren, tag]
    simp only [Memory.fields, unnamed]
    rfl
  | some z =>
    obtain ⟨hz, accepted⟩ := known z rfl
    simp only [VisualizerRegistry.known, List.mem_cons, List.not_mem_nil, or_false] at hz
    rcases hz with rfl | rfl | rfl | rfl | rfl | rfl
    · exact fun _ _ => rfl
    · exact fun _ _ => rfl
    · exact failed (missing "len").bind
    · exact failed (missing "length").bind
    · exact absurd accepted (unmarked _)
    · exact absurd accepted (unmarked _)

/-! ## Shown values -/

/-- The default visualizer shows all but an absent value. -/
private theorem shown_by_default {source from' : RenderingSource}
    (shows : ((VisualizerRegistry.standard.resolveDefaultFrom from' v).run mem).1 = (source, shown)) :
    source = from' ∧ ((Visualizer.structural.render v).run.run mem).1 = .ok shown ∨
      source = .sentinel ∧ shown = .unidentified ∧ v.data.isNone = true := by
  -- the default is the structure, and else the sentinel
  have ran : ((VisualizerRegistry.standard.resolveDefaultFrom from' v).run mem).1 =
      match ((Visualizer.structural.render v).run.run mem).1 with
      | .ok rendering => (from', rendering)
      | .error _ => (.sentinel, .unidentified) := by
    rw [VisualizerRegistry.resolveDefaultFrom, StateT.run_bind]
    change (((match ((Visualizer.structural.render v).run.run mem).1.toOption with
      | some rendering => Pure.pure (from', rendering)
      | none => Pure.pure (RenderingSource.sentinel, Rendering.unidentified) :
        MemoryM σ (RenderingSource × Rendering)).run _).1) = _
    cases ((Visualizer.structural.render v).run.run mem).1 with
    | ok rendering => rfl
    | error e => rfl
  -- the sentinel is given only where the structure could not be shown
  rw [ran] at shows
  cases given : ((Visualizer.structural.render v).run.run mem).1 with
  | ok rendering =>
    rw [given] at shows
    cases shows
    exact .inl ⟨rfl, rfl⟩
  | error e =>
    rw [given] at shows
    cases shows
    exact .inr ⟨rfl, rfl, same.isNone_of_structure_failed here (by rw [given]; rfl)⟩

omit same in
/-- An enum without discriminant, or a value that no visualizer accepts and that is no pointer. It has children if
it is expandable. -/
private def ListedInFull (v : NamedValue) (z? : Option (Visualizer σ)) : Prop :=
  z? = some (Visualizer.encodedEnum Visualizer.trailingPointerRule) ∨ z? = none ∧ v.data.tag ≠ .pointer

/-- What is listed of a value goes with what is shown of it, unless the default visualizer shows it in the place
of another one. -/
private theorem listsWith_shown {z? : Option (Visualizer σ)}
    (finds : Finds (Memory.In P size) (VisualizerRegistry.standard.find? v) z?)
    (known : ∀ z, z? = some z → z ∈ VisualizerRegistry.known ∧
      Ensures (Memory.In P size) (z.accepts v) fun a mem => a = true ∧ Memory.In P size mem)
    {source : RenderingSource}
    (shows : ((VisualizerRegistry.standard.resolveFrom v).run mem).1 = (source, shown))
    (direct : source ≠ .fallback) :
    Ensures (Memory.In P size) ((z?.getD Visualizer.structural).children v).run
      fun r _ => ListsWith shown (ListedInFull v z?) r := by
  -- an absent value is not shown as expandable, and nothing is listed for it
  have absent : shown = .unidentified → v.data.isNone = true →
      Ensures (Memory.In P size) ((z?.getD Visualizer.structural).children v).run
        fun r _ => ListsWith shown (ListedInFull v z?) r := by
    rintro rfl none
    refine (childNames_of_isNone here none known).mono (fun _ h => h) fun r _ h => ?_
    exact ⟨fun _ => h, nofun⟩
  obtain ⟨mem₁, here₁, rest⟩ := finds.run_bind (k := fun z => _) here
  rw [VisualizerRegistry.resolveFrom, rest] at shows
  -- a value that no visualizer accepts is shown and listed by its structure
  cases z? with
  | none =>
    rcases same.shown_by_default here₁ shows with ⟨-, rendered⟩ | ⟨-, unidentified, none⟩
    · refine (same.structural_listsWith here₁ rendered).mono (fun _ h => h) fun r _ h => ⟨h.1, fun on all => ?_⟩
      exact h.2 on (all.resolve_left nofun).2
    · exact absent unidentified none
  | some z =>
    obtain ⟨hz, accepted⟩ := known z rfl
    obtain ⟨r, renders⟩ : ∃ r, Finds (Memory.In P size) (z.render v).run r := same.settles_render z hz v
    obtain ⟨mem₂, here₂, fallback⟩ := renders.attempt.run_bind (k := fun rendering => _) here₁
    rw [fallback] at shows
    -- a visualizer that fails would be a fallback, which is excluded
    cases r with
    | ok rendering =>
      cases shows
      refine (same.known_listsWith here₁ hz accepted (renders mem₁ here₁).1).mono (fun _ h => h) fun r _ h => ?_
      refine ⟨h.1, fun on all => h.2 on ?_⟩
      rcases all with encoded | ⟨none, -⟩
      · cases encoded
        rfl
      · cases none
    -- or it falls back to the structure, which the source of the rendering tells
    | error e =>
      rcases same.shown_by_default here₂ shows with ⟨rfl, -⟩ | ⟨-, unidentified, none⟩
      · exact absurd rfl direct
      · exact absent unidentified none

/-- A value that is not shown by the default visualizer in the place of another one has no children if it is
not expandable. If it is, an enum without discriminant has some, and so has a value that no visualizer accepts,
unless it is a pointer. -/
theorem children_of_source {mem' : Memory σ} (later : Memory.In P size mem') {source : RenderingSource}
    (shows : ((VisualizerRegistry.standard.resolveFrom v).run mem).1 = (source, shown))
    (direct : source ≠ .fallback) :
    ((VisualizerRegistry.standard.resolve v).run mem).1 = shown ∧
      (shown.hasChildren = false → ((VisualizerRegistry.standard.children v).run mem').1 = []) ∧
      (shown.hasChildren = true →
        ((VisualizerRegistry.standard.find? v).run mem).1 =
            some (Visualizer.encodedEnum Visualizer.trailingPointerRule) ∨
          ((VisualizerRegistry.standard.find? v).run mem).1 = none ∧ v.data.tag ≠ .pointer →
        ((VisualizerRegistry.standard.children v).run mem').1 ≠ []) := by
  obtain ⟨z?, finds, known⟩ : ∃ z?, Finds (Memory.In P size) (VisualizerRegistry.standard.find? v) z? ∧ _ :=
    same.settles_find? v
  have found : ((VisualizerRegistry.standard.find? v).run mem).1 = z? := (finds mem here).1
  -- what the visualizer lists agrees with the flag it has shown
  have lists := same.listsWith_shown here finds known shows direct
  -- a list of children that fails is shown as an empty one
  have listed : Ensures (Memory.In P size)
      (VisualizerRegistry.attempt ((z?.getD Visualizer.structural).children v)) fun children _ =>
        (shown.hasChildren = false → children.getD [] = []) ∧
          (shown.hasChildren = true → ListedInFull v z? → children.getD [] ≠ []) := by
    refine Ensures.bind lists fun r => .pure fun _ h => ?_
    refine ⟨fun off => List.map_eq_nil_iff.1 (h.1 off), fun on all none => h.2 on all ?_⟩
    exact List.map_eq_nil_iff.2 none
  have children : Ensures (Memory.In P size) (VisualizerRegistry.standard.children v) fun children _ =>
      (shown.hasChildren = false → children = []) ∧
        (shown.hasChildren = true → ListedInFull v z? → children ≠ []) :=
    finds.bindEq (listed.bind fun _ => .pure fun _ h => h)
  constructor
  · rw [VisualizerRegistry.resolve_eq, StateT.run_map]
    exact congrArg Prod.snd shows
  · rw [found]
    exact children mem' later

end ReadsSame

/-! ### An enum without discriminant

Its payload is not zero, so that the variant with data is active. -/

namespace Scripted

/-- A world with an enum without discriminant. -/
def activePayloadWorld : World where
  types := [
    (1, { name := some "Option", size := 8, tag := some .record
          definition := some "RUST$ENCODED$ENUM$0$None : Some"
          fields := [("RUST$ENCODED$ENUM$0$None", { typeId := 91 })] }),
    (91, { name := some "u64", size := 8, tag := some .base })]
  memory := [⟨0x100, #[7, 0, 0, 0, 0, 0, 0, 0]⟩]

/-- The memory of that world. -/
def activePayloadMemory : Memory World where
  engine := activePayloadWorld

/-- The enum. -/
def activePayload : NamedValue where
  name := "o"
  typeName := "Option"
  data := ⟨0x140000000, 0x100, 1, 8, .record, 7⟩

/-- The option is shown by the visualizer of encoded enums. -/
private theorem find?_activePayload :
    ((VisualizerRegistry.standard.find? activePayload).run activePayloadMemory).1 =
      some (Visualizer.encodedEnum Visualizer.trailingPointerRule) := by
  have text : (Visualizer.TextLayout.ofTypeName? activePayload.typeName).isSome = false := by decide +kernel
  have platform : (activePayload.typeName == "struct std::sys_common::wtf8::Wtf8") = false := by decide
  have vector : Visualizer.vectorTypeStarts.any (Text.startsWith · activePayload.typeName) = false := by
    decide +kernel
  have slice : Text.hasWord "&[" activePayload.typeName = false := by decide +kernel
  simp only [VisualizerRegistry.find?, VisualizerRegistry.standard, VisualizerRegistry.known,
    VisualizerRegistry.firstAccepting?, Visualizer.string, Visualizer.wtf8, Visualizer.vector,
    Visualizer.slice, text, platform, vector, slice]
  rfl

/-- It is shown as expandable, and something is listed. -/
theorem children_activePayload :
    ((VisualizerRegistry.standard.resolve activePayload).run activePayloadMemory).1 = ⟨"Option::Some", true⟩ ∧
      ((VisualizerRegistry.standard.children activePayload).run activePayloadMemory).1 ≠ [] := by
  have here : Memory.In (World.At activePayloadWorld.essence) 8 activePayloadMemory :=
    ⟨World.at_essence _, rfl⟩
  have same : ReadsSame (World.At activePayloadWorld.essence) := World.steady.readsSame _
  have shows : ((VisualizerRegistry.standard.resolveFrom activePayload).run activePayloadMemory).1 =
      (.selected, ⟨"Option::Some", true⟩) := by
    decide +kernel
  obtain ⟨shown, -, lists⟩ := same.children_of_source here here shows (by decide)
  exact ⟨shown, lists rfl (.inl find?_activePayload)⟩

end Scripted

end DebugAdapter
