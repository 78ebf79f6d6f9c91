import DebugAdapter.Scripted.Engine
import DebugAdapter.Visualizer.Sequence
import DebugAdapter.Visualizer.Structural

/-!
# The elements of a sequence

The elements of a vector, a slice or an array are asked for one by one, each in the state in which the engine
was left by the one before it. An element that the engine cannot give is listed all the same, so it moves no
other element to another number and makes the list no shorter.

The buffer of a vector lies inside wrappers. The search for it follows first fields, and looks at so few values
that it comes to an end even on wrappers that lead back to themselves.

## Key results

- `lists_elements`: what is listed of a storage
- `Leads.findPointer?`: the search follows first fields
- `exists_pointer_or_fruitless`: how a search may go
- `children_of_stores`: what vectors, slices and arrays list, and when a vector lists nothing
-/

namespace DebugAdapter

/-- Work on each element of a list begins in the state that the work on the one before it left. -/
theorem exists_states_mapM {S α β : Type} (f : α → StateM S β) (l : List α) (s : S) :
    ∃ states : Nat → S, states 0 = s ∧ states l.length = ((l.mapM f).run s).2 ∧
      ((l.mapM f).run s).1.length = l.length ∧ ∀ i a, l[i]? = some a →
        ∃ b, ((l.mapM f).run s).1[i]? = some b ∧ (f a).run (states i) = (b, states (i + 1)) := by
  -- on the list, from whatever state the elements before have left
  induction l generalizing s with
  | nil => exact ⟨fun _ => s, rfl, rfl, rfl, fun i a h => nomatch h⟩
  | cons a l ih =>
    obtain ⟨states, first, last, length, steps⟩ := ih ((f a).run s).2
    have run : ((a :: l).mapM f).run s =
        (((f a).run s).1 :: ((l.mapM f).run ((f a).run s).2).1, ((l.mapM f).run ((f a).run s).2).2) := by
      rw [List.mapM_cons]
      rfl
    rw [run]
    -- the first state is put in front of those of the rest
    refine ⟨fun i => i.casesOn s states, rfl, last, congrArg (· + 1) length, fun i a' h => ?_⟩
    cases i with
    | zero =>
      obtain rfl : a = a' := Option.some.inj h
      exact ⟨_, rfl, Prod.ext rfl first.symm⟩
    | succ i => exact steps i a' h

namespace Visualizer

variable {σ : Type} [DataSpaces σ]

/-! ## Elements -/

/-- An entry for an element: the number of the element, what the engine gives for it, or the absent value, and
the name of its type. -/
structure IsElement (base : TypedData) (i : Nat) (mem : Memory σ) (child : NamedValue) (mem' : Memory σ) :
    Prop where
  name : child.name = "[" ++ toString i ++ "]"
  data : child.data =
    ((DataSpaces.typedData (.arrayElement base (UInt64.ofNat i))).call mem.engine).1.toOption.getD .none
  typed : (Memory.typeName child.data).run
    { mem with engine := ((DataSpaces.typedData (.arrayElement base (UInt64.ofNat i))).call mem.engine).2 } =
    (child.typeName, mem')

/-- One entry for each of the first `n` elements, in order. -/
structure Lists (base : TypedData) (n : Nat) (mem : Memory σ) (children : List NamedValue)
    (mem' : Memory σ) : Prop where
  length : children.length = n
  entries : ∃ memory : Nat → Memory σ, memory 0 = mem ∧ memory n = mem' ∧ ∀ i < n,
    ∃ child, children[i]? = some child ∧ IsElement base i (memory i) child (memory (i + 1))

/-- The entry for an element. -/
def element (base : TypedData) (i : Nat) : MemoryM σ NamedValue := do
  Memory.named ("[" ++ toString i ++ "]") (← Memory.arrayElement base (UInt64.ofNat i))

/-- The elements are asked for one after the other, up to the cap. -/
theorem elements_eq (base : TypedData) (n : Nat) :
    (elements base n : MemoryM σ _) = (List.range (min n maxElements)).mapM (element base) :=
  rfl

/-- One step of the listing gives the element with its index. -/
theorem isElement_element {base : TypedData} (present : base.isNone = false) (i : Nat) (mem : Memory σ) :
    IsElement base i mem ((element base i).run mem).1 ((element base i).run mem).2 := by
  -- nothing would be asked about an absent base
  have asked : Memory.arrayElement base (UInt64.ofNat i) =
      (Memory.request (.arrayElement base (UInt64.ofNat i)) : MemoryM σ _) := by
    rw [Memory.arrayElement, present]
    rfl
  rw [element, asked]
  exact ⟨rfl, rfl, rfl⟩

/-- What is listed of a storage. -/
theorem lists_elements {base : TypedData} (present : base.isNone = false) (n : Nat) (mem : Memory σ) :
    Lists base (min n maxElements) mem ((elements base n).run mem).1 ((elements base n).run mem).2 := by
  rw [elements_eq]
  obtain ⟨memory, first, last, length, steps⟩ :=
    exists_states_mapM (element base) (List.range (min n maxElements)) mem
  rw [List.length_range] at last length
  refine ⟨length, memory, first, last, fun i hi => ?_⟩
  obtain ⟨child, found, step⟩ := steps i i (List.getElem?_range hi)
  have taken := isElement_element present i (memory i)
  rw [step] at taken
  exact ⟨child, found, taken⟩

/-! ## Search for a pointer -/

/-- A value that is no pointer leads to its first field. -/
structure Descends (data : TypedData) (mem : Memory σ) (next : TypedData) (mem' : Memory σ) : Prop where
  present : data.isNone = false
  other : data.tag ≠ .pointer
  first : ∃ name names mem₁, (Memory.fieldNames data).run mem = (name :: names, mem₁) ∧
    (Memory.field data name).run mem₁ = (next, mem')

/-- There is nothing to go on with from a value: it is absent, or it is no pointer and has no fields. -/
def Stuck (data : TypedData) (mem : Memory σ) : Prop :=
  data.isNone = true ∨ data.tag ≠ .pointer ∧ ((Memory.fieldNames data).run mem).1 = []

/-- A value leads to another one through `k` first fields. -/
inductive Leads : (k : Nat) → TypedData → Memory σ → TypedData → Memory σ → Prop
  | here {data mem} : Leads 0 data mem data mem
  | step {k data mem next mem₁ last mem'} : Descends data mem next mem₁ → Leads k next mem₁ last mem' →
      Leads (k + 1) data mem last mem'

namespace Leads

variable {k : Nat} {data next last : TypedData} {mem mem₁ mem' : Memory σ}

/-- Ways along first fields can be put together. -/
theorem trans {j : Nat} (h : Leads j data mem next mem₁) (h' : Leads k next mem₁ last mem') :
    Leads (j + k) data mem last mem' := by
  induction h with
  | here => rwa [Nat.zero_add]
  | step descends _ ih =>
    rw [Nat.add_right_comm]
    exact .step descends (ih h')

/-- On the way there are values at all distances. -/
theorem exists_of_le (h : Leads k data mem last mem') {n : Nat} (le : n ≤ k) :
    ∃ next mem₁, Leads n data mem next mem₁ := by
  induction h generalizing n with
  | here =>
    obtain rfl := Nat.le_zero.1 le
    exact ⟨_, _, .here⟩
  | step descends _ ih =>
    cases n with
    | zero => exact ⟨_, _, .here⟩
    | succ n =>
      obtain ⟨next, mem₁, leads⟩ := ih (Nat.le_of_succ_le_succ le)
      exact ⟨next, mem₁, .step descends leads⟩

/-- A value that leads back to itself leads on for any number of fields. -/
theorem exists_of_cycle (cycle : Leads (k + 1) data mem data mem) (n : Nat) :
    ∃ next mem₁, Leads n data mem next mem₁ := by
  -- around `n` times
  have around : ∀ n, Leads (n * (k + 1)) data mem data mem := by
    intro n
    induction n with
    | zero => rw [Nat.zero_mul]; exact .here
    | succ n ih => rw [Nat.succ_mul]; exact ih.trans cycle
  exact (around n).exists_of_le (Nat.le_mul_of_pos_right n k.succ_pos)

/-- The search follows first fields. -/
theorem findPointer? (h : Leads k data mem last mem') (depth : Nat) :
    (Visualizer.findPointer? (k + depth) data).run mem = (Visualizer.findPointer? depth last).run mem' := by
  -- each first field on the way takes one from the depth
  induction h with
  | here => rw [Nat.zero_add]
  | @step k data mem next mem₁ last mem' descends _ ih =>
    obtain ⟨name, names, mem₂, named, field⟩ := descends.first
    rw [Nat.add_right_comm, Visualizer.findPointer?, descends.present, if_neg Bool.false_ne_true,
      if_neg descends.other, StateT.run_bind, named, ← ih]
    exact congrArg (fun found : TypedData × Memory σ =>
      (Visualizer.findPointer? (k + depth) found.1).run found.2) field

/-- What is within five first fields is looked at. -/
theorem findPointer?_of_le (h : Leads k data mem last mem') (near : k ≤ 5) :
    ∃ depth, (Visualizer.findPointer? maxPointerDepth data).run mem =
      (Visualizer.findPointer? (depth + 1) last).run mem' := by
  obtain ⟨depth, five⟩ := Nat.exists_eq_add_of_le near
  have depth_eq : maxPointerDepth = k + (depth + 1) := congrArg (· + 1) five
  exact ⟨depth, depth_eq ▸ h.findPointer? (depth + 1)⟩

end Leads

/-- What has a kind of type is not absent. -/
theorem isNone_of_tag {data : TypedData} (tag : data.tag ≠ .null) : data.isNone = false := by
  rw [TypedData.isNone, beq_false_of_ne tag]
  exact Bool.and_false _

/-- A pointer is found at once. -/
theorem findPointer?_of_pointer {data : TypedData} (pointer : data.tag = .pointer) (depth : Nat)
    (mem : Memory σ) : (findPointer? (depth + 1) data).run mem = (some data, mem) := by
  rw [findPointer?, isNone_of_tag (pointer ▸ by decide), if_neg Bool.false_ne_true, if_pos pointer]
  rfl

/-- Nothing is found behind a value that has no first field. -/
theorem findPointer?_of_stuck {data : TypedData} {mem : Memory σ} (stuck : Stuck data mem) (depth : Nat) :
    ((findPointer? (depth + 1) data).run mem).1 = none := by
  rw [findPointer?]
  rcases stuck with absent | ⟨other, bare⟩
  · rw [if_pos absent]
    rfl
  · split
    · rfl
    · rw [StateT.run_bind]
      generalize (Memory.fieldNames data).run mem = named at bare ⊢
      obtain ⟨names, mem₁⟩ := named
      obtain rfl : names = [] := bare
      rfl

/-- A search without success: the values come to an end before there is a pointer, there are too many in front
of it, or they lead back to themselves. -/
inductive Fruitless (data : TypedData) (mem : Memory σ) : Prop
  | broken {k last mem'} : k ≤ 5 → Leads k data mem last mem' → Stuck last mem' → Fruitless data mem
  | long {last mem'} : Leads 6 data mem last mem' → Fruitless data mem
  | cyclic {j k next mem'} : Leads j data mem next mem' → Leads (k + 1) next mem' next mem' →
      Fruitless data mem

/-- A fruitless value leads to no pointer within the depth of the search. -/
theorem Fruitless.findPointer? {data : TypedData} {mem : Memory σ} (h : Fruitless data mem) :
    ((Visualizer.findPointer? maxPointerDepth data).run mem).1 = none := by
  -- behind six first fields there is no depth left
  have far : ∀ {last : TypedData} {mem' : Memory σ}, Leads 6 data mem last mem' →
      ((Visualizer.findPointer? maxPointerDepth data).run mem).1 = none := fun leads =>
    congrArg Prod.fst (leads.findPointer? 0)
  cases h with
  | @broken k last mem' near leads stuck =>
    obtain ⟨depth, search⟩ := leads.findPointer?_of_le near
    rw [search]
    exact findPointer?_of_stuck stuck depth
  | long leads => exact far leads
  | @cyclic j k next mem' leads cycle =>
    -- six times around is far enough, wherever the values begin to repeat
    obtain ⟨last, mem', around⟩ := cycle.exists_of_cycle 6
    obtain ⟨last, mem', leads⟩ := (leads.trans around).exists_of_le (Nat.le_add_left 6 j)
    exact far leads

/-- Of the values that the search looks at, one is a pointer, or it has nothing to go on with, or there is one
more behind them. -/
theorem exists_pointer_or_stuck (depth : Nat) (data : TypedData) (mem : Memory σ) :
    (∃ k < depth, ∃ last mem', Leads k data mem last mem' ∧ (last.tag = .pointer ∨ Stuck last mem')) ∨
      ∃ last mem', Leads depth data mem last mem' := by
  -- on the depth: one level is used up by each first field
  induction depth generalizing data mem with
  | zero => exact .inr ⟨data, mem, .here⟩
  | succ depth ih =>
    -- a value that is no pointer, and is not stuck either, leads to its first field
    by_cases pointer : data.tag = .pointer
    · exact .inl ⟨0, depth.succ_pos, data, mem, .here, .inl pointer⟩
    by_cases stuck : Stuck data mem
    · exact .inl ⟨0, depth.succ_pos, data, mem, .here, .inr stuck⟩
    obtain ⟨present, named⟩ := not_or.1 stuck
    cases names : ((Memory.fieldNames data).run mem).1 with
    | nil => exact absurd ⟨pointer, names⟩ named
    | cons name names' =>
      have descends : Descends data mem _ _ :=
        ⟨eq_false_of_ne_true present, pointer, name, names', _, Prod.ext names rfl, rfl⟩
      rcases ih _ _ with ⟨k, near, last, mem', leads, found⟩ | ⟨last, mem', leads⟩
      · exact .inl ⟨k + 1, Nat.succ_lt_succ near, last, mem', .step descends leads, found⟩
      · exact .inr ⟨last, mem', .step descends leads⟩

/-! ## Vectors, slices and arrays -/

omit [DataSpaces σ] in
/-- Looking runs the computation and succeeds with its result. -/
theorem run_look {α : Type} {m : MemoryM σ α} {a : α} {mem mem' : Memory σ} (done : m.run mem = (a, mem')) :
    (look m).run.run mem = (.ok a, mem') :=
  congrArg (fun found : α × Memory σ => (Except.ok found.1, found.2)) done

omit [DataSpaces σ] in
/-- Decoding goes on from what was decoded. -/
theorem run_bind_of_ok {α β : Type} {m : VisualM σ α} {k : α → VisualM σ β} {a : α} {mem mem' : Memory σ}
    (done : m.run.run mem = (.ok a, mem')) : (m >>= k).run.run mem = (k a).run.run mem' := by
  rw [ExceptT.run_bind, StateT.run_bind, done]
  rfl

/-- A field can be reached. -/
def Reaches (data : TypedData) (name : String) (mem : Memory σ) (field : TypedData) (mem' : Memory σ) : Prop :=
  (Memory.field data name).run mem = (field, mem') ∧ field.isNone = false

/-- A field that is reached is found. -/
theorem Reaches.requiredField {data field : TypedData} {name : String} {mem mem' : Memory σ}
    (h : Reaches data name mem field mem') :
    (Visualizer.requiredField data name).run.run mem = (.ok field, mem') := by
  rw [Visualizer.requiredField, run_bind_of_ok (run_look h.1), h.2]
  rfl

/-- The size of an array over the size of an element, as far as that is known. -/
theorem run_arrayLength {array element : TypedData} {mem mem' : Memory σ}
    (h : (Memory.dereference array).run mem = (element, mem')) : (arrayLength array).run mem =
      (if element.size = 0 then 0 else array.size.toNat / element.size.toNat, mem') := by
  rw [arrayLength, StateT.run_bind, h]
  -- both sides branch on the same test
  by_cases unknown : element.size = 0
  · rw [if_pos unknown]
    exact congrArg (fun m : MemoryM σ Nat => m.run mem') (if_pos unknown)
  · rw [if_neg unknown, ← UInt32.toNat_div]
    exact congrArg (fun m : MemoryM σ Nat => m.run mem') (if_neg unknown)

/-- What a visualizer takes for the storage of the elements of a value, their number, how the value is shown,
and the state in which the elements are asked for. -/
inductive Stores (v : NamedValue) (mem : Memory σ) :
    Visualizer σ → (base : TypedData) → (n : Nat) → Rendering → Memory σ → Prop
  | vector {length buffer pointer mem₁ mem₂ mem' k} : Reaches v.data "len" mem length mem₁ →
      Reaches v.data "buf" mem₁ buffer mem₂ → Leads k buffer mem₂ pointer mem' → pointer.tag = .pointer →
      k ≤ 5 → Stores v mem .vector pointer length.word.toNat
        ⟨"Vec" ++ vectorParameters v.typeName ++ " [" ++ toString length.word.toNat ++ "]",
          0 < length.word.toNat⟩ mem'
  | slice {length pointer mem₁ mem'} : Reaches v.data "length" mem length mem₁ →
      Reaches v.data "data_ptr" mem₁ pointer mem' → Stores v mem .slice pointer length.word.toNat
        ⟨v.typeName ++ " [" ++ toString length.word.toNat ++ "]", 0 < length.word.toNat⟩ mem'
  | array {element mem' n} : v.data.tag = .array → (Memory.dereference v.data).run mem = (element, mem') →
      n = (if element.size = 0 then 0 else v.data.size.toNat / element.size.toNat) →
      Stores v mem .structural v.data n ⟨v.typeName, 0 < n⟩ mem'

namespace Stores

variable {v : NamedValue} {mem mem₁ : Memory σ} {z : Visualizer σ} {base : TypedData} {n : Nat}
  {shown : Rendering}

/-- A value that stores elements is rendered with their number. -/
theorem render (h : Stores v mem z base n shown mem₁) :
    ∃ mem₂, (z.render v).run.run mem = (.ok shown, mem₂) := by
  cases h with
  | vector length buffer leads pointer near => exact ⟨_, run_bind_of_ok length.requiredField⟩
  | slice length pointer => exact ⟨_, run_bind_of_ok length.requiredField⟩
  | array tag element number =>
    refine ⟨mem₁, ?_⟩
    rw [structural]
    dsimp only
    rw [renderStructure, isNone_of_tag (tag ▸ by decide), tag]
    subst number
    exact run_bind_of_ok (run_look (run_arrayLength element))

/-- A value that stores elements has these as its children. -/
theorem children (h : Stores v mem z base n shown mem₁) :
    base.isNone = false ∧ (z.children v).run.run mem = (look (elements base n)).run.run mem₁ := by
  cases h with
  | vector length buffer leads pointer near =>
    refine ⟨isNone_of_tag (pointer ▸ by decide), ?_⟩
    obtain ⟨depth, search⟩ := leads.findPointer?_of_le near
    rw [findPointer?_of_pointer pointer] at search
    -- each step of the visualizer is one premise of the case
    rw [Visualizer.vector]
    dsimp only
    rw [vectorElements, run_bind_of_ok length.requiredField, run_bind_of_ok buffer.requiredField,
      run_bind_of_ok (run_look search)]
  | slice length pointer =>
    refine ⟨pointer.2, ?_⟩
    exact (run_bind_of_ok length.requiredField).trans (run_bind_of_ok pointer.requiredField)
  -- the number of elements follows from the sizes of the types
  | array tag element number =>
    refine ⟨isNone_of_tag (tag ▸ by decide), ?_⟩
    have listed : (do elements v.data (← arrayLength v.data) : MemoryM σ _).run mem =
        (elements v.data n).run mem₁ := by
      rw [StateT.run_bind, run_arrayLength element, ← number]
      rfl
    rw [structural]
    dsimp only
    rw [structureChildren, tag]
    exact (run_look listed).trans (run_look rfl).symm

end Stores

/-- Without a pointer to its elements a vector lists nothing. -/
theorem Fruitless.vectorElements {v : NamedValue} {length buffer : TypedData} {mem mem₁ mem₂ : Memory σ}
    (h : Fruitless buffer mem₂) (reached : Reaches v.data "len" mem length mem₁)
    (found : Reaches v.data "buf" mem₁ buffer mem₂) :
    ((vectorElements v).run.run mem).1 = .error (.fieldNotFound "buf.ptr") := by
  have search : (Visualizer.findPointer? maxPointerDepth buffer).run mem₂ = (none, _) :=
    Prod.ext h.findPointer? rfl
  rw [Visualizer.vectorElements, run_bind_of_ok reached.requiredField, run_bind_of_ok found.requiredField,
    run_bind_of_ok (run_look search)]
  rfl

/-- A search for a pointer finds one within five first fields, or it has no success. -/
theorem exists_pointer_or_fruitless (buffer : TypedData) (mem : Memory σ) :
    (∃ k ≤ 5, ∃ pointer mem', Leads k buffer mem pointer mem' ∧ pointer.tag = .pointer) ∨
      Fruitless buffer mem := by
  rcases exists_pointer_or_stuck 6 buffer mem with ⟨k, near, last, mem', leads, pointer | stuck⟩ | ⟨_, _, far⟩
  · exact .inl ⟨k, Nat.le_of_lt_succ near, last, mem', leads, pointer⟩
  · exact .inr (.broken (Nat.le_of_lt_succ near) leads stuck)
  · exact .inr (.long far)

/-- A vector, a slice or an array is shown with the number of its elements, and its children are those
elements in order, but no more than ten thousand. The elements of a vector are stored where the first pointer
points that is within five first fields of its buffer; without one, the vector has no children. -/
theorem children_of_stores (v : NamedValue) (mem : Memory σ) :
    (∀ z base n shown mem₁, Stores v mem z base n shown mem₁ →
      (∃ mem₂, (z.render v).run.run mem = (.ok shown, mem₂)) ∧
      ∃ children mem₂, (z.children v).run.run mem = (.ok children, mem₂) ∧
        Lists base (min n 10000) mem₁ children mem₂) ∧
    ∀ length buffer mem₁ mem₂, Reaches v.data "len" mem length mem₁ → Reaches v.data "buf" mem₁ buffer mem₂ →
      ((∃ k ≤ 5, ∃ pointer mem', Leads k buffer mem₂ pointer mem' ∧ pointer.tag = .pointer) ∨
        Fruitless buffer mem₂) ∧
      (Fruitless buffer mem₂ →
        ((vector.children v).run.run mem).1 = .error (.fieldNotFound "buf.ptr")) := by
  refine ⟨fun z base n shown mem₁ stores => ⟨stores.render, ?_⟩, fun length buffer mem₁ mem₂ reached found =>
    ⟨exists_pointer_or_fruitless buffer mem₂, fun fruitless => fruitless.vectorElements reached found⟩⟩
  obtain ⟨present, listed⟩ := stores.children
  exact ⟨_, _, listed.trans (run_look rfl), lists_elements present n mem₁⟩

end Visualizer

namespace Scripted

/-- A debuggee with a vector of three numbers, the last of which cannot be read, and with a vector whose buffer
leads back to itself. -/
def vectorsWorld : World where
  types := [
    (1, { name := some "alloc::vec::Vec<i32>", size := 24, tag := some .record
          fields := [("buf", { typeId := 2 }), ("len", { typeId := 5, displacement := 16 })] }),
    (2, { name := some "RawVec", size := 16, tag := some .record, fields := [("ptr", { typeId := 3 })] }),
    (3, { name := some "Unique", size := 8, tag := some .record, fields := [("pointer", { typeId := 4 })] }),
    (4, { name := some "i32 *", size := 8, tag := some .pointer
          element := some { typeId := 6 }, elementCount := some 2 }),
    (5, { name := some "u64", size := 8, tag := some .base }),
    (6, { name := some "i32", size := 4, tag := some .base }),
    (7, { name := some "alloc::vec::Vec<i32>", size := 24, tag := some .record
          fields := [("buf", { typeId := 8 }), ("len", { typeId := 5, displacement := 16 })] }),
    (8, { name := some "Loop", size := 16, tag := some .record, fields := [("again", { typeId := 8 })] })]
  memory := [⟨0x100, #[0, 0x40, 0, 0, 0, 0, 0, 0, 4, 0, 0, 0, 0, 0, 0, 0, 3, 0, 0, 0, 0, 0, 0, 0]⟩,
    ⟨0x4000, #[10, 0, 0, 0, 20, 0, 0, 0]⟩]

/-- The memory of the debuggee. Looking at fields leaves no trace in it. -/
def vectorsMemory : Memory World where
  engine := vectorsWorld

/-- A vector of the debuggee, by its type. -/
def vectorValue (typeId : UInt32) : NamedValue where
  name := "v"
  typeName := "alloc::vec::Vec<i32>"
  data := ⟨0x140000000, 0x100, typeId, 24, .record, 0x4000⟩

/-- The number of elements of both vectors. -/
def vectorLength : TypedData :=
  ⟨0x140000000, 0x110, 5, 8, .base, 3⟩

/-- A wrapper around the pointer of a vector. -/
def bufferWrapper (typeId size : UInt32) : TypedData :=
  ⟨0x140000000, 0x100, typeId, size, .record, 0x4000⟩

/-- The pointer of the first vector. -/
def bufferPointer : TypedData :=
  ⟨0x140000000, 0x100, 4, 8, .pointer, 0x4000⟩

open Visualizer in
/-- An element that cannot be read is listed, and a buffer that leads back to itself is given up. -/
theorem vectorChildren_scripted :
    Stores (vectorValue 1) vectorsMemory .vector bufferPointer 3 ⟨"Vec<i32> [3]", true⟩ vectorsMemory ∧
    (∃ children mem, (vector.children (vectorValue 1)).run.run vectorsMemory = (.ok children, mem) ∧
      Lists bufferPointer (min 3 10000) vectorsMemory children mem ∧
      children.map (fun child => (child.name, child.data.word)) = [("[0]", 10), ("[1]", 20), ("[2]", 0)]) ∧
    ((vector.children (vectorValue 7)).run.run vectorsMemory).1 = .error (.fieldNotFound "buf.ptr") := by
  -- two wrappers around the pointer, and a record that is its own first field
  have first : Descends (bufferWrapper 2 16) vectorsMemory (bufferWrapper 3 8) vectorsMemory :=
    ⟨rfl, by decide, "ptr", [], vectorsMemory, rfl, rfl⟩
  have second : Descends (bufferWrapper 3 8) vectorsMemory bufferPointer vectorsMemory :=
    ⟨rfl, by decide, "pointer", [], vectorsMemory, rfl, rfl⟩
  have again : Descends (bufferWrapper 8 16) vectorsMemory (bufferWrapper 8 16) vectorsMemory :=
    ⟨rfl, by decide, "again", [], vectorsMemory, rfl, rfl⟩
  have three : Reaches (vectorValue 1).data "len" vectorsMemory vectorLength vectorsMemory := ⟨rfl, rfl⟩
  have buffer : Reaches (vectorValue 1).data "buf" vectorsMemory (bufferWrapper 2 16) vectorsMemory :=
    ⟨rfl, rfl⟩
  have stores : Stores (vectorValue 1) vectorsMemory .vector bufferPointer 3 ⟨"Vec<i32> [3]", true⟩
      vectorsMemory := .vector three buffer (.step first (.step second .here)) rfl (by decide)
  obtain ⟨-, children, mem, run, lists⟩ :=
    (children_of_stores (vectorValue 1) vectorsMemory).1 _ _ _ _ _ stores
  -- the children are computed once, and compared with what the theorem says of them
  have listed : ((vector.children (vectorValue 1)).run.run vectorsMemory).1.toOption.map
      (·.map fun child => (child.name, child.data.word)) = some [("[0]", 10), ("[1]", 20), ("[2]", 0)] := by
    decide +kernel
  rw [run] at listed
  -- a record that wraps itself has no pointer within the bound
  have endless := ((children_of_stores (vectorValue 7) vectorsMemory).2 vectorLength (bufferWrapper 8 16)
    vectorsMemory vectorsMemory ⟨rfl, rfl⟩ ⟨rfl, rfl⟩).2 (.cyclic .here (.step again .here))
  exact ⟨stores, ⟨children, mem, run, lists, Option.some.inj listed⟩, endless⟩

end Scripted
end DebugAdapter
