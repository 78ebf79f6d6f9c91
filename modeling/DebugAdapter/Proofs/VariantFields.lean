import DebugAdapter.Visualizer.Registry
import DebugAdapter.Scripted.Engine
import Mathlib.Data.List.Lemmas
import Mathlib.Order.Monotone.Basic

/-!
# The fields of a variant

The fields of a tagged enum stand behind markers: those of the first variant behind the first marker, and
so on. A field is told by its place among the names, for a name may occur in several variants. The fields of
a discriminant are those that have one marker more in front than the discriminant says
(`variantPlaces`). So no field belongs to two discriminants, and all fields behind the first marker belong
to one.

## Key results

- `variantFields_eq`: the fields that are listed are those at the places of the variant
- `partitions_variantPlaces`: the variants part the fields behind the first marker
- `taggedChildren_at_places`: what is listed for a tagged enum
-/

namespace DebugAdapter

namespace Visualizer

/-! ## Markers -/

/-- A text starts with some letters, whatever their case. -/
theorem startsWithLetters_iff {start name : String} : startsWithLetters start name = true ↔
    ∃ letters rest, name.toList = letters ++ rest ∧
      letters.map Char.toLower = start.toList.map Char.toLower := by
  rw [startsWithLetters, Text.sameLetters, beq_iff_eq]
  constructor
  · intro same
    exact ⟨_, _, (List.take_append_drop start.toList.length name.toList).symm, same.symm⟩
  · rintro ⟨letters, rest, split, same⟩
    have length : letters.length = start.toList.length := by
      simpa only [List.length_map] using congrArg List.length same
    rw [split, ← length, List.take_left, same]

/-- A tag marker is a name that begins with the letters of the prefix, in any case. -/
theorem isTagMarker_iff {name : String} : isTagMarker name = true ↔
    ∃ letters rest, name.toList = letters ++ rest ∧
      letters.map Char.toLower = "rust$enum$".toList := by
  have lower : "RUST$ENUM$".toList.map Char.toLower = "rust$enum$".toList := by decide +kernel
  rw [isTagMarker, startsWithLetters_iff, lower]

/-- The marker of an enum without discriminant is not taken for one of an enum with discriminant. -/
theorem isTagMarker_of_isNicheMarker {name : String} (niche : isNicheMarker name = true) :
    isTagMarker name = false := by
  rw [← Bool.not_eq_true]
  intro tag
  obtain ⟨letters, rest, split, same⟩ := isTagMarker_iff.1 tag
  obtain ⟨letters', rest', split', same'⟩ := startsWithLetters_iff.1 niche
  have start := congrArg (fun s => (s.map Char.toLower).take 8) (split.symm.trans split')
  simp only [List.map_append, same, same'] at start
  have tagStart : ∀ r : List Char, ("rust$enum$".toList ++ r).take 8 = "rust$enu".toList := fun r => rfl
  have nicheStart : ∀ r : List Char,
      ("RUST$ENCODED$ENUM$".toList.map Char.toLower ++ r).take 8 = "rust$enc".toList := fun r => rfl
  rw [tagStart, nicheStart] at start
  exact absurd start (by decide)

/-! ## Places -/

/-- At a place among names there is a field, and no marker. -/
def isFieldAt (names : List String) (i : Nat) : Bool :=
  (names[i]?).any (!isTagMarker ·)

/-- The number of markers in front of a place. -/
def markersBefore (names : List String) (i : Nat) : Nat :=
  (names.take i).countP isTagMarker

/-- The places of the fields with `n` markers in front. -/
def fieldPlaces (names : List String) (n : Nat) : List Nat :=
  (List.range names.length).filter fun i => isFieldAt names i && markersBefore names i == n

/-- The places of the fields of the variant with discriminant `d`. -/
def variantPlaces (names : List String) (d : Nat) : List Nat :=
  fieldPlaces names (d + 1)

/-- The names at some places. -/
def namesAt (names : List String) (places : List Nat) : List String :=
  places.filterMap (names[·]?)

variable {names rest : List String} {name : String} {n d i : Nat}

/-- Further on there are no fewer markers before. -/
theorem markersBefore_mono : Monotone (markersBefore names) :=
  fun _ _ le => (List.take_sublist_take_left le).countP_le

/-- There are no more markers before a place than in all. -/
theorem markersBefore_le : markersBefore names i ≤ names.countP isTagMarker :=
  (List.take_sublist i names).countP_le

/-- The places of fields behind `n` markers are those with `n` markers before them. -/
theorem mem_fieldPlaces : i ∈ fieldPlaces names n ↔ isFieldAt names i = true ∧ markersBefore names i = n := by
  have range : isFieldAt names i = true → i < names.length := by
    intro field
    by_contra beyond
    rw [isFieldAt, List.getElem?_eq_none (Nat.le_of_not_lt beyond)] at field
    exact Bool.noConfusion field
  rw [fieldPlaces, List.mem_filter, List.mem_range, Bool.and_eq_true, beq_iff_eq]
  exact ⟨And.right, fun h => ⟨range h.1, h⟩⟩

/-- The places behind a name are those among the rest, each moved by one. -/
theorem fieldPlaces_cons : fieldPlaces (name :: rest) n =
    (if isTagMarker name = false ∧ n = 0 then [0] else []) ++
      (if isTagMarker name then
        match n with
        | 0 => []
        | n + 1 => fieldPlaces rest n
      else fieldPlaces rest n).map Nat.succ := by
  -- the first place is a field behind no marker, and the later ones are those of the rest, moved by one
  have first : (isFieldAt (name :: rest) 0 && markersBefore (name :: rest) 0 == n) =
      decide (isTagMarker name = false ∧ n = 0) := by
    cases h : isTagMarker name <;> cases n <;> simp [isFieldAt, markersBefore, h]
  have later : ∀ i, markersBefore (name :: rest) (i + 1) =
      markersBefore rest i + if isTagMarker name then 1 else 0 := fun i => by
    rw [markersBefore, List.take_succ_cons, List.countP_cons]
    rfl
  -- one place further, the marker in front counts as well
  have next : (fun i => isFieldAt (name :: rest) i && markersBefore (name :: rest) i == n) ∘ Nat.succ =
      fun i => isFieldAt rest i && (markersBefore rest i + if isTagMarker name then 1 else 0) == n := by
    funext i
    rw [Function.comp_apply, Nat.succ_eq_add_one, later]
    rfl
  rw [fieldPlaces, List.length_cons, List.range_succ_eq_map, List.filter_cons, first, List.filter_map, next]
  cases marker : isTagMarker name with
  | false => cases n <;> simp [fieldPlaces]
  | true => cases n <;> simp [fieldPlaces]

/-- Behind one more name, the names at places that are moved by one are the same. -/
theorem namesAt_map_succ (places : List Nat) :
    namesAt (name :: rest) (places.map Nat.succ) = namesAt rest places := by
  rw [namesAt, List.filterMap_map]
  rfl

/-- The fields in front of the first marker. -/
theorem takeWhile_eq_namesAt (names : List String) :
    names.takeWhile (!isTagMarker ·) = namesAt names (fieldPlaces names 0) := by
  induction names with
  | nil => rfl
  | cons name rest ih =>
    have first : ∀ places, namesAt (name :: rest) (0 :: places) = name :: namesAt (name :: rest) places :=
      fun places => List.filterMap_cons_some rfl
    rw [fieldPlaces_cons]
    cases marker : isTagMarker name with
    | true => simp [marker, namesAt]
    | false => simp [marker, ih, first, namesAt_map_succ]

/-- The fields of a variant are those at its places. -/
theorem variantFields_eq (d : Nat) (names : List String) :
    variantFields d names = namesAt names (variantPlaces names d) := by
  unfold variantPlaces
  induction names generalizing d with
  | nil => cases d <;> rfl
  | cons name rest ih =>
    rw [fieldPlaces_cons]
    cases marker : isTagMarker name with
    | false => simp [variantFields, marker, namesAt_map_succ, ih]
    | true =>
      cases d with
      | zero => simp [variantFields, marker, namesAt_map_succ, takeWhile_eq_namesAt]
      | succ d => simp [variantFields, marker, namesAt_map_succ, ih]

/-! ## Variants -/

/-- At a place among names there is a marker. -/
def isMarkerAt (names : List String) (i : Nat) : Bool :=
  (names[i]?).any isTagMarker

/-- Going past a marker adds one to the markers before. -/
theorem markersBefore_succ (names : List String) (i : Nat) :
    markersBefore names (i + 1) = markersBefore names i + if isMarkerAt names i then 1 else 0 := by
  rw [markersBefore, List.take_add_one, List.countP_append, isMarkerAt]
  cases names[i]? with
  | none => rfl
  | some name => rw [Option.toList_some, List.countP_singleton]; rfl

/-- The last marker in front of a place is the one with a number less by one than there are. -/
theorem markersBefore_eq_succ_iff : markersBefore names i = d + 1 ↔
    ∃ m < i, isMarkerAt names m = true ∧ markersBefore names m = d ∧
      ∀ j, m < j → j < i → isMarkerAt names j = false := by
  -- on the place: the last marker before it is the one that counts
  induction i with
  | zero => simp [markersBefore]
  | succ i ih =>
    rw [markersBefore_succ]
    cases here : isMarkerAt names i with
    | true =>
      simp only [if_true, Nat.add_right_cancel_iff]
      constructor
      · intro count
        exact ⟨i, Nat.lt_succ_self i, here, count, fun j lt lt' => absurd lt' (Nat.not_lt.2 lt)⟩
      · rintro ⟨m, lt, -, count, none⟩
        -- no marker is behind the last one
        have last : m = i := by
          by_contra other
          have marker := none i (by omega) (Nat.lt_succ_self i)
          rw [here] at marker
          cases marker
        rwa [← last]
    | false =>
      simp only [Bool.false_eq_true, if_false, Nat.add_zero, ih]
      constructor
      · -- the last marker is not here, so it is the same one
        rintro ⟨m, lt, marker, count, none⟩
        refine ⟨m, Nat.lt_succ_of_lt lt, marker, count, fun j lt lt' => ?_⟩
        rcases Nat.lt_succ_iff_lt_or_eq.1 lt' with lt' | rfl
        · exact none j lt lt'
        · exact here
      · rintro ⟨m, lt, marker, count, none⟩
        have other : m ≠ i := by
          rintro rfl
          rw [here] at marker
          cases marker
        exact ⟨m, by omega, marker, count, fun j lt lt' => none j lt (Nat.lt_succ_of_lt lt')⟩

/-- Places for each discriminant part the fields of a tagged enum: those of a discriminant are the fields
behind the marker of that number, counted from zero, and in front of the next. -/
structure PartsFields (names : List String) (places : Nat → List Nat) : Prop where
  mem_iff : ∀ d i, i ∈ places d ↔ isFieldAt names i = true ∧ ∃ m < i, isMarkerAt names m = true ∧
    markersBefore names m = d ∧ ∀ j, m < j → j < i → isMarkerAt names j = false
  ordered : ∀ d, (places d).Pairwise (· < ·)
  nil_of_le : ∀ d, names.countP isTagMarker ≤ d → places d = []
  disjoint : ∀ d d', d ≠ d' → (places d).Disjoint (places d')
  front : ∀ i, markersBefore names i = 0 → ∀ d, i ∉ places d
  flatMap_eq : ∀ n, names.countP isTagMarker ≤ n → (List.range n).flatMap places =
    (List.range names.length).filter fun i => isFieldAt names i && decide (0 < markersBefore names i)

/-- In a list that is sorted by a number, those with a number follow those with less. -/
private theorem filter_lt_append_filter_eq {α : Type} {f : α → Nat} {l : List α}
    (sorted : l.Pairwise (f · ≤ f ·)) (n : Nat) :
    l.filter (f · < n) ++ l.filter (f · == n) = l.filter (f · < n + 1) := by
  -- on the sorted list, by where its first element stands to `n`
  induction l with
  | nil => rfl
  | cons a l ih =>
    rw [List.pairwise_cons] at sorted
    have rest := ih sorted.2
    rcases Nat.lt_trichotomy (f a) n with less | same | more
    · have le : f a < n + 1 := Nat.lt_succ_of_lt less
      have ne : ¬(f a == n) = true := fun same => Nat.ne_of_lt less (eq_of_beq same)
      rw [List.filter_cons, List.filter_cons, List.filter_cons, if_pos (decide_eq_true less), if_neg ne,
        if_pos (decide_eq_true le), List.cons_append, rest]
    · -- nothing behind has less
      have none : l.filter (f · < n) = [] := by
        refine List.filter_eq_nil_iff.2 fun b mem less => ?_
        have le := sorted.1 b mem
        rw [decide_eq_true_eq] at less
        omega
      rw [none, List.nil_append] at rest
      simp [same, none, rest]
    · have ge : ¬decide (f a < n + 1) = true := fun less => by
        rw [decide_eq_true_eq] at less
        omega
      have le : ¬decide (f a < n) = true := fun less => Nat.lt_asymm more (of_decide_eq_true less)
      have ne : ¬(f a == n) = true := fun same => Nat.ne_of_gt more (eq_of_beq same)
      rw [List.filter_cons, List.filter_cons, List.filter_cons, if_neg le, if_neg ne, if_neg ge, rest]

/-- What is sorted by a number is put together from the parts with each number. -/
private theorem flatMap_filter_eq {α : Type} {f : α → Nat} {l : List α}
    (sorted : l.Pairwise (f · ≤ f ·)) (n : Nat) :
    ((List.range n).flatMap fun k => l.filter (f · == k)) = l.filter (f · < n) := by
  induction n with
  | zero => simp
  | succ n ih =>
    rw [List.range_succ, List.flatMap_append, ih, List.flatMap_singleton]
    exact filter_lt_append_filter_eq sorted n

/-- The variants part the fields behind the first marker. -/
theorem partsFields_variantPlaces (names : List String) : PartsFields names (variantPlaces names) where
  -- all parts of the statement are read off the number of markers before a place
  mem_iff d i := by rw [variantPlaces, mem_fieldPlaces, markersBefore_eq_succ_iff]
  ordered d := List.pairwise_lt_range.filter _
  nil_of_le d few := by
    refine List.eq_nil_iff_forall_not_mem.2 fun i mem => ?_
    have count := (mem_fieldPlaces.1 mem).2
    have le : markersBefore names i ≤ names.countP isTagMarker := markersBefore_le
    omega
  disjoint d d' other := by
    intro i mem mem'
    have count := (mem_fieldPlaces.1 mem).2
    have count' := (mem_fieldPlaces.1 mem').2
    omega
  front i none d mem := by
    have count := (mem_fieldPlaces.1 mem).2
    omega
  flatMap_eq n few := by
    let l := (List.range names.length).filter fun i => isFieldAt names i && decide (0 < markersBefore names i)
    -- the fields behind the first marker, by the number of markers before them
    have sorted : l.Pairwise fun i j => markersBefore names i - 1 ≤ markersBefore names j - 1 := by
      refine (List.pairwise_lt_range.filter _).imp fun lt => ?_
      exact Nat.sub_le_sub_right (markersBefore_mono (Nat.le_of_lt lt)) 1
    have parts := flatMap_filter_eq sorted n
    -- with as many variants as there are markers, no field is left out
    have all : l.filter (fun i => markersBefore names i - 1 < n) = l := by
      refine List.filter_eq_self.2 fun i mem => ?_
      have le : markersBefore names i ≤ names.countP isTagMarker := markersBefore_le
      have behind := (List.mem_filter.1 mem).2
      rw [Bool.and_eq_true, decide_eq_true_eq] at behind
      rw [decide_eq_true_eq]
      omega
    refine Eq.trans (List.flatMap_congr fun d _ => ?_) (parts.trans all)
    rw [List.filter_filter, variantPlaces, fieldPlaces]
    refine List.filter_congr fun i _ => ?_
    rw [Bool.eq_iff_iff]
    simp only [Bool.and_eq_true, beq_iff_eq, decide_eq_true_eq]
    constructor
    · rintro ⟨field, count⟩
      exact ⟨by omega, field, by omega⟩
    · rintro ⟨count, field, behind⟩
      exact ⟨field, by omega⟩

/-! ## Listing -/

section

variable {σ : Type} [DataSpaces σ]

/-- The fields at some places of a value. -/
def fieldsAt (v : NamedValue) (names : List String) (places : List Nat) : MemoryM σ (List NamedValue) :=
  (namesAt names places).mapM fun name => do Memory.named name (← Memory.field v.data name)

/-- For a tagged enum the fields at the places of its discriminant are listed, whatever their names are. The
places of all discriminants part the fields behind the first marker. -/
theorem taggedChildren_at_places {v : NamedValue} {mem : Memory σ} {d : UInt8} {names : List String}
    (read : ((discriminant v.data).run.run mem).1 = .ok d)
    (named : ((Memory.fieldNames v.data).run ((discriminant v.data).run.run mem).2).1 = names) :
    (taggedEnum.children v).run.run mem =
        (look (fieldsAt v names (variantPlaces names d.toNat))).run.run
          ((Memory.fieldNames v.data).run ((discriminant v.data).run.run mem).2).2 ∧
      PartsFields names (variantPlaces names) ∧
      (∀ name, isTagMarker name = true ↔ ∃ letters rest, name.toList = letters ++ rest ∧
        letters.map Char.toLower = "rust$enum$".toList) ∧
      ∀ name, isNicheMarker name = true → isTagMarker name = false := by
  refine ⟨?_, partsFields_variantPlaces names, fun _ => isTagMarker_iff, fun _ => isTagMarker_of_isNicheMarker⟩
  subst named
  rw [fieldsAt, ← variantFields_eq]
  change (taggedChildren v).run.run mem = _
  -- the discriminant is read first, and then the names
  unfold taggedChildren
  cases answer : (discriminant v.data).run.run mem with
  | mk r mem₁ =>
    rw [answer] at read
    obtain rfl : r = .ok d := read
    rw [ExceptT.run_bind, StateT.run_bind, answer]
    rfl

end

end Visualizer

/-! ### An enum with two variants

Both variants have a field of the same name. One field is in front of all markers, and one is named like the
marker of an enum without discriminant. -/

namespace Scripted

/-- A world with an enum whose second variant is active. -/
def twoVariantsWorld : World where
  types := [
    (1, { name := some "E", size := 16, tag := some .record
          fields := [("head", { typeId := 90 }), ("RUST$ENUM$DISR$A", { typeId := 90 }),
            ("__0", { typeId := 91, displacement := 8 }), ("Rust$Enum$disr$B", { typeId := 90 }),
            ("RUST$ENCODED$ENUM$0$None", { typeId := 90 }),
            ("__0", { typeId := 91, displacement := 8 })] }),
    (90, { name := some "u8", size := 1, tag := some .base }),
    (91, { name := some "u64", size := 8, tag := some .base })]
  memory := [⟨0x100, #[1, 0, 0, 0, 0, 0, 0, 0, 7, 0, 0, 0, 0, 0, 0, 0]⟩]

/-- The enum. -/
def twoVariants : NamedValue where
  name := "e"
  typeName := "E"
  data := ⟨0x140000000, 0x100, 1, 16, .record, 0⟩

/-- The names of its fields. -/
def twoVariantsFields : List String :=
  ["head", "RUST$ENUM$DISR$A", "__0", "Rust$Enum$disr$B", "RUST$ENCODED$ENUM$0$None", "__0"]

open Visualizer in
/-- The fields of the second variant are listed, and the places are parted. -/
theorem taggedChildren_twoVariants :
    ((discriminant twoVariants.data).run.run { engine := twoVariantsWorld }).1 = .ok 1 ∧
      ((Memory.fieldNames twoVariants.data).run
        ((discriminant twoVariants.data).run.run { engine := twoVariantsWorld }).2).1 = twoVariantsFields ∧
      variantPlaces twoVariantsFields 1 = [4, 5] ∧
      (taggedEnum.children twoVariants).run.run { engine := twoVariantsWorld } =
        (look (fieldsAt twoVariants twoVariantsFields (variantPlaces twoVariantsFields 1))).run.run
          ((Memory.fieldNames twoVariants.data).run
            ((discriminant twoVariants.data).run.run { engine := twoVariantsWorld }).2).2 ∧
      PartsFields twoVariantsFields (variantPlaces twoVariantsFields) := by
  have read : ((discriminant twoVariants.data).run.run { engine := twoVariantsWorld }).1 = .ok 1 := by
    decide +kernel
  have named : ((Memory.fieldNames twoVariants.data).run
      ((discriminant twoVariants.data).run.run { engine := twoVariantsWorld }).2).1 = twoVariantsFields := by
    decide +kernel
  have listed := taggedChildren_at_places read named
  exact ⟨read, named, by decide +kernel, listed.1, listed.2.1⟩

end Scripted

end DebugAdapter
