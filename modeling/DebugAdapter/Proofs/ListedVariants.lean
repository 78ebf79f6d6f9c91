import DebugAdapter.Proofs.FallbackExpansion
import DebugAdapter.Proofs.FramingRoundTrip
import DebugAdapter.Proofs.VariantFields
import Mathlib.Data.List.Nodup

/-!
# Variants that a type definition lists

The definition of the type of the first marker lists the variants of a tagged enum, each with its value. An
enum is shown by the variant whose value its discriminant is. Its fields are found in another way: behind
the marker whose number the discriminant is. Both are of one variant if the variants are numbered in order
from zero. With other values the fields of another variant are listed.

## Key results

- `find?_parseVariants`: the name that is listed with a value
- `ReadsSame.tagged_variant`: what is shown and what is listed for a variant
- `Scripted.numberedFromOne_mixed`: an enum that is shown by one variant, with the fields of another
-/

namespace DebugAdapter

/-! ## Lines -/

namespace Text

/-- Blanks at the end of a text are gone after trimming. -/
theorem trim_append_blank {b s : List Char} (h : ∀ c ∈ b, isBlank c = true) : trim (s ++ b) = trim s := by
  have ended : ∀ s : List Char, trimEnd (s ++ b) = trimEnd s := by
    intro s
    have reversed : ∀ c ∈ b.reverse, isBlank c = true := fun c hc => h c (List.mem_reverse.1 hc)
    rw [trimEnd, trimEnd, List.reverse_append]
    exact congrArg List.reverse (trimStart_append_blank reversed)
  -- induction on what stands before the blanks: a blank at its start is dropped on both sides
  induction s with
  | nil =>
    have none : trimStart (b ++ []) = trimStart [] := trimStart_append_blank h
    rw [List.append_nil] at none
    rw [List.nil_append, trim, none, trim]
  | cons c s ih =>
    cases blank : isBlank c with
    | true => simpa [trim, trimStart, blank] using ih
    | false =>
      have kept : ∀ s, trimStart (c :: s) = c :: s := fun s => by simp [trimStart, blank]
      rw [List.cons_append, trim, trim, kept, kept, ← List.cons_append, ended]

/-- A digit is no blank. -/
theorem not_blank_of_isDigit {c : Char} (digit : c.isDigit = true) : isBlank c = false := by
  simp only [Char.isDigit, Bool.and_eq_true, decide_eq_true_eq, ge_iff_le, UInt32.le_iff_toNat_le] at digit
  have low : 48 ≤ c.toNat := digit.1
  have high : c.toNat ≤ 57 := digit.2
  simp only [isBlank, Bool.or_eq_false_iff, Bool.and_eq_false_iff, decide_eq_false_iff_not,
    beq_eq_false_iff_ne]
  omega

end Text

namespace Visualizer

/-- A name that a line can tell: it has no blanks at its ends, and no equals sign. -/
structure IsVariantName (name : String) : Prop where
  trimmed : Text.trim name.toList = name.toList
  unsplit : '=' ∉ name.toList

/-- The line for a variant with a value. -/
def variantLine (variant : String × UInt64) : List Char :=
  variant.1.toList ++ [' '] ++ '=' :: ' ' :: '0' :: 'n' :: Nat.toDigits 10 variant.2.toNat

/-- A number that is written in decimal has no blanks. -/
private theorem not_blank_of_digit {n : Nat} {c : Char} (h : c ∈ Nat.toDigits 10 n) :
    Text.isBlank c = false :=
  Text.not_blank_of_isDigit (Nat.isDigit_of_mem_toDigits (by decide) (by decide) h)

/-- The line that is written for a variant is read back as the variant. -/
theorem variantOfLine?_variantLine {name : String} (h : IsVariantName name) (value : UInt64) :
    variantOfLine? (variantLine (name, value)) = some (value, name) := by
  -- the name has no equals sign, so the line is split at the one that was written
  have split : Text.splitFirst '=' (variantLine (name, value)) =
      some (name.toList ++ [' '], ' ' :: '0' :: 'n' :: Nat.toDigits 10 value.toNat) := by
    refine Text.splitFirst_append ?_ _
    simp [h.unsplit]
  have blank : ∀ c ∈ [' '], Text.isBlank c = true := fun c mem => by
    rw [List.mem_singleton.1 mem]
    rfl
  have digits : Text.trim (Nat.toDigits 10 value.toNat) = Nat.toDigits 10 value.toNat :=
    Text.trim_of_forall_not_blank fun _ => not_blank_of_digit
  -- only the blank after the equals sign is trimmed, for the number has none
  have marked : Text.trim (' ' :: '0' :: 'n' :: Nat.toDigits 10 value.toNat) =
      '0' :: 'n' :: Nat.toDigits 10 value.toNat := by
    refine (congrArg Text.trimEnd (Text.trimStart_append_blank blank)).trans ?_
    refine Text.trim_of_forall_not_blank fun c mem => ?_
    rcases List.mem_cons.1 mem with rfl | mem
    · rfl
    · rcases List.mem_cons.1 mem with rfl | mem
      · rfl
      · exact not_blank_of_digit mem
  have named : Text.trim (name.toList ++ [' ']) = name.toList := by
    rw [Text.trim_append_blank blank, h.trimmed]
  -- the digits are those of a number that fits
  have number : Text.readUInt64 (Nat.toDigits 10 value.toNat) = .ok value := by
    have fits : value.toNat ≤ UInt64.size - 1 := Nat.le_sub_one_of_lt value.toNat_lt
    rw [Text.readUInt64, Text.readNat_toDigits fits]
    exact congrArg Except.ok value.ofNat_toNat
  rw [variantOfLine?, split]
  simp [marked, digits, number, named, Except.toOption]

/-! ## Values -/

/-- What is put into the list of variants is found by its value, and the others are found as before. -/
theorem find?_putVariant (value : UInt64) (name : String) (variants : List (UInt64 × String)) (n : Nat) :
    (putVariant value name variants).find? (·.1.toNat == n) =
      if value.toNat = n then some (value, name) else variants.find? (·.1.toNat == n) := by
  -- induction on the list, which is sorted by value: put before, put in the place of, or put further on
  induction variants with
  | nil => by_cases h : value.toNat = n <;> simp [putVariant, h]
  | cons variant rest ih =>
    rw [putVariant]
    by_cases less : value < variant.1
    · by_cases h : value.toNat = n <;> simp [less, h]
    · by_cases same : value = variant.1
      · subst same
        by_cases h : variant.1.toNat = n <;> simp [h]
      · rw [if_neg less, if_neg same, List.find?_cons, ih]
        by_cases h : value.toNat = n
        · have other : (variant.1.toNat == n) = false :=
            beq_false_of_ne fun h' => same (UInt64.toNat_inj.1 (h.trans h'.symm))
          simp [h, other]
        · simp [h, List.find?_cons]

/-- Of all variants that are put under values, the last one with a value is found. -/
theorem find?_foldl_putVariant (listed variants : List (UInt64 × String)) (n : Nat) :
    (listed.foldl (fun variants (value, name) => putVariant value name variants) variants).find?
        (·.1.toNat == n) =
      (listed.reverse.find? (·.1.toNat == n)).or (variants.find? (·.1.toNat == n)) := by
  induction listed generalizing variants with
  | nil => rfl
  | cons variant listed ih =>
    rw [List.foldl_cons, ih, find?_putVariant, List.reverse_cons, List.find?_append, Option.or_assoc]
    by_cases h : variant.1.toNat = n <;> simp [h]

/-- The name that is listed with a value is found, if each value is listed once. -/
theorem find?_parseVariants {definition : String} {variants : List (String × UInt64)}
    (defined : Text.lines definition.toList = variants.map variantLine)
    (names : ∀ variant ∈ variants, IsVariantName variant.1) (distinct : (variants.map (·.2)).Nodup)
    {name : String} {value : UInt64} (listed : (name, value) ∈ variants) :
    (parseVariants definition).find? (·.1.toNat == value.toNat) = some (value, name) := by
  have read : (Text.lines definition.toList).filterMap variantOfLine? = variants.map Prod.swap := by
    rw [defined, List.filterMap_map, ← List.filterMap_eq_map]
    exact List.filterMap_congr fun variant mem => variantOfLine?_variantLine (names variant mem) variant.2
  rw [parseVariants, read, find?_foldl_putVariant, List.find?_nil, Option.or_none]
  have there : (value, name) ∈ (variants.map Prod.swap).reverse :=
    List.mem_reverse.2 (List.mem_map_of_mem (f := Prod.swap) listed)
  cases found : (variants.map Prod.swap).reverse.find? (·.1.toNat == value.toNat) with
  | none => exact absurd (List.find?_eq_none.1 found _ there) (by simp)
  | some other =>
    -- the value is listed once
    have valued := List.find?_some found
    have same : other.1 = value := UInt64.toNat_inj.1 (beq_iff_eq.1 valued)
    obtain ⟨variant, mem, rfl⟩ := List.mem_map.1 (List.mem_reverse.1 (List.mem_of_find?_eq_some found))
    exact congrArg (some ∘ Prod.swap) (List.inj_on_of_nodup_map distinct mem listed same)

end Visualizer

/-! ## What is shown and what is listed -/

variable {σ : Type} [DataSpaces σ]

namespace ReadsSame

variable {P : σ → Prop} {size : UInt8} (same : ReadsSame P)
include same

/-- A value is named as asked, and keeps its data. -/
theorem finds_named (name : String) (data : TypedData) : Ensures (Memory.In P size)
    (Memory.named name data) fun child mem => (child.name, child.data) = (name, data) ∧ Memory.In P size mem :=
  fun mem hmem => ⟨rfl, same.readFrame.named name data mem hmem⟩

/-- Fields are listed under their names, as they are. -/
theorem finds_fields {data : TypedData} {mem : Memory σ} (here : Memory.In P size mem)
    (names : List String) : Ensures (Memory.In P size)
      (names.mapM fun name => do Memory.named name (← Memory.field data name)) fun children mem' =>
        children.map (fun child => (child.name, child.data)) =
          names.map (fun name => (name, ((Memory.field data name).run mem).1)) ∧ Memory.In P size mem' := by
  refine Ensures.mono (Ensures.mapM (P := fun done found mem' =>
    found.map (fun child => (child.name, child.data)) =
      done.map (fun name => (name, ((Memory.field data name).run mem).1)) ∧ Memory.In P size mem')
    (fun done found name => ?_) names) (fun _ h => ⟨rfl, h⟩) fun _ _ h => h
  rintro mem' ⟨before, h⟩
  have field : Finds (Memory.In P size) (Memory.field data name) ((Memory.field data name).run mem).1 :=
    (same.field data name).finds here rfl
  obtain ⟨child, after⟩ := (field.bindEq (same.finds_named name _)) mem' h
  rw [List.map_append, List.map_append, before]
  exact ⟨congrArg (_ ++ [·]) child, after⟩

/-- A tagged enum is shown by the variant that is listed with its discriminant for a value. What is listed
are the fields behind the marker whose number the discriminant is, which is the marker of that variant if
the variants are numbered in order from zero. -/
theorem tagged_variant {v : NamedValue} {mem : Memory σ} (here : Memory.In P size mem) {first : String}
    {rest : List String} (named : ((Memory.fieldNames v.data).run mem).1 = first :: rest)
    {definition : String}
    (typed : ((Memory.typeDefinition ((Memory.field v.data first).run mem).1).run mem).1 = definition)
    {variants : List (String × UInt64)}
    (defined : Text.lines definition.toList = variants.map Visualizer.variantLine)
    (names : ∀ variant ∈ variants, Visualizer.IsVariantName variant.1)
    (distinct : (variants.map (·.2)).Nodup) {d : UInt8}
    (read : ((Visualizer.discriminant v.data).run.run mem).1 = .ok d) {k : Nat} {name : String} {value : UInt64}
    (listed : variants[k]? = some (name, value)) (active : value.toNat = d.toNat) :
    ((Visualizer.taggedEnum.render v).run.run mem).1 = .ok ⟨v.typeName ++ "::" ++ name, true⟩ ∧
      (∃ children, ((Visualizer.taggedEnum.children v).run.run mem).1 = .ok children ∧
        children.map (fun child => (child.name, child.data)) =
          (Visualizer.variantFields d.toNat (first :: rest)).map
            fun name => (name, ((Memory.field v.data name).run mem).1)) ∧
      ((∀ (i : Nat) variant, variants[i]? = some variant → variant.2.toNat = i) → d.toNat = k) := by
  -- what was read once is read the same again
  have fieldNames : Finds (Memory.In P size) (Memory.fieldNames v.data) (first :: rest) :=
    (same.fieldNames v.data).finds here named
  have field : Finds (Memory.In P size) (Memory.field v.data first) _ :=
    (same.field v.data first).finds here rfl
  have definition' : Finds (Memory.In P size)
      (Memory.typeDefinition ((Memory.field v.data first).run mem).1) definition :=
    (same.typeDefinition _).finds here typed
  have discriminant : Finds (Memory.In P size) (Visualizer.discriminant v.data).run (.ok d) :=
    (same.discriminant v.data).finds here read
  refine ⟨?_, ?_, fun ordered => active.symm.trans (ordered k _ listed)⟩
  · -- the name is found by the discriminant in the list that the definition is parsed into
    have found := Visualizer.find?_parseVariants defined names distinct (List.mem_of_getElem? listed)
    rw [active] at found
    have shown : Ensures (Memory.In P size) (Visualizer.taggedEnum.render v).run fun r _ =>
        r = .ok ⟨v.typeName ++ "::" ++ name, true⟩ := by
      refine Ensures.bindLookEq fieldNames ?_
      refine Ensures.bindLookEq field ?_
      refine Ensures.bindLookEq definition' ?_
      refine Ensures.bindOk discriminant ?_
      rw [found]
      exact .pure fun _ _ => rfl
    exact shown mem here
  · -- the fields are found by the discriminant in the list of field names
    have listing := Ensures.bindEq (f := fun names => (Visualizer.variantFields d.toNat names).mapM
      fun name => do Memory.named name (← Memory.field v.data name)) fieldNames
      (same.finds_fields here (Visualizer.variantFields d.toNat (first :: rest)))
    have children : Ensures (Memory.In P size) (Visualizer.taggedEnum.children v).run fun r _ =>
        ∃ children, r = .ok children ∧ children.map (fun child => (child.name, child.data)) =
          (Visualizer.variantFields d.toNat (first :: rest)).map
            fun name => (name, ((Memory.field v.data name).run mem).1) := by
      refine Ensures.bindOk discriminant ?_
      exact fun mem' h => ⟨_, rfl, (listing mem' h).1⟩
    exact children mem here

end ReadsSame

/-! ### An enum whose variants are numbered from one -/

namespace Scripted

/-- A world with an enum whose first variant is active, which has the value 1. -/
def numberedFromOneWorld : World where
  types := [
    (1, { name := some "E", size := 16, tag := some .record
          fields := [("RUST$ENUM$DISR$A", { typeId := 2 }), ("a", { typeId := 91, displacement := 8 }),
            ("RUST$ENUM$DISR$B", { typeId := 2 }), ("b", { typeId := 91, displacement := 8 })] }),
    (2, { name := some "EKind", size := 1, tag := some .enumeration, definition := some "A = 0n1\nB = 0n2\n" }),
    (91, { name := some "u64", size := 8, tag := some .base })]
  memory := [⟨0x100, #[1, 0, 0, 0, 0, 0, 0, 0, 7, 0, 0, 0, 0, 0, 0, 0]⟩]

/-- The memory of that world. -/
def numberedFromOneMemory : Memory World where
  engine := numberedFromOneWorld

/-- The enum. -/
def numberedFromOne : NamedValue where
  name := "e"
  typeName := "E"
  data := ⟨0x140000000, 0x100, 1, 16, .record, 0⟩

/-- Its variants, as they are listed. -/
def numberedFromOneVariants : List (String × UInt64) :=
  [("A", 1), ("B", 2)]

/-- The enum has a marker and a field for each of its two variants. -/
private theorem named_numberedFromOne :
    ((Memory.fieldNames numberedFromOne.data).run numberedFromOneMemory).1 =
      ["RUST$ENUM$DISR$A", "a", "RUST$ENUM$DISR$B", "b"] := by
  decide +kernel

/-- The type of the first marker lists the two variants, numbered from one. -/
private theorem typed_numberedFromOne :
    ((Memory.typeDefinition ((Memory.field numberedFromOne.data "RUST$ENUM$DISR$A").run
      numberedFromOneMemory).1).run numberedFromOneMemory).1 = "A = 0n1\nB = 0n2\n" := by
  decide +kernel

/-- The text of that type is made of the lines written for the two variants. -/
private theorem lines_numberedFromOne :
    Text.lines "A = 0n1\nB = 0n2\n".toList = numberedFromOneVariants.map Visualizer.variantLine := by
  decide +kernel

/-- The discriminant that is read is that of the first variant. -/
private theorem read_numberedFromOne :
    ((Visualizer.discriminant numberedFromOne.data).run.run numberedFromOneMemory).1 = .ok 1 := by
  decide +kernel

/-- The variant with the value 1 is shown, and the fields behind marker number 1 are listed. -/
theorem tagged_variant_numberedFromOne :
    ((Visualizer.taggedEnum.render numberedFromOne).run.run numberedFromOneMemory).1 = .ok ⟨"E::A", true⟩ ∧
      ∃ children, ((Visualizer.taggedEnum.children numberedFromOne).run.run numberedFromOneMemory).1 =
        .ok children ∧ children.map (·.name) = ["b"] := by
  have here : Memory.In (World.At numberedFromOneWorld.essence) 8 numberedFromOneMemory :=
    ⟨World.at_essence _, rfl⟩
  have same : ReadsSame (World.At numberedFromOneWorld.essence) := World.steady.readsSame _
  have names : ∀ variant ∈ numberedFromOneVariants, Visualizer.IsVariantName variant.1 := by
    intro variant mem
    simp only [numberedFromOneVariants, List.mem_cons, List.not_mem_nil, or_false] at mem
    rcases mem with rfl | rfl
    · exact ⟨by decide +kernel, by decide +kernel⟩
    · exact ⟨by decide +kernel, by decide +kernel⟩
  obtain ⟨shown, ⟨children, given, fields⟩, -⟩ := same.tagged_variant here named_numberedFromOne
    typed_numberedFromOne lines_numberedFromOne names (by decide) read_numberedFromOne (k := 0) rfl (by decide)
  refine ⟨shown, children, given, ?_⟩
  -- the fields are those behind the second marker, though the variant is the first of the list
  have listed := congrArg (List.map Prod.fst) fields
  rw [List.map_map, List.map_map] at listed
  exact listed.trans (by decide +kernel)

/-- The enum is shown by its first variant, and a field of the second one is listed, although each marker has
its line, in order, and no two values are the same. -/
theorem numberedFromOne_mixed :
    (Visualizer.isTagMarker "RUST$ENUM$DISR$A" = true ∧
        ["RUST$ENUM$DISR$A", "a", "RUST$ENUM$DISR$B", "b"].countP Visualizer.isTagMarker =
          numberedFromOneVariants.length ∧ (numberedFromOneVariants.map (·.2)).Nodup ∧
        ((Memory.fieldNames numberedFromOne.data).run numberedFromOneMemory).1 =
          ["RUST$ENUM$DISR$A", "a", "RUST$ENUM$DISR$B", "b"] ∧
        Text.lines ((Memory.typeDefinition ((Memory.field numberedFromOne.data "RUST$ENUM$DISR$A").run
          numberedFromOneMemory).1).run numberedFromOneMemory).1.toList =
            numberedFromOneVariants.map Visualizer.variantLine ∧
        ((Visualizer.discriminant numberedFromOne.data).run.run numberedFromOneMemory).1 = .ok 1 ∧
        numberedFromOneVariants[0]? = some ("A", 1)) ∧
      ((Visualizer.taggedEnum.render numberedFromOne).run.run numberedFromOneMemory).1 = .ok ⟨"E::A", true⟩ ∧
      Visualizer.variantFields 0 ["RUST$ENUM$DISR$A", "a", "RUST$ENUM$DISR$B", "b"] = ["a"] ∧
      childNames ((Visualizer.taggedEnum.children numberedFromOne).run.run numberedFromOneMemory).1 =
        ["b"] := by
  refine ⟨⟨by decide +kernel, by decide +kernel, by decide, named_numberedFromOne, ?_,
    read_numberedFromOne, rfl⟩, by decide +kernel, by decide +kernel, by decide +kernel⟩
  rw [typed_numberedFromOne]
  exact lines_numberedFromOne

end Scripted

end DebugAdapter
