import DebugAdapter.Proofs.HeaderBlocks
import DebugAdapter.Proofs.ListedVariants
import DebugAdapter.Proofs.PrefixRules

/-!
# Lines of a type definition

The definition of the marker's type is read line by line. A line with an equals sign and a number behind it
tells a name for a value, whatever blanks are around the two and whether the mark `0n` is in front of the
number; any other line tells nothing. Of the lines that tell a name for a value the last one counts.

Every text is made of such lines, so nothing is taken for granted of a definition.

## Key results

- `variantOfLine?_of_tells`, `tells_of_variantOfLine?`: what a line is read as, and when
- `exists_lists`: every definition is made of lines that tell a variant and lines that tell none
- `parseVariants_joinLines`: what is read of a definition
-/

namespace DebugAdapter

namespace Text

/-! ## Blanks around a text -/

/-- A text whose ends are not blank is not changed by trimming. -/
theorem trim_of_ends {s : List Char} (first : ∀ c ∈ s.head?, isBlank c = false)
    (last : ∀ c ∈ s.getLast?, isBlank c = false) : trim s = s := by
  have kept : ∀ {t : List Char}, (∀ c ∈ t.head?, isBlank c = false) → t.dropWhile isBlank = t := by
    intro t h
    cases t with
    | nil => rfl
    | cons c t => rw [List.dropWhile_cons_of_neg (by simp [h c rfl])]
  rw [trim, trimStart, trimEnd, kept first, kept (by simpa using last), List.reverse_reverse]

/-- Blanks around a text are gone after trimming. -/
theorem trim_surrounded {front s back : List Char} (before : ∀ c ∈ front, isBlank c = true)
    (behind : ∀ c ∈ back, isBlank c = true) : trim (front ++ s ++ back) = trim s := by
  rw [trim_append_blank behind, trim, trimStart_append_blank before, trim]

/-- Trimming takes blanks off both ends. -/
theorem exists_trim (s : List Char) : ∃ front back, s = front ++ trim s ++ back ∧
    (∀ c ∈ front, isBlank c = true) ∧ ∀ c ∈ back, isBlank c = true := by
  refine ⟨s.takeWhile isBlank, ((trimStart s).reverse.takeWhile isBlank).reverse, ?_, ?_, ?_⟩
  · have ended : trim s ++ ((trimStart s).reverse.takeWhile isBlank).reverse = trimStart s := by
      rw [trim, trimEnd, ← List.reverse_append, List.takeWhile_append_dropWhile, List.reverse_reverse]
    rw [List.append_assoc, ended, trimStart, List.takeWhile_append_dropWhile]
  · exact fun c mem => List.mem_takeWhile_imp mem
  · exact fun c mem => List.mem_takeWhile_imp (List.mem_reverse.1 mem)

/-- A trimmed text has nothing left to trim. -/
theorem trim_trim (s : List Char) : trim (trim s) = trim s := by
  obtain ⟨front, back, eq, before, behind⟩ := exists_trim s
  rw [← trim_surrounded before behind, ← eq]

/-! ## Cutting -/

/-- A text without the character is not split. -/
theorem splitFirst_of_not_mem {c : Char} {s : List Char} (h : c ∉ s) : splitFirst c s = none := by
  induction s with
  | nil => rfl
  | cons d s ih =>
    simp only [List.mem_cons, not_or] at h
    simp [splitFirst, Ne.symm h.1, ih h.2]

/-- Text without the separator comes to what stands after it. -/
theorem splitFirst_append_right {c : Char} {s t : List Char} (h : c ∉ t) :
    splitFirst c (s ++ t) = (splitFirst c s).map fun (before, after) => (before, after ++ t) := by
  induction s with
  | nil => simp [splitFirst_of_not_mem h, splitFirst]
  | cons d s ih =>
    rw [List.cons_append, splitFirst, splitFirst, ih]
    split
    · rfl
    · cases splitFirst c s <;> rfl

/-- A text without the character is its only part. -/
theorem splitAll_of_not_mem {c : Char} {s : List Char} (h : c ∉ s) : splitAll c s = [s] := by
  induction s with
  | nil => rfl
  | cons d s ih =>
    simp only [List.mem_cons, not_or] at h
    simp [splitAll, ih h.2, Ne.symm h.1]

/-- Parts without the separator are found again. -/
theorem splitAll_intercalate {c : Char} {parts : List (List Char)} (some_part : parts ≠ [])
    (h : ∀ part ∈ parts, c ∉ part) : splitAll c ([c].intercalate parts) = parts := by
  induction parts with
  | nil => exact absurd rfl some_part
  | cons part parts ih =>
    have first := splitAll_of_not_mem (h part List.mem_cons_self)
    cases parts with
    | nil => simpa using first
    | cons next parts =>
      rw [List.intercalate_cons_cons, List.append_assoc, List.singleton_append, splitAll_append_cons,
        first, ih (by simp) fun part mem => h part (List.mem_cons_of_mem _ mem)]
      rfl

/-- Every text is made of parts without the separator. -/
theorem exists_intercalate (c : Char) (s : List Char) :
    ∃ parts, [c].intercalate parts = s ∧ ∀ part ∈ parts, c ∉ part := by
  -- induction on the text, from its end
  induction s with
  | nil => exact ⟨[], rfl, by simp⟩
  | cons d s ih =>
    obtain ⟨parts, rfl, apart⟩ := ih
    by_cases cut : d = c
    · -- an empty part comes in front, and a text of no parts is one of an empty part
      subst cut
      cases parts with
      | nil => exact ⟨[[], []], by simp [List.intercalate_cons_cons], by simp⟩
      | cons part parts =>
        exact ⟨[] :: part :: parts, by simp [List.intercalate_cons_cons], by simpa using apart⟩
    · cases parts with
      | nil => exact ⟨[[d]], by simp, by simpa using Ne.symm cut⟩
      | cons part parts =>
        refine ⟨(d :: part) :: parts, ?_, by simpa [Ne.symm cut] using apart⟩
        cases parts <;> simp [List.intercalate_cons_cons]

/-! ## Numerals -/

/-- A digit or a plus sign. -/
theorem Numeral.mem {text : List Char} {n : Nat} (h : Numeral text n) {c : Char} (mem : c ∈ text) :
    c = '+' ∨ c.isDigit = true := by
  obtain ⟨sign, digits, rfl, signed, -, are_digits, -, -⟩ := h
  rcases List.mem_append.1 mem with mem | mem
  · rcases signed with rfl | rfl
    · cases mem
    · exact .inl (List.mem_singleton.1 mem)
  · exact .inr (are_digits c mem)

/-- A number has no blanks. -/
theorem Numeral.not_blank {text : List Char} {n : Nat} (h : Numeral text n) :
    ∀ c ∈ text, isBlank c = false := by
  intro c mem
  rcases h.mem mem with rfl | digit
  · rfl
  · exact not_blank_of_isDigit digit

/-- A number has at least one digit. -/
theorem Numeral.ne_nil {text : List Char} {n : Nat} (h : Numeral text n) : text ≠ [] := by
  obtain ⟨sign, digits, rfl, -, some_digit, -⟩ := h
  simp [some_digit]

/-- What is read as digits has nothing but digits, and their value. -/
theorem digits_of_readDigits {bound acc n : Nat} {excess : NumberError} {s : List Char}
    (read : readDigits bound excess acc s = .ok n) :
    (∀ c ∈ s, c.isDigit = true) ∧ Nat.ofDigitChars 10 s acc = n := by
  -- induction on the digits: each one is put behind the value of those before it
  induction s generalizing acc with
  | nil => exact ⟨by simp, by simpa [readDigits] using read⟩
  | cons c s ih =>
    cases value : digitValue? c with
    | none => simp [readDigits, value] at read
    | some d =>
      simp only [digitValue?, Option.ite_none_right_eq_some, Option.some.injEq] at value
      obtain ⟨range, rfl⟩ := value
      have digit : c.isDigit = true := by
        simp only [Char.isDigit, Bool.and_eq_true, decide_eq_true_eq]
        exact range
      simp only [readDigits, digitValue?, range, and_self, if_true] at read
      split at read
      · obtain ⟨digits, value⟩ := ih read
        refine ⟨by simpa [digit] using digits, ?_⟩
        rw [Nat.ofDigitChars_cons, Nat.mul_comm]
        exact value
      · cases read

/-- Only numerals are read. -/
theorem Numeral.of_readNat {text : List Char} {n : Nat} (read : Text.readNat (UInt64.size - 1) text = .ok n) :
    Numeral text n := by
  have le {digits : List Char} (h : readDigits (UInt64.size - 1) .tooLarge 0 digits = .ok n) :
      n < UInt64.size := by
    have := readDigits_le (Nat.zero_le _) h
    have : 0 < UInt64.size := by decide
    omega
  unfold Text.readNat at read
  -- an empty text and a lone plus sign are no numbers; a plus sign may stand in front of one
  split at read
  · cases read
  · cases read
  · rename_i digits some_digit
    obtain ⟨are_digits, value⟩ := digits_of_readDigits read
    refine ⟨['+'], digits, rfl, .inr rfl, ?_, are_digits, value, le read⟩
    rintro rfl
    exact some_digit rfl
  · rename_i some_char _ _
    obtain ⟨are_digits, value⟩ := digits_of_readDigits read
    exact ⟨[], text, rfl, .inl rfl, some_char, are_digits, value, le read⟩

end Text

namespace Visualizer

open Text

/-! ## What a line tells -/

/-- The text tells a number. Blanks are around it, and it may have the mark `0n`. -/
def TellsNumber (text : List Char) (value : UInt64) : Prop :=
  ∃ front mark between numeral back, text = front ++ (mark ++ between ++ numeral) ++ back ∧
    (∀ c ∈ front ++ between ++ back, isBlank c = true) ∧ (mark = [] ∨ mark = ['0', 'n']) ∧
    Numeral numeral value.toNat

/-- The line tells a name for a value. Blanks are around the name, and a number is behind the first equals
sign. -/
def TellsVariant (line : List Char) (value : UInt64) (name : String) : Prop :=
  ∃ front back after, line = front ++ name.toList ++ back ++ '=' :: after ∧
    (∀ c ∈ front ++ back, isBlank c = true) ∧ IsVariantName name ∧ TellsNumber after value

/-- The line has no equals sign, or no number behind the first one. -/
def IsOtherLine (line : List Char) : Prop :=
  ∀ before after, line = before ++ '=' :: after → '=' ∉ before → ∀ value, ¬TellsNumber after value

/-- What is read behind an equals sign. -/
private def numberAfter (after : List Char) : Except NumberError UInt64 :=
  readUInt64 (trim (match trim after with
    | '0' :: 'n' :: digits => digits
    | digits => digits))

/-- A line is read as a name before the equals sign and a number after it. -/
private theorem variantOfLine?_eq_bind (line : List Char) :
    variantOfLine? line = (splitFirst '=' line).bind fun (name, after) =>
      (numberAfter after).toOption.bind fun value => some (value, String.ofList (trim name)) :=
  rfl

/-- What is read as a number is exactly a numeral with its value. -/
private theorem readUInt64_eq_ok_iff {digits : List Char} {value : UInt64} :
    readUInt64 digits = .ok value ↔ Numeral digits value.toNat := by
  -- a value that is read fits, and so it is not wrapped
  constructor
  · intro read
    rw [readUInt64] at read
    cases number : readNat (UInt64.size - 1) digits with
    | error e =>
      rw [number] at read
      cases read
    | ok n =>
      simp only [number, Except.map, Except.ok.injEq] at read
      subst read
      have numeral := Numeral.of_readNat number
      obtain ⟨-, -, -, -, -, -, -, fits⟩ := id numeral
      rwa [UInt64.toNat_ofNat_of_lt' fits]
  · intro numeral
    rw [readUInt64, numeral.readNat]
    exact congrArg Except.ok value.ofNat_toNat

/-- A number is read behind an equals sign if, and only if, it is told there. -/
private theorem numberAfter_eq_ok_iff {after : List Char} {value : UInt64} :
    numberAfter after = .ok value ↔ TellsNumber after value := by
  rw [numberAfter, readUInt64_eq_ok_iff]
  -- what is read is trimmed twice, around the mark and behind it
  constructor
  · intro numeral
    obtain ⟨front, back, eq, before, behind⟩ := exists_trim after
    split at numeral
    · -- blanks may be behind the mark; there are none at the end, where the text was trimmed
      rename_i digits marked
      obtain ⟨between, rest, split, blank, rest_blank⟩ := exists_trim digits
      refine ⟨front, ['0', 'n'], between, trim digits, rest ++ back, ?_, by grind, .inr rfl, numeral⟩
      rw [eq, marked]
      nth_rewrite 1 [split]
      simp
    · refine ⟨front, [], [], trim (trim after), back, ?_, by grind, .inl rfl, numeral⟩
      rw [trim_trim]
      simpa using eq
  · rintro ⟨front, mark, between, numeral, back, rfl, blanks, marked, number⟩
    have trimmed : trim numeral = numeral := trim_of_forall_not_blank number.not_blank
    rcases marked with rfl | rfl
    · -- without a mark there are only blanks in front of the number
      have outer : trim (front ++ ([] ++ between ++ numeral) ++ back) = numeral := by
        rw [List.nil_append, ← List.append_assoc, trim_surrounded (by grind) (by grind), trimmed]
      have unmarked : ∀ digits, numeral ≠ '0' :: 'n' :: digits := by
        rintro digits rfl
        rcases number.mem (c := 'n') (by simp) with h | h
        · cases h
        · cases h
      rw [outer]
      split
      · exact absurd rfl (unmarked _)
      · rwa [trimmed]
    · -- with a mark, the outer trimming leaves it in front, and the inner one takes the blanks behind it
      have inner : trim (['0', 'n'] ++ between ++ numeral) = ['0', 'n'] ++ between ++ numeral := by
        refine trim_of_ends (fun c first => ?_) (fun c last => ?_)
        · cases first
          rfl
        · rw [List.getLast?_append_of_ne_nil _ number.ne_nil] at last
          exact number.not_blank c (List.mem_of_getLast? last)
      have digits : trim (between ++ numeral) = numeral := by
        have leading : ∀ c ∈ between, isBlank c = true := by grind
        rw [trim, trimStart_append_blank leading, ← trim, trimmed]
      rw [trim_surrounded (by grind) (by grind), inner]
      simpa [digits] using number

/-- A line that tells a name for a value is read as it. -/
theorem variantOfLine?_of_tells {line : List Char} {value : UInt64} {name : String}
    (tells : TellsVariant line value name) : variantOfLine? line = some (value, name) := by
  obtain ⟨front, back, after, rfl, blanks, named, number⟩ := tells
  have unsplit : '=' ∉ front ++ name.toList ++ back := by
    have sign : isBlank '=' = false := by decide
    have named := named.unsplit
    grind
  have trimmed : trim (front ++ name.toList ++ back) = name.toList := by
    rw [trim_surrounded (by grind) (by grind), named.trimmed]
  rw [variantOfLine?_eq_bind, splitFirst_append unsplit]
  simp only [Option.bind_some, numberAfter_eq_ok_iff.2 number, trimmed, Except.toOption,
    String.ofList_toList]

/-- A line that is read as a name and a value tells the name for the value. -/
theorem tells_of_variantOfLine? {line : List Char} {value : UInt64} {name : String}
    (read : variantOfLine? line = some (value, name)) : TellsVariant line value name := by
  rw [variantOfLine?_eq_bind] at read
  -- a line without an equals sign is not read at all
  cases split : splitFirst '=' line with
  | none => simp [split] at read
  | some parts =>
    obtain ⟨before, after⟩ := parts
    cases number : numberAfter after with
    | error e => simp [split, number, Except.toOption] at read
    | ok n =>
      simp only [split, number, Except.toOption, Option.bind_some, Option.some.injEq,
        Prod.mk.injEq] at read
      obtain ⟨rfl, rfl⟩ := read
      obtain ⟨front, back, eq, before_blank, behind_blank⟩ := exists_trim before
      have unsplit := not_mem_of_splitFirst split
      refine ⟨front, back, after, ?_, by grind, ⟨?_, ?_⟩, numberAfter_eq_ok_iff.1 number⟩
      · rw [String.toList_ofList, ← eq, eq_of_splitFirst split]
      · rw [String.toList_ofList, trim_trim]
      · rw [String.toList_ofList]
        grind

/-- Another line is passed over. -/
theorem variantOfLine?_other {line : List Char} (other : IsOtherLine line) : variantOfLine? line = none := by
  rw [Option.eq_none_iff_forall_ne_some]
  rintro ⟨value, name⟩ read
  obtain ⟨front, back, after, eq, blanks, named, number⟩ := tells_of_variantOfLine? read
  refine other _ after eq ?_ value number
  have sign : isBlank '=' = false := by decide
  have named := named.unsplit
  grind

/-- A line that is passed over is another line. -/
theorem isOtherLine_of_variantOfLine? {line : List Char} (read : variantOfLine? line = none) :
    IsOtherLine line := by
  rintro before after rfl unsplit value number
  rw [variantOfLine?_eq_bind, splitFirst_append unsplit] at read
  simp [numberAfter_eq_ok_iff.2 number, Except.toOption] at read

/-! ## Cutting a definition into lines -/

/-- Blanks at the end of a line are not seen. -/
theorem variantOfLine?_append_blank {line back : List Char} (behind : ∀ c ∈ back, isBlank c = true) :
    variantOfLine? (line ++ back) = variantOfLine? line := by
  have unsplit : '=' ∉ back := fun mem => absurd (behind '=' mem) (by decide)
  rw [variantOfLine?_eq_bind, variantOfLine?_eq_bind, splitFirst_append_right unsplit]
  cases splitFirst '=' line with
  | none => rfl
  | some parts => simp only [Option.map_some, Option.bind_some, numberAfter, trim_append_blank behind]

/-- A carriage return is a blank. -/
private theorem isBlank_return : ∀ c ∈ ['\r'], isBlank c = true := by
  simp [isBlank]

/-- What the lines tell is found by cutting at line feeds alone. -/
theorem filterMap_lines (s : List Char) :
    (lines s).filterMap variantOfLine? = (splitAll '\n' s).filterMap variantOfLine? := by
  have returned (line : List Char) : variantOfLine? (dropReturn line) = variantOfLine? line := by
    rw [dropReturn]
    split
    · rename_i last
      have eq := List.dropLast_append_getLast? '\r' last
      nth_rewrite 2 [← eq]
      exact (variantOfLine?_append_blank isBlank_return).symm
    · rfl
  have cut := List.dropLast_concat_getLast (splitAll_ne_nil '\n' s)
  have last := List.getLast?_eq_some_getLast (splitAll_ne_nil '\n' s)
  rw [← cut]
  simp only [lines, last, Option.getD_some, List.filterMap_append, List.filterMap_map]
  congr 1
  · exact List.filterMap_congr fun line _ => returned line
  · -- the last line is left out if it is empty, and lists nothing then
    split
    · rename_i empty
      rw [List.isEmpty_iff.1 empty]
      rfl
    · rfl

/-- A line of a definition. It has a line feed at its end unless it is the last one, and may have a carriage
return there. -/
structure DefinitionLine where
  text : List Char
  returned : Bool := false

/-- The line without its line feed. -/
def DefinitionLine.written (line : DefinitionLine) : List Char :=
  if line.returned then line.text ++ ['\r'] else line.text

/-- The text that is made of lines. If the last line is empty, a line feed is at the end of the text. -/
def joinLines (lines : List DefinitionLine) : String :=
  String.ofList (['\n'].intercalate (lines.map DefinitionLine.written))

/-- The lines tell the names for the values, in this order. Other lines may be anywhere among them. -/
inductive ListsVariants : List DefinitionLine → List (UInt64 × String) → Prop
  | nil : ListsVariants [] []
  | variant {line : DefinitionLine} {value : UInt64} {name : String} {rest : List DefinitionLine}
      {listed : List (UInt64 × String)} (one_line : '\n' ∉ line.text)
      (tells : TellsVariant line.text value name) :
      ListsVariants rest listed → ListsVariants (line :: rest) ((value, name) :: listed)
  | other {line : DefinitionLine} {rest : List DefinitionLine} {listed : List (UInt64 × String)}
      (one_line : '\n' ∉ line.text) (other : IsOtherLine line.text) :
      ListsVariants rest listed → ListsVariants (line :: rest) listed

/-- A line tells the same with and without its carriage return. -/
theorem variantOfLine?_written (line : DefinitionLine) :
    variantOfLine? line.written = variantOfLine? line.text := by
  rw [DefinitionLine.written]
  split
  · exact variantOfLine?_append_blank isBlank_return
  · rfl

/-- What lines tell is what is read of them. -/
theorem ListsVariants.filterMap_written {lines : List DefinitionLine} {listed : List (UInt64 × String)}
    (h : ListsVariants lines listed) : (lines.map DefinitionLine.written).filterMap variantOfLine? = listed := by
  induction h with
  | nil => rfl
  | variant _ tells _ ih =>
    rw [List.map_cons, List.filterMap_cons, variantOfLine?_written, variantOfLine?_of_tells tells, ih]
  | other _ other _ ih =>
    rw [List.map_cons, List.filterMap_cons, variantOfLine?_written, variantOfLine?_other other, ih]

/-- No line has a line break within. -/
theorem ListsVariants.one_line {lines : List DefinitionLine} {listed : List (UInt64 × String)}
    (h : ListsVariants lines listed) : ∀ line ∈ lines.map DefinitionLine.written, '\n' ∉ line := by
  have written {line : DefinitionLine} (one_line : '\n' ∉ line.text) : '\n' ∉ line.written := by
    rw [DefinitionLine.written]
    split <;> simp [one_line]
  induction h with
  | nil => simp
  | variant one_line _ _ ih => simpa [written one_line] using ih
  | other one_line _ _ ih => simpa [written one_line] using ih

/-- Lines are passed over or put under their values one after the other. -/
theorem ListsVariants.parseVariants_eq {lines : List DefinitionLine} {listed : List (UInt64 × String)}
    (h : ListsVariants lines listed) : parseVariants (joinLines lines) =
      listed.foldl (fun variants (value, name) => putVariant value name variants) [] := by
  rw [parseVariants, filterMap_lines, joinLines, String.toList_ofList]
  cases lines with
  | nil =>
    cases h
    rfl
  | cons line rest =>
    rw [splitAll_intercalate (by simp) h.one_line, h.filterMap_written]

/-- Every definition is made of lines that tell a name for a value and lines that tell none. -/
theorem exists_lists (definition : String) :
    ∃ lines listed, joinLines lines = definition ∧ ListsVariants lines listed := by
  obtain ⟨parts, joined, one_line⟩ := exists_intercalate '\n' definition.toList
  suffices ∃ listed, ListsVariants (parts.map fun part => ⟨part, false⟩) listed by
    obtain ⟨listed, h⟩ := this
    refine ⟨_, listed, ?_, h⟩
    have written : (fun part : List Char => DefinitionLine.written ⟨part, false⟩) = id := by
      funext part
      simp [DefinitionLine.written]
    rw [joinLines, List.map_map, Function.comp_def, written, List.map_id, joined, String.ofList_toList]
  clear joined
  -- induction on the lines: each one lists a variant or is another line
  induction parts with
  | nil => exact ⟨[], .nil⟩
  | cons part parts ih =>
    obtain ⟨listed, h⟩ := ih fun part mem => one_line part (List.mem_cons_of_mem _ mem)
    have first := one_line part List.mem_cons_self
    cases read : variantOfLine? part with
    | none => exact ⟨listed, .other first (isOtherLine_of_variantOfLine? read) h⟩
    | some variant => exact ⟨variant :: listed, .variant first (tells_of_variantOfLine? read) h⟩

/-! ## The last line for a value -/

/-- Putting a variant adds no other value. -/
theorem mem_putVariant {value v : UInt64} {name n : String} {variants : List (UInt64 × String)}
    (mem : (v, n) ∈ putVariant value name variants) : v = value ∨ (v, n) ∈ variants := by
  induction variants with
  | nil => simp_all [putVariant]
  | cons variant rest ih =>
    simp only [putVariant] at mem
    grind

/-- Values are kept in order, each once. -/
theorem pairwise_putVariant {value : UInt64} {name : String} {variants : List (UInt64 × String)}
    (sorted : variants.Pairwise fun a b => a.1 < b.1) :
    (putVariant value name variants).Pairwise fun a b => a.1 < b.1 := by
  -- induction on the list: put before, put in the place of, or put further on
  induction variants with
  | nil => simp [putVariant]
  | cons variant rest ih =>
    rw [List.pairwise_cons] at sorted
    simp only [putVariant]
    split
    · rename_i less
      refine List.pairwise_cons.2 ⟨fun other mem => ?_, List.pairwise_cons.2 sorted⟩
      rcases List.mem_cons.1 mem with rfl | mem
      · exact less
      · exact UInt64.lt_trans less (sorted.1 other mem)
    · split
      · rename_i same
        exact List.pairwise_cons.2 ⟨fun other mem => same ▸ sorted.1 other mem, sorted.2⟩
      · refine List.pairwise_cons.2 ⟨fun other mem => ?_, ih sorted.2⟩
        rcases mem_putVariant mem with eq | mem
        · rw [eq]
          grind
        · exact sorted.1 other mem

/-- Variants that are put one after the other stay sorted by value. -/
theorem pairwise_foldl_putVariant (listed : List (UInt64 × String)) {variants : List (UInt64 × String)}
    (sorted : variants.Pairwise fun a b => a.1 < b.1) :
    (listed.foldl (fun variants (value, name) => putVariant value name variants) variants).Pairwise
      fun a b => a.1 < b.1 := by
  induction listed generalizing variants with
  | nil => exact sorted
  | cons variant listed ih => exact ih (pairwise_putVariant sorted)

/-- Where each value is once, a name is under a value if, and only if, it is found for it. -/
theorem mem_iff_find? {variants : List (UInt64 × String)}
    (sorted : variants.Pairwise fun a b => a.1 < b.1) {value : UInt64} {name : String} :
    (value, name) ∈ variants ↔ variants.find? (·.1.toNat == value.toNat) = some (value, name) := by
  constructor
  · intro mem
    induction sorted with
    | nil => cases mem
    | cons less _ ih =>
      rcases List.mem_cons.1 mem with rfl | mem
      · simp
      · have apart := UInt64.ne_of_lt (less _ mem)
        rw [List.find?_cons_of_neg (by simpa [UInt64.toNat_inj] using apart)]
        exact ih mem
  · exact List.mem_of_find?_eq_some

/-- What is read of a definition, whatever lines it is made of: each value that is told, in ascending order,
with the name on the last line that tells one for it. Other lines may be put in or left out anywhere. -/
theorem parseVariants_joinLines {lines : List DefinitionLine} {listed : List (UInt64 × String)}
    (h : ListsVariants lines listed) :
    (parseVariants (joinLines lines)).Pairwise (fun a b => a.1 < b.1) ∧
    (∀ value name, (value, name) ∈ parseVariants (joinLines lines) ↔
      ∃ earlier later, listed = earlier ++ (value, name) :: later ∧ ∀ other, (value, other) ∉ later) ∧
    ∀ lines', ListsVariants lines' listed →
      parseVariants (joinLines lines') = parseVariants (joinLines lines) := by
  have sorted := pairwise_foldl_putVariant listed List.Pairwise.nil
  rw [h.parseVariants_eq]
  refine ⟨sorted, fun value name => ?_, fun lines' h' => h'.parseVariants_eq⟩
  -- the last line is the first one from the end
  rw [mem_iff_find? sorted, find?_foldl_putVariant, List.find?_nil, Option.or_none,
    List.find?_eq_some_iff_append]
  constructor
  · rintro ⟨-, later, earlier, eq, none⟩
    refine ⟨earlier.reverse, later.reverse, by simpa using congrArg List.reverse eq, fun other mem => ?_⟩
    simpa using none _ (List.mem_reverse.1 mem)
  · rintro ⟨earlier, later, rfl, none⟩
    refine ⟨by simp, later.reverse, earlier.reverse, by simp, fun other mem => ?_⟩
    have apart : other.1 ≠ value := by
      rintro rfl
      exact none other.2 (List.mem_reverse.1 mem)
    simpa [UInt64.toNat_inj] using apart

/-- Three lines that tell a variant, two of them for the same value, and three others. -/
def mixedLines : List DefinitionLine :=
  [⟨"None = 0n0".toList, true⟩, ⟨"garbage line".toList, true⟩, ⟨" Some\t=0n 1 ".toList, false⟩,
    ⟨"Other = 0nxyz".toList, false⟩, ⟨"Rest= 1".toList, true⟩, ⟨[], false⟩]

/-- The lines that tell a variant, written in another way. -/
def plainLines : List DefinitionLine :=
  [⟨"None = 0n0".toList, false⟩, ⟨"Some = 0n1".toList, false⟩, ⟨"Rest = 0n1".toList, false⟩]

/-- The later name of the two is read, with the other lines and without them. -/
theorem parseVariants_mixedLines :
    joinLines mixedLines = "None = 0n0\r\ngarbage line\r\n Some\t=0n 1 \nOther = 0nxyz\nRest= 1\r\n" ∧
    joinLines plainLines = "None = 0n0\nSome = 0n1\nRest = 0n1" ∧
    ListsVariants mixedLines [(0, "None"), (1, "Some"), (1, "Rest")] ∧
    ListsVariants plainLines [(0, "None"), (1, "Some"), (1, "Rest")] ∧
    (1, "Rest") ∈ parseVariants (joinLines mixedLines) ∧
    (1, "Some") ∉ parseVariants (joinLines mixedLines) ∧
    parseVariants (joinLines plainLines) = parseVariants (joinLines mixedLines) := by
  -- each line is classified by what is computed for it alone
  have mixed : ListsVariants mixedLines [(0, "None"), (1, "Some"), (1, "Rest")] :=
    .variant (by decide) (tells_of_variantOfLine? (by decide +kernel)) <|
      .other (by decide) (isOtherLine_of_variantOfLine? (by decide +kernel)) <|
      .variant (by decide) (tells_of_variantOfLine? (by decide +kernel)) <|
      .other (by decide) (isOtherLine_of_variantOfLine? (by decide +kernel)) <|
      .variant (by decide) (tells_of_variantOfLine? (by decide +kernel)) <|
      .other (by decide) (isOtherLine_of_variantOfLine? (by decide +kernel)) .nil
  have plain : ListsVariants plainLines [(0, "None"), (1, "Some"), (1, "Rest")] :=
    .variant (by decide) (tells_of_variantOfLine? (by decide +kernel)) <|
      .variant (by decide) (tells_of_variantOfLine? (by decide +kernel)) <|
      .variant (by decide) (tells_of_variantOfLine? (by decide +kernel)) .nil
  obtain ⟨-, read, same⟩ := parseVariants_joinLines mixed
  refine ⟨by decide +kernel, by decide +kernel, mixed, plain, ?_, by decide +kernel, same _ plain⟩
  exact (read 1 "Rest").2 ⟨[(0, "None"), (1, "Some")], [], rfl, by simp⟩

end Visualizer

end DebugAdapter
