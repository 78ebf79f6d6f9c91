import DebugAdapter.Protocol.ErrorMessage
import DebugAdapter.SearchPath
import Mathlib.Data.List.TakeWhile

/-!
# Parts of a template

A template is cut from left to right into characters that stay and placeholders. Where a placeholder can be
read it is one, and what it is written as is not looked at again. This makes a template one list of parts and
no other (`Text.Reads.cut_unique`), whatever the values are, and its expansion is that list with the values in
the places of the placeholders (`Text.Reads.expandFrom_cut`). What a value holds is not read.

Error messages and search paths differ in what counts as a placeholder and in what is written for a name
that has no value.

## Key results

- `Text.readBetween_eq_some_iff`: what is read between an opening and a closing text
- `Text.Reads.exists_cut`, `Text.Reads.cut_unique`: every template has one list of parts
- `ErrorMessage.expand_cut`, `Environment.expand_cut`: expansions, part by part
-/

namespace DebugAdapter

namespace Text

/-! ## Placeholders -/

/-- A text that can be the name in a placeholder: word characters, at least one. -/
def IsName (words : WordClass) (name : String) : Prop :=
  name ≠ "" ∧ ∀ c ∈ name.toList, words.has c = true

instance (words : WordClass) (name : String) : Decidable (IsName words name) :=
  decidable_of_iff (name ≠ "" ∧ name.toList.all words.has = true) (by simp [IsName])

/-- The text does not begin with a word character. -/
def EndsWord (words : WordClass) (behind : List Char) : Prop :=
  ∀ c ∈ behind.head?, words.has c = false

variable {words : WordClass}

/-- A name ends in front of a character that is none of a word. -/
theorem endsWord_cons {c : Char} (other : words.has c = false) (behind : List Char) :
    EndsWord words (c :: behind) := by
  intro d first
  cases first
  exact other

/-- What counts as a placeholder: its name, the text it is written as, and the text behind it. -/
abbrev Placeholders := (name : String) → (written behind : List Char) → Prop

/-- Of a name and the text behind it, the word characters in front are the name. -/
theorem takeWhile_has {name behind : List Char} (made : ∀ c ∈ name, words.has c = true)
    (ends : EndsWord words behind) : (name ++ behind).takeWhile words.has = name := by
  rw [List.takeWhile_append_of_pos made]
  cases behind with
  | nil => simp
  | cons c behind => simp [ends c rfl]

/-- Behind the word characters in front of a text, a name ends. -/
theorem endsWord_dropWhile (s : List Char) : EndsWord words (s.dropWhile words.has) := by
  intro c first
  have := List.head?_dropWhile_not words.has s
  rw [Option.mem_def.1 first] at this
  simpa using this

/-- What is left of a text without the characters taken in front. -/
theorem drop_takeWhile (p : Char → Bool) (s : List Char) : s.drop (s.takeWhile p).length = s.dropWhile p := by
  have whole := List.takeWhile_append_dropWhile (p := p) (l := s)
  calc s.drop (s.takeWhile p).length
      = (s.takeWhile p ++ s.dropWhile p).drop (s.takeWhile p).length := by rw [whole]
    _ = s.dropWhile p := List.drop_left

/-- What is read between an opening and a closing text is the longest name there is. -/
theorem readBetween_eq_some_iff {opening closing s : List Char} {p : Placeholder} :
    readBetween words opening closing s = some p ↔ IsName words p.name ∧ ∃ behind,
      s = opening ++ p.name.toList ++ closing ++ behind ∧ EndsWord words (closing ++ behind) ∧
      p.size = (opening ++ p.name.toList ++ closing).length := by
  constructor
  · intro read
    unfold readBetween at read
    split at read
    · rename_i opened
      obtain ⟨rest, rfl⟩ := List.isPrefixOf_iff_prefix.1 opened
      -- the name is all of the longest run of word characters behind the opening
      simp only [List.drop_left, drop_takeWhile, Option.ite_none_right_eq_some, Bool.and_eq_true,
        Bool.not_eq_true', List.isEmpty_eq_false_iff, Option.some.injEq] at read
      obtain ⟨⟨some_word, closed⟩, rfl⟩ := read
      obtain ⟨behind, eq⟩ := List.isPrefixOf_iff_prefix.1 closed
      refine ⟨⟨?_, ?_⟩, behind, ?_, ?_, ?_⟩
      · simpa [← String.toList_inj] using some_word
      · rw [String.toList_ofList]
        exact fun c mem => List.mem_takeWhile_imp mem
      · rw [String.toList_ofList, List.append_assoc, List.append_assoc, eq, List.takeWhile_append_dropWhile]
      · rw [eq]
        exact endsWord_dropWhile rest
      · simp [Nat.add_assoc]
    · cases read
  · obtain ⟨name, size⟩ := p
    dsimp only
    rintro ⟨⟨some_word, made⟩, behind, rfl, ends, rfl⟩
    -- conversely, what is written is taken apart again
    have opened : opening.isPrefixOf (opening ++ name.toList ++ closing ++ behind) = true := by
      simp [List.isPrefixOf_iff_prefix]
    have rest : (opening ++ name.toList ++ closing ++ behind).drop opening.length =
        name.toList ++ (closing ++ behind) := by
      rw [List.append_assoc, List.append_assoc, List.drop_left, ← List.append_assoc]
    have some_char : name.toList.isEmpty = false := by simpa using some_word
    have closed : closing.isPrefixOf (closing ++ behind) = true := by
      simp [List.isPrefixOf_iff_prefix]
    rw [readBetween, if_pos opened, rest]
    dsimp only
    -- the name is read to its end, since no character of a word follows it
    rw [takeWhile_has made ends, List.drop_left, some_char, closed, String.ofList_toList]
    simp [Nat.add_assoc]

/-! ## Parts -/

/-- A part of a template: a character that stays, or a placeholder. -/
inductive Part
  | kept (c : Char)
  | hole (name : String) (written : List Char)

namespace Part

/-- The part as it is written in the template. -/
def written : Part → List Char
  | kept c => [c]
  | hole _ written => written

/-- The part with a value in the place of the placeholder. -/
def filled (value : (name : String) → (written : List Char) → List Char) : Part → List Char
  | kept c => [c]
  | hole name written => value name written

end Part

/-- The parts of a text, cut from left to right. A character stays only where no placeholder begins, and
the next part begins behind the placeholder. -/
inductive Cut (G : Placeholders) : List Char → List Part → Prop
  | nil : Cut G [] []
  | kept {c : Char} {rest : List Char} {parts : List Part}
      (free : ∀ name written behind, c :: rest = written ++ behind → ¬G name written behind) :
      Cut G rest parts → Cut G (c :: rest) (.kept c :: parts)
  | hole {name : String} {written behind : List Char} {parts : List Part} (here : G name written behind) :
      Cut G behind parts → Cut G (written ++ behind) (.hole name written :: parts)

/-- Parts are the text they are cut from. -/
theorem Cut.flatMap_written {G : Placeholders} {s : List Char} {parts : List Part} (cut : Cut G s parts) :
    parts.flatMap Part.written = s := by
  induction cut with
  | nil => rfl
  | kept _ _ ih => simp [Part.written, ih]
  | hole _ _ ih => simp [Part.written, ih]

/-- What the parts of a text can be. -/
theorem Cut.cases_on_parts {G : Placeholders} {s : List Char} {parts : List Part} (cut : Cut G s parts) :
    (s = [] ∧ parts = []) ∨
    (∃ c rest others, s = c :: rest ∧ parts = .kept c :: others ∧ Cut G rest others ∧
      ∀ name written behind, s = written ++ behind → ¬G name written behind) ∨
    ∃ name written behind others, s = written ++ behind ∧ parts = .hole name written :: others ∧
      Cut G behind others ∧ G name written behind := by
  cases cut with
  | nil => exact .inl ⟨rfl, rfl⟩
  | kept free rest => exact .inr (.inl ⟨_, _, _, rfl, rfl, rest, free⟩)
  | hole here rest => exact .inr (.inr ⟨_, _, _, _, rfl, rfl, rest, here⟩)

/-- The reader finds a placeholder where one begins, and no other one. -/
structure Reads (read : List Char → Option Placeholder) (G : Placeholders) : Prop where
  iff : ∀ {s p}, read s = some p ↔
    ∃ written behind, s = written ++ behind ∧ p.size = written.length ∧ G p.name written behind
  ne_nil : ∀ {name written behind}, G name written behind → written ≠ []

namespace Reads

variable {read : List Char → Option Placeholder} {G : Placeholders} (reads : Reads read G)
include reads

/-- A placeholder that stands in front is what the reader finds. -/
theorem read_hole {name : String} {written behind : List Char} (here : G name written behind) :
    read (written ++ behind) = some ⟨name, written.length⟩ :=
  reads.iff.2 ⟨written, behind, rfl, rfl, here⟩

/-- The reader finds nothing where no placeholder stands in front. -/
theorem read_kept {s : List Char}
    (free : ∀ name written behind, s = written ++ behind → ¬G name written behind) : read s = none := by
  rw [Option.eq_none_iff_forall_ne_some]
  intro p some
  obtain ⟨written, behind, eq, -, here⟩ := reads.iff.1 some
  exact free p.name written behind eq here

/-- Every text can be cut. -/
theorem exists_cut (s : List Char) : ∃ parts, Cut G s parts := by
  match s with
  | [] => exact ⟨[], .nil⟩
  | c :: rest =>
    -- what the reader finds in front is a part, and otherwise the first character is one
    cases found : read (c :: rest) with
    | none =>
      obtain ⟨parts, cut⟩ := exists_cut rest
      refine ⟨.kept c :: parts, .kept (fun name written behind eq here => ?_) cut⟩
      rw [eq, reads.read_hole here] at found
      cases found
    | some p =>
      obtain ⟨written, behind, eq, -, here⟩ := reads.iff.1 found
      have shorter : behind.length ≤ rest.length := by
        have some_char := List.length_pos_iff.2 (reads.ne_nil here)
        have length := congrArg List.length eq
        rw [List.length_cons, List.length_append] at length
        omega
      obtain ⟨parts, cut⟩ := exists_cut behind
      exact ⟨.hole p.name written :: parts, eq ▸ .hole here cut⟩
termination_by s.length

/-- A text can be cut in one way only. -/
theorem cut_unique {s : List Char} {parts other : List Part} (cut : Cut G s parts) (cut' : Cut G s other) :
    other = parts := by
  -- on the one cut, asking at each of its parts with what part the other begins
  induction cut generalizing other with
  | nil =>
    obtain ⟨-, rfl⟩ | ⟨c, rest, others, eq, -⟩ | ⟨name, written, behind, others, eq, -, -, here⟩ :=
      cut'.cases_on_parts
    · rfl
    · cases eq
    · exact absurd (List.append_eq_nil_iff.1 eq.symm).1 (reads.ne_nil here)
  -- where no placeholder begins, the other cut keeps the character as well
  | kept free _ ih =>
    obtain ⟨eq, -⟩ | ⟨c, rest, others, eq, rfl, tail, -⟩ | ⟨name, written, behind, others, eq, -, -, here⟩ :=
      cut'.cases_on_parts
    · cases eq
    · cases eq
      rw [ih tail]
    · exact absurd here (free _ _ _ eq)
  | @hole name written behind parts here _ ih =>
    obtain ⟨eq, -⟩ | ⟨c, rest, others, -, -, -, free⟩ |
      ⟨name', written', behind', others, eq, rfl, tail, here'⟩ := cut'.cases_on_parts
    · exact absurd (List.append_eq_nil_iff.1 eq).1 (reads.ne_nil here)
    · exact absurd here (free _ _ _ rfl)
    · -- the same placeholder is read in both
      have same : (some ⟨name, written.length⟩ : Option Placeholder) = some ⟨name', written'.length⟩ := by
        rw [← reads.read_hole here, ← reads.read_hole here', eq]
      simp only [Option.some.injEq, Placeholder.mk.injEq] at same
      obtain ⟨rfl, length⟩ := same
      obtain ⟨rfl, rfl⟩ := List.append_inj eq length
      rw [ih tail]

/-- With one cut at hand, to be a cut is to be that one. -/
theorem cut_iff {s : List Char} {parts other : List Part} (cut : Cut G s parts) :
    Cut G s other ↔ other = parts := by
  constructor
  · exact reads.cut_unique cut
  · rintro rfl
    exact cut

/-! ## Expansions -/

omit reads in
/-- Characters are passed over. -/
theorem expandFrom_drop {value : Placeholder → List Char → List Char} (skip : Nat) (s : List Char) :
    expandFrom read value skip s = expandFrom read value 0 (s.drop skip) := by
  induction s generalizing skip with
  | nil => simp [expandFrom]
  | cons c rest ih =>
    cases skip with
    | zero => rfl
    | succ skip => rw [expandFrom, ih, List.drop_succ_cons]

/-- A character at which no placeholder stands is copied. -/
theorem expandFrom_kept {value : Placeholder → List Char → List Char} {c : Char} {rest : List Char}
    (free : ∀ name written behind, c :: rest = written ++ behind → ¬G name written behind) :
    expandFrom read value 0 (c :: rest) = c :: expandFrom read value 0 rest := by
  simp [expandFrom, reads.read_kept free]

/-- A value is put in, and the pass goes on behind the placeholder. -/
theorem expandFrom_hole {value : Placeholder → List Char → List Char} {name : String}
    {written behind : List Char} (here : G name written behind) :
    expandFrom read value 0 (written ++ behind) =
      value ⟨name, written.length⟩ written ++ expandFrom read value 0 behind := by
  have found := reads.read_hole here
  cases written with
  | nil => exact absurd rfl (reads.ne_nil here)
  | cons c written =>
    rw [List.cons_append] at found ⊢
    simp only [expandFrom, found, List.length_cons, Nat.add_sub_cancel]
    rw [expandFrom_drop, List.drop_left, ← List.cons_append, ← List.length_cons (a := c), List.take_left]

/-- A template is expanded part by part. -/
theorem expandFrom_cut {value : Placeholder → List Char → List Char}
    {fill : (name : String) → (written : List Char) → List Char}
    (same : ∀ p written, value p written = fill p.name written) {s : List Char} {parts : List Part}
    (cut : Cut G s parts) : expandFrom read value 0 s = parts.flatMap (Part.filled fill) := by
  induction cut with
  | nil => rfl
  | kept free _ ih => rw [reads.expandFrom_kept free, ih, List.flatMap_cons]; rfl
  | hole here _ ih => rw [reads.expandFrom_hole here, ih, List.flatMap_cons, same]; rfl

end Reads

end Text

/-! ## Error messages -/

namespace ErrorMessage

open Text

/-- A placeholder of an error message: a name in braces. -/
def Mark (words : WordClass) : Placeholders := fun name written _ =>
  IsName words name ∧ written = ['\x7b'] ++ name.toList ++ ['\x7d']

/-- The placeholders of error messages are read where they are. -/
theorem reads (words : WordClass) : Reads (readPlaceholder words) (Mark words) where
  iff := by
    intro s p
    rw [readPlaceholder, readBetween_eq_some_iff]
    constructor
    · rintro ⟨named, behind, eq, -, size⟩
      exact ⟨_, behind, eq, size, named, rfl⟩
    · rintro ⟨written, behind, eq, size, named, rfl⟩
      exact ⟨named, behind, eq, endsWord_cons words.not_has_closeBrace behind, size⟩
  ne_nil := by
    rintro name written behind ⟨-, rfl⟩
    simp

/-- What is written for a name: a text as it is, any other value as JSON. A name without a value is told to be
unknown. -/
def fill (values : List (String × Json)) (name : String) (_ : List Char) : List Char :=
  match Json.findMember name values with
  | some (.str s) => s.toList
  | some v => v.render
  | none => ("\x7b" ++ name ++ ": not found\x7d").toList

/-- A placeholder is replaced by what is written for its name, whatever it is written as. -/
theorem replacement_eq_fill (values : List (String × Json)) (p : Placeholder) (written : List Char) :
    replacement values p = fill values p.name written := by
  unfold replacement fill valueText
  cases Json.findMember p.name values with
  | none => simp
  | some v => cases v <;> rfl

/-- The text of an error message, part by part. -/
theorem expand_cut {words : WordClass} {format : String} {parts : List Part}
    (cut : Cut (Mark words) format.toList parts) (values : List (String × Json)) :
    expand format values words = String.ofList (parts.flatMap (Part.filled (fill values))) := by
  rw [expand, Text.expand, (reads words).expandFrom_cut (replacement_eq_fill values) cut]

-- a placeholder in braces, and a value that looks like another placeholder
example : expand "\x7b\x7bx\x7d\x7d \x7by\x7d" [("x", .str "\x7by\x7d")] =
    "\x7b\x7by\x7d\x7d \x7by: not found\x7d" := by decide +kernel

end ErrorMessage

/-! ## Search paths -/

namespace Environment

open Text

/-- A placeholder of a search path: a name between percent signs, or in braces behind a dollar sign, or one
that a dollar sign stands in front of, to its end. -/
def Mark (words : WordClass) : Placeholders := fun name written behind =>
  IsName words name ∧ (written = ['%'] ++ name.toList ++ ['%'] ∨
    written = ['$', '\x7b'] ++ name.toList ++ ['\x7d'] ∨ written = ['$'] ++ name.toList ∧ EndsWord words behind)

/-- The placeholders of search paths are read where they are. Of the three forms no two can begin at the same
place, so the order in which they are tried does not count. -/
theorem reads (words : WordClass) : Reads (readName words) (Mark words) where
  iff := by
    intro s p
    constructor
    · -- the three ways of writing a placeholder are tried in this order
      intro read
      unfold readName at read
      cases percent : readBetween words ['%'] ['%'] s with
      | some q =>
        rw [percent] at read
        cases read
        obtain ⟨named, behind, eq, -, size⟩ := readBetween_eq_some_iff.1 percent
        exact ⟨_, behind, eq, size, named, .inl rfl⟩
      | none =>
        cases braces : readBetween words ['$', '\x7b'] ['\x7d'] s with
        | some q =>
          rw [percent, braces] at read
          cases read
          obtain ⟨named, behind, eq, -, size⟩ := readBetween_eq_some_iff.1 braces
          exact ⟨_, behind, eq, size, named, .inr (.inl rfl)⟩
        | none =>
          rw [percent, braces] at read
          obtain ⟨named, behind, eq, ends, size⟩ := readBetween_eq_some_iff.1 read
          rw [List.append_nil] at eq size
          exact ⟨_, behind, eq, size, named, .inr (.inr ⟨rfl, ends⟩)⟩
    · -- conversely, each way of writing is not taken for one that is tried before it
      rintro ⟨written, behind, eq, size, named, rfl | rfl | ⟨rfl, ends⟩⟩
      · -- a name ends at the mark that closes it, for no mark is a word character
        have percent : readBetween words ['%'] ['%'] s = some p :=
          readBetween_eq_some_iff.2
            ⟨named, behind, eq, endsWord_cons words.not_has_percent behind, size⟩
        rw [readName, percent]
        rfl
      · have braces : readBetween words ['$', '\x7b'] ['\x7d'] s = some p :=
          readBetween_eq_some_iff.2
            ⟨named, behind, eq, endsWord_cons words.not_has_closeBrace behind, size⟩
        have percent : readBetween words ['%'] ['%'] s = none := by simp [readBetween, eq]
        rw [readName, percent, braces]
        rfl
      · have dollar : readBetween words ['$'] [] s = some p :=
          readBetween_eq_some_iff.2 ⟨named, behind, by simpa using eq, ends, by simpa using size⟩
        have percent : readBetween words ['%'] ['%'] s = none := by simp [readBetween, eq]
        -- a name does not begin with a brace
        have braces : readBetween words ['$', '\x7b'] ['\x7d'] s = none := by
          cases name : p.name.toList with
          | nil => exact absurd (by simpa using name) named.1
          | cons c name' =>
            have word : words.has c = true := named.2 c (by simp [name])
            have other : '\x7b' ≠ c := by
              rintro rfl
              rw [words.not_has_openBrace] at word
              cases word
            simp [readBetween, eq, name, other]
        rw [readName, percent, braces, dollar]
        rfl
  ne_nil := by
    rintro name written behind ⟨-, rfl | rfl | ⟨rfl, -⟩⟩ <;> simp

/-- What is written for a name: its value, and without one the placeholder as it is. -/
def fill (env : Environment) (name : String) (written : List Char) : List Char :=
  match env.value? name with
  | some value => value.toList
  | none => written

/-- A search path, part by part. -/
theorem expand_cut {words : WordClass} {path : String} {parts : List Part}
    (cut : Cut (Mark words) path.toList parts) (env : Environment) :
    env.expand path words = String.ofList (parts.flatMap (Part.filled env.fill)) := by
  have same (p : Placeholder) (written : List Char) :
      ((env.value? p.name).map String.toList).getD written = env.fill p.name written := by
    unfold fill
    cases env.value? p.name <;> rfl
  rw [expand, Text.expand, (reads words).expandFrom_cut same cut]

-- the second percent sign is that of the first placeholder
example : expand [("A", "$B"), ("B", "b")] "%A%B% $\x7bB\x7d$C" = "$BB% b$C" := by decide +kernel

end Environment

end DebugAdapter
