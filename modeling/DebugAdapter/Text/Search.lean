/-!
# Searching and splitting text

Finding a character or a word in a text and taking what stands before and after it, and cutting a
text into lines.

Main statements: what `splitFirst` gives puts together the text again (`eq_of_splitFirst`), and the
part in front is free of the separator (`not_mem_of_splitFirst`).
-/

namespace DebugAdapter.Text

/-- What stands before and after the first `c`. -/
def splitFirst (c : Char) : List Char → Option (List Char × List Char)
  | [] => none
  | d :: rest =>
    if d = c then some ([], rest)
    else (splitFirst c rest).map fun (before, after) => (d :: before, after)

/-- What stands after the last `c`; all of the text if there is none. -/
def afterLast (c : Char) (s : List Char) : List Char :=
  (s.reverse.takeWhile (· != c)).reverse

/-- What stands after the first occurrence of `word`. -/
def afterWord? (word : List Char) : List Char → Option (List Char)
  | [] => if word.isEmpty then some [] else none
  | c :: rest =>
    if word.isPrefixOf (c :: rest) then some ((c :: rest).drop word.length)
    else afterWord? word rest

/-- `word` occurs in the text. -/
def hasWord (word s : String) : Bool :=
  (afterWord? word.toList s.toList).isSome

/-- The text starts with `start`. -/
def startsWith (start s : String) : Bool :=
  start.toList.isPrefixOf s.toList

/-- Equal but for the case of ASCII letters. -/
def sameLetters (s t : List Char) : Bool :=
  s.map Char.toLower == t.map Char.toLower

/-- Cut a text at each `c`. There is one part more than there are cuts. -/
def splitAll (c : Char) : List Char → List (List Char)
  | [] => [[]]
  | d :: rest =>
    match splitAll c rest with
    -- not met: there is always a first part
    | [] => [[d]]
    | first :: others => if d = c then [] :: first :: others else (d :: first) :: others

/-- Drop one carriage return at the end. -/
def dropReturn (line : List Char) : List Char :=
  if line.getLast? = some '\r' then line.dropLast else line

/-- The lines of a text: each ends with a line feed, which may have a carriage return in front. An
unended last line keeps its carriage return, and an empty one is no line. -/
def lines (s : List Char) : List (List Char) :=
  let parts := splitAll '\n' s
  let last := (parts.getLast?).getD []
  parts.dropLast.map dropReturn ++ (if last.isEmpty then [] else [last])

/-- A text that is split is put together from its parts, with the character between them. -/
theorem eq_of_splitFirst {c : Char} {s before after : List Char}
    (h : splitFirst c s = some (before, after)) : s = before ++ c :: after := by
  induction s generalizing before with
  | nil => simp [splitFirst] at h
  | cons d rest ih =>
    simp only [splitFirst] at h
    split at h
    · simp_all
    · simp only [Option.map_eq_some_iff, Prod.mk.injEq, Prod.exists] at h
      obtain ⟨b, a, hs, rfl, rfl⟩ := h
      simp [ih hs]

/-- A text is split at the first place of the character. -/
theorem splitFirst_append {c : Char} {before : List Char} (first : c ∉ before) (after : List Char) :
    splitFirst c (before ++ c :: after) = some (before, after) := by
  induction before with
  | nil => simp [splitFirst]
  | cons d rest ih =>
    simp only [List.mem_cons, not_or] at first
    simp [splitFirst, Ne.symm first.1, ih first.2]

/-- The character is not in the part in front, since the text is split at its first place. -/
theorem not_mem_of_splitFirst {c : Char} {s before after : List Char}
    (h : splitFirst c s = some (before, after)) : c ∉ before := by
  induction s generalizing before with
  | nil => simp [splitFirst] at h
  | cons d rest ih =>
    simp only [splitFirst] at h
    split at h
    · simp_all
    · rename_i hd
      simp only [Option.map_eq_some_iff, Prod.mk.injEq, Prod.exists] at h
      obtain ⟨b, a, hs, rfl, rfl⟩ := h
      simp [ih hs, Ne.symm hd]

end DebugAdapter.Text
