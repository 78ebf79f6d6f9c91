/-!
# Blank characters

The characters that count as white space when a field, a header or a value is trimmed: the Unicode
`White_Space` property, which is larger than the ASCII set of `Char.isWhitespace`.

Main statements: trimming takes blanks off the ends only (`trimStart_append_blank`,
`trim_of_forall_not_blank`).
-/

namespace DebugAdapter.Text

/-- The Unicode `White_Space` property. -/
def isBlank (c : Char) : Bool :=
  let n := c.toNat
  (9 ≤ n && n ≤ 13) || n == 0x20 || n == 0x85 || n == 0xA0 || n == 0x1680 ||
    (0x2000 ≤ n && n ≤ 0x200A) || n == 0x2028 || n == 0x2029 || n == 0x202F || n == 0x205F ||
    n == 0x3000

/-- Drop the blanks in front. -/
def trimStart (s : List Char) : List Char :=
  s.dropWhile isBlank

/-- Drop the blanks at the end. -/
def trimEnd (s : List Char) : List Char :=
  (s.reverse.dropWhile isBlank).reverse

/-- Drop the blanks at both ends. -/
def trim (s : List Char) : List Char :=
  trimEnd (trimStart s)

/-- `trim` on a string. -/
def trimmed (s : String) : String :=
  String.ofList (trim s.toList)

/-- A text of blanks only. -/
def isAllBlank (s : String) : Bool :=
  s.toList.all isBlank

/-- Blanks put in front of a text are gone after trimming. -/
theorem trimStart_append_blank {b s : List Char} (h : ∀ c ∈ b, isBlank c = true) :
    trimStart (b ++ s) = trimStart s := by
  induction b with
  | nil => rfl
  | cons c b ih =>
    rw [List.cons_append, trimStart, List.dropWhile_cons_of_pos (h c (by simp))]
    exact ih fun d hd => h d (List.mem_cons_of_mem _ hd)

/-- A text without blanks is not changed by trimming. -/
theorem trim_of_forall_not_blank {s : List Char} (h : ∀ c ∈ s, isBlank c = false) : trim s = s := by
  have kept : ∀ {s : List Char}, (∀ c ∈ s, isBlank c = false) → s.dropWhile isBlank = s := by
    intro s h
    cases s with
    | nil => rfl
    | cons c s => rw [List.dropWhile_cons_of_neg (by simp [h c List.mem_cons_self])]
  have reversed : ∀ c ∈ s.reverse, isBlank c = false := fun c hc => h c (List.mem_reverse.1 hc)
  rw [trim, trimStart, trimEnd, kept h, kept reversed, List.reverse_reverse]

end DebugAdapter.Text
