import DebugAdapter.Text.Word

/-!
# Templates

Texts with placeholders. An expansion is one pass from left to right: at each place a reader looks
for a placeholder, which is replaced by its value, and the pass goes on behind it. Values are put in
as they are and never read again.

What counts as a placeholder is up to the reader. `readBetween` is the one that error messages and search
paths are made of.
-/

namespace DebugAdapter.Text

/-- A placeholder at the front of a text: the name, and the number of characters it takes. -/
structure Placeholder where
  name : String
  size : Nat
  deriving DecidableEq, Repr

/-- Expand a template, after passing over `skip` characters. -/
def expandFrom (read : List Char → Option Placeholder) (value : Placeholder → List Char → List Char) :
    (skip : Nat) → List Char → List Char
  | _, [] => []
  -- inside of a placeholder that has been replaced
  | skip + 1, _ :: rest => expandFrom read value skip rest
  | 0, c :: rest =>
    match read (c :: rest) with
    -- the first character of the placeholder is taken here, the others are passed over
    | some p => value p ((c :: rest).take p.size) ++ expandFrom read value (p.size - 1) rest
    | none => c :: expandFrom read value 0 rest

/-- Expand a template. `value` gets the placeholder and the text it was written as. -/
def expand (read : List Char → Option Placeholder) (value : Placeholder → List Char → List Char)
    (template : String) : String :=
  String.ofList (expandFrom read value 0 template.toList)

/-- A name of word characters between an opening and a closing text. -/
def readBetween (words : WordClass) (opening closing : List Char) (s : List Char) : Option Placeholder :=
  if opening.isPrefixOf s then
    let rest := s.drop opening.length
    let name := rest.takeWhile words.has
    if !name.isEmpty && closing.isPrefixOf (rest.drop name.length) then
      some ⟨String.ofList name, opening.length + name.length + closing.length⟩
    else none
  else none

end DebugAdapter.Text
