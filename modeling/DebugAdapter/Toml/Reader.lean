import DebugAdapter.Toml.Scalar

/-!
# Reading TOML

Reading a document line by line: keys with their values, and the headers of tables. A document that
breaks a rule is refused as a whole. The number of steps is bounded by `fuel`; each step takes a
character at least, so the length of the text is enough. Arrays and inline tables within each other,
and the parts of a key, are allowed up to a limit.
-/

namespace DebugAdapter.Toml

/-- Read a character if it is the one expected. -/
def expect (c : Char) : ReadM Unit := fun s =>
  match s with
  | d :: rest => if d = c then some ((), rest) else none
  | [] => none

/-- The next character, which is not taken. -/
def peek? : ReadM (Option Char) := fun s =>
  some (s.head?, s)

/-- Refuse the text. -/
def refuse {α : Type} : ReadM α := fun _ => none

/-- What an option holds; the text is refused if it holds nothing. -/
def accept {α : Type} (a : Option α) : ReadM α := fun s =>
  a.map (·, s)

/-- Pass over blanks. -/
def skipSpaces : ReadM Unit := fun s =>
  some ((), s.dropWhile isSpace)

/-- Pass over a line end, if there is one; true if there was. -/
def skipLineEnd : ReadM Bool := fun s =>
  match s with
  | '\n' :: rest => some (true, rest)
  | '\r' :: '\n' :: rest => some (true, rest)
  | s => some (false, s)

/-- Pass over a comment, if there is one. -/
def skipComment : ReadM Unit := fun s =>
  match s with
  | '#' :: rest =>
    let after := rest.dropWhile isPrintable
    match after with
    | [] | '\n' :: _ | '\r' :: '\n' :: _ => some ((), after)
    -- no control character may stand in a comment
    | _ => none
  | s => some ((), s)

/-- End a line: blanks, perhaps a comment, and a line end or the end of the text. -/
def endLine : ReadM Unit := do
  skipSpaces
  skipComment
  if (← peek?).isSome then
    if !(← skipLineEnd) then refuse

/-- Pass over blanks, comments and line ends. -/
def skipLines : (fuel : Nat) → ReadM Unit
  | 0 => return ()
  | fuel + 1 => do
    skipSpaces
    skipComment
    if ← skipLineEnd then skipLines fuel

/-- A character of a key without quotes. -/
def isKeyChar (c : Char) : Bool :=
  c.isAlphanum || c == '-' || c == '_'

/-- Read a part of a key. -/
def readKeyPart : ReadM String := fun s =>
  match s with
  | '"' :: rest => (basicString rest).map fun (key, rest) => (String.ofList key, rest)
  | '\'' :: rest => (literalString rest).map fun (key, rest) => (String.ofList key, rest)
  | s =>
    let key := s.takeWhile isKeyChar
    if key.isEmpty then none else some (String.ofList key, s.drop key.length)

/-- How many arrays and inline tables may lie within each other, and how many parts a key may have. -/
def maxDepth : Nat := 79

/-- Read the parts of a key, with points between them. -/
def readKeyParts : (fuel : Nat) → ReadM (List String)
  | 0 => refuse
  | fuel + 1 => do
    skipSpaces
    let part ← readKeyPart
    skipSpaces
    if (← peek?) = some '.' then
      expect '.'
      return part :: (← readKeyParts fuel)
    return [part]

/-- Read a key. -/
def readKey (fuel : Nat) : ReadM (List String) := do
  let key ← readKeyParts fuel
  if maxDepth < key.length then refuse
  return key

mutual

/-- Read a value. `depth` tells how many arrays and inline tables may still be opened. -/
def readValue : (fuel depth : Nat) → ReadM Toml
  | 0, _ => refuse
  | fuel + 1, depth => do
    match ← peek?, depth with
    | some '"', _ | some '\'', _ => do
      let s ← readString
      return .text (String.ofList s)
    | some '[', depth + 1 => do
      expect '['
      return .array (← readElements fuel depth)
    | some '\x7b', depth + 1 => do
      expect '\x7b'
      skipSpaces
      if (← peek?) = some '\x7d' then
        expect '\x7d'
        return .table .inline []
      return .table .inline (← readMembers fuel depth [])
    | _, _ => do
      -- a container beyond the limit gives an empty word, which writes no value
      let word ← fun s => some (spanWord s)
      accept (readWord? word)

/-- Read the elements of an array and its end. -/
def readElements : (fuel depth : Nat) → ReadM (List Toml)
  | 0, _ => refuse
  | fuel + 1, depth => do
    skipLines fuel
    -- the end of an empty array, or behind a last comma
    if (← peek?) = some ']' then
      expect ']'
      return []
    let v ← readValue fuel depth
    skipLines fuel
    if (← peek?) = some ',' then
      expect ','
      return v :: (← readElements fuel depth)
    expect ']'
    return [v]

/-- Read the members of an inline table and its end. -/
def readMembers : (fuel depth : Nat) → Members → ReadM Members
  | 0, _, _ => refuse
  | fuel + 1, depth, members => do
    let key ← readKey fuel
    expect '='
    skipSpaces
    let v ← readValue fuel depth
    let members ← accept (Members.define? true members v key)
    skipSpaces
    -- an inline table has no comma behind its last member
    if (← peek?) = some ',' then
      expect ','
      readMembers fuel depth members
    else
      expect '\x7d'
      return members

end

/-- A document as far as it was read, and the table that keys go into. -/
structure Document where
  root : Members := []
  header : List String := []

/-- Read a line. -/
def readLine (fuel : Nat) (d : Document) : ReadM Document := do
  skipSpaces
  match ← peek? with
  | none | some '#' | some '\n' | some '\r' =>
    endLine
    return d
  | some '[' => do
    expect '['
    if (← peek?) = some '[' then
      expect '['
      let header ← readKey fuel
      expect ']'
      expect ']'
      endLine
      return ⟨← accept (Members.appendTable? d.root header), header⟩
    else
      let header ← readKey fuel
      expect ']'
      endLine
      return ⟨← accept (Members.openTable? d.root header), header⟩
  | _ => do
    let key ← readKey fuel
    expect '='
    skipSpaces
    let v ← readValue fuel maxDepth
    endLine
    let root ← accept
      (Members.within? (fun table => Members.define? true table v key) d.root d.header)
    return { d with root }

/-- Read the lines that are left. -/
def readLines : (fuel : Nat) → Document → List Char → Option Document
  | _, d, [] => some d
  | 0, _, _ :: _ => none
  | fuel + 1, d, s => do
    let (d, rest) ← (readLine (s.length + 1) d).run s
    readLines fuel d rest

/-- Read a document. A mark of the byte order in front of it is passed over. -/
def parse? (s : String) : Option Members :=
  let chars := match s.toList with
    | '\uFEFF' :: rest => rest
    | chars => chars
  (readLines (chars.length + 1) {} chars).map (·.root)

end DebugAdapter.Toml
