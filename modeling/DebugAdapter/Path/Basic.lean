import DebugAdapter.Text.Search

/-!
# File system paths

Paths with `/` between their parts. Parts that name nothing (empty ones, and `.` but at the very
start) do not count when the last part is looked for. A path without root can be joined behind a
directory; one with a root stands alone.
-/

namespace DebugAdapter.Path

/-- The path starts at the root. -/
def isAbsolute (path : String) : Bool :=
  Text.startsWith "/" path

/-- Replace each backslash by a slash. -/
def forward (s : List Char) : List Char :=
  s.map fun c => if c = '\\' then '/' else c

/-- Replace each slash by a backslash. -/
def backward (s : List Char) : List Char :=
  s.map fun c => if c = '/' then '\\' else c

/-- A part that names nothing. -/
def isTrivial (part : List Char) : Bool :=
  part == [] || part == ['.']

/-- The start of a path that is no part to take off: the root, or the `.` of a path that begins with
it. What is left is the rest. -/
def splitStart (path : List Char) : List Char × List Char :=
  match path with
  | '/' :: rest => (['/'], rest)
  | ['.'] => (['.'], [])
  | '.' :: '/' :: rest => (['.'], '/' :: rest)
  | _ => ([], path)

/-- The parts of a text between slashes, last one first, from the last one that names something. -/
def partsBackward (rest : List Char) : List (List Char) :=
  (Text.splitAll '/' rest).reverse.dropWhile isTrivial

/-- Put parts, last one first, together again. -/
def joinBackward (parts : List (List Char)) : List Char :=
  List.intercalate ['/'] parts.reverse

/-- The path without its last part; `none` if there is none to take off. -/
def parent? (path : String) : Option String :=
  let (start, rest) := splitStart path.toList
  match partsBackward rest with
  | _ :: before => some (String.ofList (start ++ joinBackward (before.dropWhile isTrivial)))
  -- the parent of `.` is empty, and the root has none
  | [] => if start = ['.'] then some "" else none

/-- The last part of a path, `none` if it names no file. -/
def fileName? (path : String) : Option String :=
  match partsBackward (splitStart path.toList).2 with
  | [] => none
  | part :: _ => if part = ['.', '.'] then none else some (String.ofList part)

/-- The path of something named relative to a directory. -/
def join (directory path : String) : String :=
  if isAbsolute path || directory.isEmpty then path
  else if directory.toList.getLast? = some '/' then directory ++ path
  else directory ++ "/" ++ path

end DebugAdapter.Path
