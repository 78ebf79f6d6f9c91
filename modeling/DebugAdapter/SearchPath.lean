import DebugAdapter.Path.Basic
import DebugAdapter.Text.Template

/-!
# Search paths

Where the engine looks for sources and symbols: directories with semicolons between them, each one
once, in the order they were given. Names of the environment are replaced in directories that the
user wrote.

Main statement: no directory is listed twice (`nodup_distinct`).
-/

namespace DebugAdapter

/-- Names of the environment with their values. -/
abbrev Environment := List (String × String)

namespace Environment

/-- The value of a name. -/
def value? (env : Environment) (name : String) : Option String :=
  (env.find? (·.1 == name)).map (·.2)

/-- The environment that a block of entries describes. Each entry is a name, an equals sign and a
value, and is closed by a zero character. -/
def ofBlock (block : String) : Environment :=
  (Text.splitAll '\x00' block.toList).filterMap fun entry =>
    (Text.splitFirst '=' entry).map fun (name, value) => (String.ofList name, String.ofList value)

/-- A name of the environment in a path, in one of the forms `%NAME%`, `${NAME}` with braces, and
`$NAME`. -/
def readName (words : Text.WordClass) (s : List Char) : Option Text.Placeholder :=
  Text.readBetween words ['%'] ['%'] s <|> Text.readBetween words ['$', '\x7b'] ['\x7d'] s <|>
    Text.readBetween words ['$'] [] s

/-- Replace the names of the environment in a path. An unknown name stays as it is written. -/
def expand (env : Environment) (path : String) (words : Text.WordClass := .unicode) : String :=
  Text.expand (readName words) (fun p written => ((env.value? p.name).map String.toList).getD written) path

end Environment

namespace SearchPath

/-- The elements of a list, each at its first place only. -/
def distinct : List String → List String
  | [] => []
  | x :: rest => x :: (distinct rest).filter (· != x)

/-- No element of a list is lost when only its first place counts. -/
theorem mem_distinct {x : String} {l : List String} : x ∈ distinct l ↔ x ∈ l := by
  induction l with
  | nil => simp [distinct]
  | cons y rest ih =>
    by_cases h : x = y <;> simp [distinct, h, ih]

/-- Each element is listed once. -/
theorem nodup_distinct (l : List String) : (distinct l).Nodup := by
  induction l with
  | nil => simp [distinct]
  | cons y rest ih => exact List.nodup_cons.mpr ⟨by simp, List.Pairwise.filter _ ih⟩

/-- Directories as one text. -/
def ofDirectories (directories : List String) : String :=
  ";".intercalate (distinct (directories.filter (!·.isEmpty)))

/-- Where sources are: the user's directories, then those of the standard library. -/
def forSources (env : Environment) (user : List String) (stdLibrary : Option String) : String :=
  ofDirectories (user.map (env.expand ·) ++ stdLibrary.toList)

/-- Where symbols are: beside the debuggee, then the user's directories. -/
def forSymbols (env : Environment) (target : Option String) (user : List String) : String :=
  ofDirectories ((target.bind Path.parent?).toList ++ user.map (env.expand ·))

end SearchPath

end DebugAdapter
