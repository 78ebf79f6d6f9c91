import DebugAdapter.Path.Basic
import DebugAdapter.Session.Program

/-!
# Hosts

What the adapter sees of the machine it runs on: files and directories, processes, and where programs
and the sources of the standard library are. Paths are followed part by part; a part can be looked up
in a directory only.

Main statement: a file that was opened is there under its path (`content?_openForAppending?`).
-/

namespace DebugAdapter

/-- A machine. Files, which have contents, and directories are named by the parts of their absolute
paths. -/
structure Host where
  directories : List (List String) := [[]]
  files : List (List String × String) := []
  workingDirectory : List String := []
  processes : List ProcessImage := []
  /-- The programs of the search path, with their paths. -/
  programs : List (String × String) := []
  stdLibrary : Option String := none
  /-- The standard library has been looked for. -/
  searched : Bool := false

namespace Host

/-- What a path names. -/
inductive Node
  | directory (parts : List String)
  | file (parts : List String)
  | missing
  deriving DecidableEq, Repr

/-- Look up a part of a path. -/
def enter (h : Host) : Node → String → Node
  | .directory parts, part =>
    if part = "" ∨ part = "." then .directory parts
    -- above the root is the root
    else if part = ".." then .directory parts.dropLast
    else
      let inside := parts ++ [part]
      -- of a directory and a file under one path the directory counts
      if h.directories.contains inside then .directory inside
      else if h.files.any (·.1 == inside) then .file inside
      else .missing
  | _, _ => .missing

/-- The directory that a path starts from. -/
def start (h : Host) (path : String) : Node :=
  .directory (if Path.isAbsolute path then [] else h.workingDirectory)

/-- The parts of a path. -/
def partsOf (path : String) : List String :=
  (Text.splitAll '/' path.toList).map String.ofList

/-- Follow a path. -/
def lookup (h : Host) (path : String) : Node :=
  -- an empty path does not name the working directory
  if path.isEmpty then .missing
  else (partsOf path).foldl h.enter (h.start path)

/-- A path names something. -/
def pathExists (h : Host) (path : String) : Bool :=
  h.lookup path ≠ .missing

/-- The directory that a path names. -/
def directory? (h : Host) (path : String) : Option (List String) :=
  match h.lookup path with
  | .directory parts => some parts
  | _ => none

/-- The file that a path names. -/
def file? (h : Host) (path : String) : Option (List String) :=
  match h.lookup path with
  | .file parts => some parts
  | _ => none

/-- The content of a file by its parts. -/
def contentOf? (h : Host) (parts : List String) : Option String :=
  (h.files.find? (·.1 == parts)).map (·.2)

/-- The content of the file that a path names. -/
def content? (h : Host) (path : String) : Option String :=
  h.file? path >>= h.contentOf?

/-- Put in a directory and those it is in. -/
def withDirectory (h : Host) (parts : List String) : Host :=
  { h with directories := (List.range (parts.length + 1)).map parts.take ++ h.directories }

/-- Put in a file and the directories it is in. -/
def withFile (h : Host) (parts : List String) (content : String) : Host :=
  { h.withDirectory parts.dropLast with files := (parts, content) :: h.files }

/-- The parts of a file that a path would name if it were there: it lies in a directory that is. -/
def newFile? (h : Host) (path : String) : Option (List String) :=
  let parts := partsOf path
  match parts.dropLast.foldl h.enter (h.start path), parts.getLast? with
  | .directory inside, some last =>
    if last = "" ∨ last = "." ∨ last = ".." then none else some (inside ++ [last])
  | _, _ => none

/-- Open a file to append to, which is made if it is missing: its parts, and the host with it. -/
def openForAppending? (h : Host) (path : String) : Option (List String × Host) :=
  match h.lookup path with
  | .file parts => some (parts, h)
  | .directory _ => none
  | .missing => (h.newFile? path).map fun parts => (parts, { h with files := (parts, "") :: h.files })

/-- Append to a file. -/
def append (h : Host) (parts : List String) (text : String) : Host :=
  { h with
    files := h.files.map fun (name, content) =>
      if name == parts then (name, content ++ text) else (name, content) }

/-- Go to a directory, if there is one of that name. -/
def setDirectory (h : Host) (path : String) : Host :=
  match h.directory? path with
  | some parts => { h with workingDirectory := parts }
  | none => h

/-- The path of a program. -/
def findProgram (h : Host) (name : String) : Option String :=
  (h.programs.find? (·.1 == name)).map (·.2)

/-- A process. -/
def findProcess (h : Host) (pid : UInt32) : Option ProcessImage :=
  h.processes.find? (·.pid == pid)

/-- The record of a look for the standard library that has failed. -/
def searchFailure : LogRecord :=
  ⟨.warn, "gateway", some "dbgeng_dap::sources",
    "detect rust sysroot: io error: No such file or directory (os error 2)"⟩

/-- Look for the sources of the standard library. A failure is recorded once. -/
def findStdLibrary (h : Host) : (Option String × Option LogRecord) × Host :=
  ((h.stdLibrary, if h.searched || h.stdLibrary.isSome then none else some searchFailure),
    { h with searched := true })

/-- One part further, only a file of the machine is entered as a file. -/
theorem any_files_of_enter {h : Host} {n : Node} {part : String} {parts : List String}
    (e : h.enter n part = .file parts) : h.files.any (·.1 == parts) = true := by
  unfold enter at e
  dsimp only at e
  repeat' split at e
  all_goals simp_all

/-- Steps that end at a file end at one of the machine, if the place they start from is one whenever it is a
file. -/
theorem any_files_of_foldl {h : Host} {l parts : List String} {n : Node}
    (hn : n = .file parts → h.files.any (·.1 == parts) = true)
    (e : l.foldl h.enter n = .file parts) : h.files.any (·.1 == parts) = true := by
  induction l generalizing n with
  | nil => exact hn e
  | cons part rest ih => exact ih any_files_of_enter e

/-- A file that a path leads to is one of the machine. -/
theorem any_files_of_lookup {h : Host} {path : String} {parts : List String}
    (e : h.lookup path = .file parts) : h.files.any (·.1 == parts) = true := by
  unfold lookup at e
  split at e
  · exact nomatch e
  · exact any_files_of_foldl (by simp [start]) e

/-- A file of the machine has a content. -/
theorem isSome_contentOf? {h : Host} {parts : List String}
    (e : h.files.any (·.1 == parts) = true) : (h.contentOf? parts).isSome = true := by
  simpa [contentOf?, List.find?_isSome] using e

/-- A file that was opened to be appended to is there, with a content. -/
theorem content?_openForAppending? {h opened : Host} {path : String} {parts : List String}
    (e : h.openForAppending? path = some (parts, opened)) :
    (opened.contentOf? parts).isSome = true := by
  unfold openForAppending? at e
  split at e
  · rename_i hl
    simp only [Option.some.injEq, Prod.mk.injEq] at e
    obtain ⟨rfl, rfl⟩ := e
    exact isSome_contentOf? (any_files_of_lookup hl)
  · exact nomatch e
  · -- a file that is missing is made, and is found first
    simp only [Option.map_eq_some_iff, Prod.mk.injEq] at e
    obtain ⟨p, -, rfl, rfl⟩ := e
    exact isSome_contentOf? (by simp)

end Host

end DebugAdapter
