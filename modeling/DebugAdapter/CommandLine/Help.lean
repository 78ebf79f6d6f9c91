import DebugAdapter.CommandLine.Basic

/-!
# The help text

How the program is called, with every option on a line of its own and what it is for below.
-/

namespace DebugAdapter.CommandLine

/-- The name of the program. -/
def programName : String := "dbgeng-dap"

/-- The version of the program. -/
def programVersion : String := "0.1.0"

/-- What the program is. -/
def programSummary : String :=
  "Debug Adapter Protocol bridge for native, single-thread affine debugging engines."

/-- An option as the help writes it: its letter, its name, and its value. -/
def synopsis (o : CommandOption) : String :=
  (match o.letter? with
    | some letter => "-" ++ letter.toString ++ ", "
    | none => "    ")
    ++ o.written ++ ((o.valueName?.map fun name => " <" ++ name ++ ">").getD "")

/-- What is said behind the summary of an option: where its value comes from if it is not given. -/
def origin (env : Environment) : CommandOption → String
  | .verbosity =>
    " [env: " ++ verbosityVariable ++ "=" ++ (env.value? verbosityVariable).getD "" ++
      "] [default: info]"
  | _ => ""

/-- The lines of an option. -/
def optionHelp (env : Environment) (o : CommandOption) : String :=
  "  " ++ synopsis o ++ "\n          " ++ o.summary ++ origin env o ++ "\n"

/-- The help text. -/
def helpText (env : Environment) : String :=
  programSummary ++ "\n\n\nUsage: " ++ programName ++ " [OPTIONS]\n\nOptions:\n" ++
    String.join (CommandOption.all.map (optionHelp env))

/-- The version text. -/
def versionText : String :=
  programName ++ " " ++ programVersion ++ "\n"

end DebugAdapter.CommandLine
