import DebugAdapter.CommandLine.Basic

/-!
# Reading the command line

The arguments are read one after the other, and the first one that is wrong or asks for a text ends
the reading. A value may be the argument after its option, or stand behind an equals sign; behind a
letter it may also stand at once. Letters may be put together behind one hyphen. After two hyphens
alone there are no options.
-/

namespace DebugAdapter.CommandLine

/-- An argument by its form. -/
inductive Argument
  /-- Two hyphens alone. -/
  | separator
  | long (name : String) (value : Option String)
  | letters (l : List Char)
  | plain (value : String)
  deriving DecidableEq, Repr

/-- The form of an argument. -/
def Argument.ofText (s : String) : Argument :=
  match s.toList with
  | ['-', '-'] => .separator
  | '-' :: '-' :: rest =>
    match Text.splitFirst '=' rest with
    | some (name, value) => .long (String.ofList name) (some (String.ofList value))
    | none => .long (String.ofList rest) none
  | '-' :: letter :: rest => .letters (letter :: rest)
  | _ => .plain s

/-- Take a long option. The result tells which option the next argument belongs to. -/
def takeLong (c : CommandLine) (argument name : String) (value : Option String) :
    Except Halt (CommandLine × Option CommandOption) :=
  match CommandOption.ofLongName? name, value with
  | none, _ => .error (.refused (.unknownOption argument))
  | some o, some value => do
    if !o.takesValue then throw (.refused (.unexpectedValue o value))
    return (← c.withValue o value, none)
  | some o, none => do
    if o.takesValue then return (c, some o)
    return (← c.withFlag o, none)

/-- Take letters. The result tells which option the next argument belongs to. -/
def takeLetters (c : CommandLine) (argument : String) :
    List Char → Except Halt (CommandLine × Option CommandOption)
  | [] => .ok (c, none)
  | letter :: rest =>
    match CommandOption.ofLetter? letter with
    | none => .error (.refused (.unknownOption argument))
    | some o =>
      if o.takesValue then
        match rest with
        | [] => .ok (c, some o)
        -- an equals sign behind the letter is no part of the value
        | '=' :: value => return (← c.withValue o (String.ofList value), none)
        | value => return (← c.withValue o (String.ofList value), none)
      else do takeLetters (← c.withFlag o) argument rest

/-- Nothing may be left after the options. -/
def refuseRest (c : CommandLine) : List String → Except Halt CommandLine
  | [] => .ok c
  | argument :: _ => .error (.refused (.unexpectedArgument argument))

/-- Read the arguments. `open?` is the option that has no value yet. -/
def readArguments (c : CommandLine) (open? : Option CommandOption) :
    List String → Except Halt CommandLine
  | [] =>
    match open? with
    | some o => .error (.refused (.missingValue o))
    | none => .ok c
  | argument :: rest =>
    match open?, Argument.ofText argument with
    | some o, .plain value => do readArguments (← c.withValue o value) none rest
    -- what looks like an option is never taken for a value
    | some o, _ => .error (.refused (.missingValue o))
    | none, .separator => refuseRest c rest
    | none, .long name value => do
      let (c, open?) ← takeLong c argument name value
      readArguments c open? rest
    | none, .letters l => do
      let (c, open?) ← takeLetters c argument l
      readArguments c open? rest
    | none, .plain value => .error (.refused (.unexpectedArgument value))

/-- Read a command line. -/
def read (env : Environment) (arguments : List String) : Except Halt CommandLine := do
  complete env (← readArguments {} none arguments)

end DebugAdapter.CommandLine
