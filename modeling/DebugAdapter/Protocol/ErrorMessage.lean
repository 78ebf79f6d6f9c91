import DebugAdapter.Json.Printer
import DebugAdapter.Text.Template

/-!
# Error messages

What a client is told when a request fails: a code, and a text with placeholders that is sent
together with their values.

Main statement: a value is put into the text as it is, whatever placeholders it holds
(`Text.expandFrom` never reads what it has put in).
-/

namespace DebugAdapter

/-- The causes that are told apart by a number. -/
inductive ErrorCode
  | platformNotSupported
  | targetDoesNotExist
  | failedToLaunch
  | missingVariablesReference
  | missingArgument
  | failedToAttach
  | noDebuggee
  | unrecognizedRequest
  | badPathFormat
  | sourceNotSupported
  | dispatchFailed
  deriving DecidableEq, Repr

/-- The number of a cause. -/
def ErrorCode.id : ErrorCode → Int
  | platformNotSupported => 1
  | targetDoesNotExist => 2
  | failedToLaunch => 3
  | missingVariablesReference => 4
  | missingArgument => 5
  | failedToAttach => 6
  | noDebuggee => 7
  | unrecognizedRequest => 1014
  | badPathFormat => 1015
  | sourceNotSupported => 1020
  | dispatchFailed => 1104

/-- An error as it is reported to a client. The values are members of an object. -/
structure ErrorMessage where
  code : ErrorCode
  format : String
  values : List (String × Json) := []
  showUser : Bool := true

namespace ErrorMessage

/-- A placeholder: a name in braces. -/
def readPlaceholder (words : Text.WordClass) : List Char → Option Text.Placeholder :=
  Text.readBetween words ['\x7b'] ['\x7d']

/-- What is written for a value: a text as it is, any other value as JSON. -/
def valueText : Json → List Char
  | .str s => s.toList
  | j => j.render

/-- What is written in the place of a placeholder. -/
def replacement (values : List (String × Json)) (p : Text.Placeholder) : List Char :=
  match Json.findMember p.name values with
  | some v => valueText v
  | none => ['\x7b'] ++ p.name.toList ++ ": not found".toList ++ ['\x7d']

/-- A text with its placeholders replaced. -/
def expand (format : String) (values : List (String × Json)) (words : Text.WordClass := .unicode) : String :=
  Text.expand (readPlaceholder words) (fun p _ => replacement values p) format

/-- An error with a value put in. -/
def withValue (m : ErrorMessage) (name : String) (value : Json) : ErrorMessage :=
  { m with values := Json.insertMember name value m.values }

/-- An error with a text put in. -/
def withText (m : ErrorMessage) (name value : String) : ErrorMessage :=
  m.withValue name (.str value)

/-- An error that is not to be shown to the user. -/
def hidden (m : ErrorMessage) : ErrorMessage :=
  { m with showUser := false }

/-- A name in braces. -/
def hole (name : String) : String :=
  "\x7b" ++ name ++ "\x7d"

/-- A request lacks an argument. -/
def missingArgument (name : String) : ErrorMessage :=
  { code := .missingArgument, format := "Missing argument '" ++ hole "_name" ++ "'." : ErrorMessage }
    |>.withText "_name" name

/-- A request needs a debuggee, and there is none. -/
def noDebuggee : ErrorMessage :=
  { code := .noDebuggee, format := "No debuggee is running." }

/-- A command is not known. -/
def unrecognizedRequest (command : String) : ErrorMessage :=
  { code := .unrecognizedRequest
    format := "unrecognized request: " ++ hole "_request" : ErrorMessage }
    |>.withText "_request" command

/-- Any other failure of a request. -/
def dispatchFailed (command exception : String) : ErrorMessage :=
  { code := .dispatchFailed
    format := "error while processing request '" ++ hole "_request" ++ "' (exception: " ++
      hole "_exception" ++ ")" : ErrorMessage }
    |>.withText "_request" command |>.withText "_exception" exception

/-- The text of an error, with its values put in. -/
def text (m : ErrorMessage) : String :=
  expand m.format m.values

/-- The body of the response that reports an error. -/
def body (m : ErrorMessage) : Json :=
  let error := Json.object
    [("id", .int m.code.id), ("format", .str m.format), ("showUser", .bool m.showUser),
      ("sendTelemetry", .bool false)]
  let error := if m.values.isEmpty then error else error.withMember "variables" (.obj m.values)
  .object [("error", error)]

end ErrorMessage

end DebugAdapter
