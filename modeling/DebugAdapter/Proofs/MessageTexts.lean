import DebugAdapter.Proofs.TemplateParts
import DebugAdapter.Session.Start

/-!
# Texts of error messages

The text of an error message is worked out piece by piece: what has no braces stays, and a name in braces is
replaced. Each text has the values in it as they are, braces or not, since none is read again.

## Key results

- `ErrorMessage.expand_literal`, `ErrorMessage.expand_hole`: the text of a message, piece by piece
- `ErrorMessage.text_plainError`: an error whose text is its only value
- `ErrorMessage.text_dispatchFailed`: the error for a failure that has no message of its own
-/

namespace DebugAdapter

namespace ErrorMessage

open Text

/-! ## Pieces of a text -/

/-- A text without braces stays. -/
theorem expand_literal {literal : String} (plain : '\x7b' ∉ literal.toList) (rest : String)
    (values : List (String × Json)) :
    expand (literal ++ rest) values = literal ++ expand rest values := by
  have kept (s : List Char) (plain : '\x7b' ∉ s) :
      expandFrom (readPlaceholder .unicode) (fun p _ => replacement values p) 0 (s ++ rest.toList) =
        s ++ expandFrom (readPlaceholder .unicode) (fun p _ => replacement values p) 0 rest.toList := by
    -- induction on the literal: no character of it opens a placeholder
    induction s with
    | nil => rfl
    | cons c s ih =>
      simp only [List.mem_cons, not_or] at plain
      rw [List.cons_append, (reads .unicode).expandFrom_kept, ih plain.2, List.cons_append]
      rintro name written behind eq ⟨-, rfl⟩
      simp only [List.cons_append, List.cons.injEq] at eq
      exact plain.1 eq.1.symm
  rw [expand, expand, Text.expand, Text.expand, String.toList_append, kept _ plain, String.ofList_append,
    String.ofList_toList]

/-- A name in braces is replaced. -/
theorem expand_hole {name : String} (named : IsName .unicode name) (rest : String) (values : List (String × Json)) :
    expand (hole name ++ rest) values = String.ofList (fill values name []) ++ expand rest values := by
  have here : Mark .unicode name (hole name).toList rest.toList := ⟨named, by simp [hole]⟩
  rw [expand, expand, Text.expand, Text.expand, String.toList_append, (reads .unicode).expandFrom_hole here,
    String.ofList_append, replacement_eq_fill values _ []]

/-- A text without braces is its own expansion. -/
theorem expand_plain {literal : String} (plain : '\x7b' ∉ literal.toList) (values : List (String × Json)) :
    expand literal values = literal := by
  have empty : expand "" values = "" := rfl
  have := expand_literal plain "" values
  rwa [String.append_empty, empty, String.append_empty] at this

/-- A format without placeholders is its own text. -/
theorem text_plain (code : ErrorCode) {format : String} (plain : '\x7b' ∉ format.toList) :
    text { code, format } = format :=
  expand_plain plain []

/-- A placeholder is filled with the text that is given for it. -/
theorem fill_of_find {values : List (String × Json)} {name value : String}
    (there : Json.findMember name values = some (.str value)) (written : List Char) :
    String.ofList (fill values name written) = value := by
  simp [fill, there]

/-! ## Texts -/

/-- The text for a missing argument names the argument. -/
theorem text_missingArgument (name : String) :
    (missingArgument name).text = "Missing argument '" ++ name ++ "'." := by
  simp only [missingArgument, text, withText, withValue, String.append_assoc]
  rw [expand_literal (by decide), expand_hole (by decide), expand_plain (by decide),
    fill_of_find (Json.findMember_insertMember _ _ _)]

/-- The text for an unknown request names the command. -/
theorem text_unrecognizedRequest (command : String) :
    (unrecognizedRequest command).text = "unrecognized request: " ++ command := by
  simp only [unrecognizedRequest, text, withText, withValue]
  rw [← String.append_empty (s := hole _), expand_literal (by decide), expand_hole (by decide),
    expand_plain (by decide), fill_of_find (Json.findMember_insertMember _ _ _), String.append_empty]

/-- The text for a failed request names the command and the reason. -/
theorem text_dispatchFailed (command reason : String) :
    (dispatchFailed command reason).text =
      "error while processing request '" ++ command ++ "' (exception: " ++ reason ++ ")" := by
  simp only [dispatchFailed, text, withText, withValue, String.append_assoc]
  have request : Json.findMember "_request" (Json.insertMember "_exception" (.str reason)
      (Json.insertMember "_request" (.str command) [])) = some (.str command) := by
    rw [Json.findMember_insertMember_of_ne (by decide), Json.findMember_insertMember]
  rw [expand_literal (by decide), expand_hole (by decide), expand_literal (by decide),
    expand_hole (by decide), expand_plain (by decide), fill_of_find request,
    fill_of_find (Json.findMember_insertMember _ _ _)]

/-- The text for a wrong format of paths names the format. -/
theorem text_badPathFormat (code : ErrorCode) (value : String) :
    (withText { code, format := "initialize: bad value '" ++ hole "_format" ++ "' for pathFormat" } "_format"
      value).text = "initialize: bad value '" ++ value ++ "' for pathFormat" := by
  simp only [text, withText, withValue, String.append_assoc]
  rw [expand_literal (by decide), expand_hole (by decide), expand_plain (by decide),
    fill_of_find (Json.findMember_insertMember _ _ _)]

/-- The text for a wrong platform names the engine and the platform. -/
theorem text_platformNotSupported (code : ErrorCode) (engine platform : String) :
    (withText (withText ({ code
                           format := "Engine '" ++ hole "_engine" ++ "' is not supported on '" ++
                            hole "_platform" ++ "' platform." })
      "_engine" engine) "_platform" platform).text =
        "Engine '" ++ engine ++ "' is not supported on '" ++ platform ++ "' platform." := by
  have engine' : Json.findMember "_engine" (Json.insertMember "_platform" (.str platform)
      (Json.insertMember "_engine" (.str engine) [])) = some (.str engine) := by
    rw [Json.findMember_insertMember_of_ne (by decide), Json.findMember_insertMember]
  simp only [text, withText, withValue, String.append_assoc]
  rw [expand_literal (by decide), expand_hole (by decide), expand_literal (by decide),
    expand_hole (by decide), expand_plain (by decide), fill_of_find engine',
    fill_of_find (Json.findMember_insertMember _ _ _)]

/-- The text for a missing target names the target. -/
theorem text_targetDoesNotExist (code : ErrorCode) (target : String) :
    (withText { code, format := "Could not launch '" ++ hole "_target" ++ "' as it does not exist." }
      "_target" target).text = "Could not launch '" ++ target ++ "' as it does not exist." := by
  simp only [text, withText, withValue, String.append_assoc]
  rw [expand_literal (by decide), expand_hole (by decide), expand_plain (by decide),
    fill_of_find (Json.findMember_insertMember _ _ _)]

/-- The text for a failed attachment names the process and the error. -/
theorem text_attachFailed (code : ErrorCode) (pid : Int) (error : String) :
    (withText (withValue { code, format := "Could not attach to process " ++ hole "_pid" ++ ": " ++ hole "_error" }
      "_pid" (.int pid)) "_error" error).text =
        "Could not attach to process " ++ toString pid ++ ": " ++ error := by
  have number : Json.findMember "_pid" (Json.insertMember "_error" (.str error)
      (Json.insertMember "_pid" (.int pid) [])) = some (.int pid) := by
    rw [Json.findMember_insertMember_of_ne (by decide), Json.findMember_insertMember]
  have shown (values : List (String × Json)) (there : Json.findMember "_pid" values = some (.int pid)) :
      String.ofList (fill values "_pid" []) = toString pid := by
    simp [fill, there, Json.render]
  -- the format is taken apart piece by piece
  simp only [text, withText, withValue, String.append_assoc]
  rw [← String.append_empty (s := hole "_error"), expand_literal (by decide), expand_hole (by decide),
    expand_literal (by decide), expand_hole (by decide), expand_plain (by decide), shown _ number,
    fill_of_find (Json.findMember_insertMember _ _ _), String.append_empty]

/-- The text of a plain error is the one that was given. -/
theorem text_plainError (code : ErrorCode) (text : String) : (Session.plainError code text).text = text := by
  simp only [Session.plainError, ErrorMessage.text, withText, withValue]
  rw [← String.append_empty (s := hole _), expand_hole (by decide), expand_plain (by decide),
    fill_of_find (Json.findMember_insertMember _ _ _), String.append_empty]

end ErrorMessage

end DebugAdapter
