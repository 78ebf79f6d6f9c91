import DebugAdapter.Json.Basic
import DebugAdapter.Path.Basic

/-!
# Source maps

Where the sources named in the debug info lie for the client. A map is a list of pairs of prefixes, a
debuggee's and a client's, and it is applied in both directions. Prefixes are compared with slashes
for all separators and a slash at the end, so that one never ends inside a name.

Main statement: a path that no prefix fits is left as it is (`apply_of_forall_not_isPrefixOf`).
-/

namespace DebugAdapter

/-- A prefix to look for, and what to put in its place. -/
structure PrefixRule where
  source : List Char
  target : String
  deriving DecidableEq, Repr

namespace PrefixRule

/-- The rule for two prefixes as they were written. -/
def ofPrefixes (source target : String) : PrefixRule :=
  let source := Path.forward source.toList
  ⟨if source.getLast? = some '/' then source else source ++ ['/'], target⟩

/-- The length by which rules are ordered: the bytes of the prefix looked for. -/
def size (r : PrefixRule) : Nat :=
  (String.ofList r.source).utf8ByteSize

/-- Put the rest of a path behind the new prefix, in the style of separators of that prefix. -/
def join (target : String) (rest : List Char) : String :=
  if rest.isEmpty then target
  else
    let letters := target.toList
    -- one backslash in the new prefix makes all separators backslashes
    let windows := letters.contains '\\'
    let last := letters.getLast?
    let separator :=
      if last = some '/' ∨ last = some '\\' then [] else [if windows then '\\' else '/']
    String.ofList (letters ++ separator ++ (if windows then Path.backward rest else rest))

/-- Apply a rule to a path with slashes, if its prefix fits. -/
def substitute? (r : PrefixRule) (path : List Char) : Option String :=
  if r.source.isPrefixOf path then some (join r.target (path.drop r.source.length)) else none

end PrefixRule

/-- Rules in the order in which they are tried: longer prefixes first, equally long ones as they were
given. -/
def sortRules (rules : List PrefixRule) : List PrefixRule :=
  rules.mergeSort fun a b => b.size ≤ a.size

/-- Rules for both directions. -/
structure SourceMap where
  toClientRules : List PrefixRule := []
  toTargetRules : List PrefixRule := []
  deriving DecidableEq, Repr

namespace SourceMap

/-- The map of pairs of a debuggee's and a client's prefix. -/
def ofPairs (pairs : List (String × String)) : SourceMap where
  toClientRules := sortRules (pairs.map fun (target, client) => .ofPrefixes target client)
  toTargetRules := sortRules (pairs.map fun (target, client) => .ofPrefixes client target)

/-- The map that a client gives in the arguments of a request. A member of another value than a text
is left out. -/
def ofArguments (arguments : Json) : SourceMap :=
  match arguments.member? "sourceMap" with
  | some (.obj members) =>
    ofPairs (members.filterMap fun (target, client) => client.toString?.map (target, ·))
  | _ => {}

/-- The map has no rules. -/
def isEmpty (m : SourceMap) : Bool :=
  m.toClientRules.isEmpty

/-- Apply the first rule that fits. -/
def apply (rules : List PrefixRule) (path : String) : String :=
  (rules.findSome? (·.substitute? (Path.forward path.toList))).getD path

/-- The client's path of a debuggee's file. -/
def toClient (m : SourceMap) (path : String) : String :=
  apply m.toClientRules path

/-- The debuggee's path of a client's file. -/
def toTarget (m : SourceMap) (path : String) : String :=
  apply m.toTargetRules path

/-- A path that begins with none of the prefixes stays as it is. -/
theorem apply_of_forall_not_isPrefixOf {rules : List PrefixRule} {path : String}
    (h : ∀ r ∈ rules, r.source.isPrefixOf (Path.forward path.toList) = false) :
    apply rules path = path := by
  have : rules.findSome? (·.substitute? (Path.forward path.toList)) = none :=
    List.findSome?_eq_none_iff.mpr fun r hr => by simp [PrefixRule.substitute?, h r hr]
  simp [apply, this]

end SourceMap

end DebugAdapter
