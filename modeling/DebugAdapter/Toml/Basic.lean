/-!
# TOML documents

The values of TOML and the rules by which tables grow. A table is opened by a header, made on the way
to one, made by a dotted key, or written inline; what may be put into a table later depends on which
of these it was. Nothing is ever defined twice: a key that is there is refused.
-/

namespace DebugAdapter

/-- How a table came to be. -/
inductive TableKind
  /-- Written inline; nothing may be added. -/
  | inline
  /-- Made on the way to a table of a header. -/
  | implicit
  /-- Opened by a header. -/
  | header
  /-- Made by a dotted key. -/
  | dotted
  deriving DecidableEq, Repr

/-- A TOML value. Dates and numbers that are no integers are told apart from other values only. -/
inductive Toml
  | text (s : String)
  | integer (n : Int)
  | float
  | date
  | bool (b : Bool)
  | array (elements : List Toml)
  | table (kind : TableKind) (members : List (String × Toml))
  /-- An array of tables that headers have opened, the last one first. -/
  | tables (list : List (List (String × Toml)))
  deriving Repr

/-- The members of a table, in the order in which they were defined. -/
abbrev Toml.Members := List (String × Toml)

namespace Toml.Members

/-- The value under a key. -/
def find? (m : Members) (key : String) : Option Toml :=
  (List.find? (·.1 == key) m).map (·.2)

/-- Define a key that is not there yet. -/
def insert? (m : Members) (key : String) (v : Toml) : Option Members :=
  if m.any (·.1 == key) then none else some (m ++ [(key, v)])

/-- Put a value in the place of the one under a key, or at the end. -/
def put (m : Members) (key : String) (v : Toml) : Members :=
  if m.any (·.1 == key) then m.map fun e => if e.1 == key then (key, v) else e else m ++ [(key, v)]

/-- Take a key out. -/
def erase (m : Members) (key : String) : Members :=
  m.filter (·.1 != key)

/-- Define a dotted key. `direct` tells whether a value may be put right into this table. -/
def define? (direct : Bool) (m : Members) (v : Toml) : (keys : List String) → Option Members
  | [] => none
  | [key] => if direct then m.insert? key v else none
  | key :: keys => do
    let inner ← match m.find? key with
      | none => (define? true [] v keys).map (Toml.table .dotted)
      | some (.table .dotted inner) => (define? true inner v keys).map (Toml.table .dotted)
      | some (.table .implicit inner) => (define? false inner v keys).map (Toml.table .implicit)
      | some (.tables (last :: others)) =>
        (define? false last v keys).map fun last => Toml.tables (last :: others)
      | some _ => none
    return m.put key inner

/-- Open the table of a header, which puts it behind the other members. -/
def openTable? (m : Members) : (keys : List String) → Option Members
  | [] => none
  | [key] => do
    let opened ← match m.find? key with
      | none => some (Toml.table .header [])
      | some (.table .implicit inner) => some (Toml.table .header inner)
      | some _ => none
    -- a table counts as defined where its header stands
    return m.erase key ++ [(key, opened)]
  | key :: keys => do
    let inner ← match m.find? key with
      | none => (openTable? [] keys).map (Toml.table .implicit)
      | some (.table .inline _) => none
      | some (.table kind inner) => (openTable? inner keys).map (Toml.table kind)
      | some (.tables (last :: others)) =>
        (openTable? last keys).map fun last => Toml.tables (last :: others)
      | some _ => none
    return m.put key inner

/-- Add a table to the array of tables of a header. -/
def appendTable? (m : Members) : (keys : List String) → Option Members
  | [] => none
  | [key] => do
    let appended ← match m.find? key with
      | none => some (Toml.tables [[]])
      | some (.tables list) => some (Toml.tables ([] :: list))
      | some _ => none
    return m.put key appended
  | key :: keys => do
    let inner ← match m.find? key with
      | none => (appendTable? [] keys).map (Toml.table .implicit)
      | some (.table .inline _) => none
      | some (.table kind inner) => (appendTable? inner keys).map (Toml.table kind)
      | some (.tables (last :: others)) =>
        (appendTable? last keys).map fun last => Toml.tables (last :: others)
      | some _ => none
    return m.put key inner

/-- Change the table that a header has opened. -/
def within? (f : Members → Option Members) (m : Members) : (header : List String) → Option Members
  | [] => f m
  | key :: keys => do
    let inner ← match m.find? key with
      | some (.table kind inner) => (within? f inner keys).map (Toml.table kind)
      | some (.tables (last :: others)) =>
        (within? f last keys).map fun last => Toml.tables (last :: others)
      | _ => none
    return m.put key inner

end Toml.Members

end DebugAdapter
