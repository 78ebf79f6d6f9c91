import DebugAdapter.Width

/-!
# JSON values

The members of an object are kept in ascending order of their names, each name once. An object that
is put together by `Json.object` keeps the last of several members of one name.

Main statement: an inserted member is found under its name (`findMember_insertMember`).
-/

namespace DebugAdapter

/-- A JSON value. Whole numbers that fit 64 bits, signed or unsigned, are integers; any other number
is kept as it is written. -/
inductive Json
  | null
  | bool (b : Bool)
  | int (n : Int)
  | fraction (literal : String)
  | str (s : String)
  | arr (elements : List Json)
  | obj (members : List (String × Json))
  deriving Repr

instance : Inhabited Json := ⟨.null⟩

namespace Json

/-- Put a member into its place. -/
def insertMember (name : String) (value : Json) : List (String × Json) → List (String × Json)
  | [] => [(name, value)]
  | m :: rest =>
    if name = m.1 then (name, value) :: rest
    else if name < m.1 then (name, value) :: m :: rest
    else m :: insertMember name value rest

/-- The object of some members. -/
def object (members : List (String × Json)) : Json :=
  .obj (members.foldl (fun sorted m => insertMember m.1 m.2 sorted) [])

/-- The value of the member of a name. -/
def findMember (name : String) (members : List (String × Json)) : Option Json :=
  (members.find? (·.1 == name)).map (·.2)

/-- The member of an object; other values have none. -/
def member? (name : String) : Json → Option Json
  | obj members => findMember name members
  | _ => none

/-- An object with a member put in; other values stay as they are. -/
def withMember (j : Json) (name : String) (value : Json) : Json :=
  match j with
  | obj members => .obj (insertMember name value members)
  | j => j

/-- The value is `null`. -/
def isNull : Json → Bool
  | null => true
  | _ => false

/-- The text that a value is. -/
def toString? : Json → Option String
  | str s => some s
  | _ => none

/-- The truth value that a value is. -/
def toBool? : Json → Option Bool
  | bool b => some b
  | _ => none

/-- The signed 64 bit integer that a value is. -/
def toInt64? : Json → Option Int
  | int n => if fitsInt64 n then some n else none
  | _ => none

/-- The elements of an array. -/
def toList? : Json → Option (List Json)
  | arr l => some l
  | _ => none

/-- A member is found under the name it was put under. -/
theorem findMember_insertMember (name : String) (value : Json) (members : List (String × Json)) :
    findMember name (insertMember name value members) = some value := by
  induction members with
  | nil => simp [insertMember, findMember]
  | cons m rest ih =>
    unfold insertMember
    split
    · simp [findMember]
    · split
      · simp [findMember]
      · have : (m.1 == name) = false := by simp; exact Ne.symm ‹_›
        simpa [findMember, this] using ih

/-- Putting a member under one name leaves what is found under the others. -/
theorem findMember_insertMember_of_ne {name other : String} (ne : name ≠ other) (value : Json)
    (members : List (String × Json)) :
    findMember name (insertMember other value members) = findMember name members := by
  -- a member of the other name is passed over
  have skip : ∀ (v : Json) (l : List (String × Json)),
      findMember name ((other, v) :: l) = findMember name l := by
    intro v l
    have : (other == name) = false := beq_eq_false_iff_ne.2 (Ne.symm ne)
    simp only [findMember, List.find?_cons, this]
  induction members with
  | nil => exact skip value []
  | cons m rest ih =>
    unfold insertMember
    split
    · next same =>
      -- the member in this place has the other name as well
      obtain ⟨k, v⟩ := m
      obtain rfl : other = k := same
      rw [skip, skip]
    split
    · -- the new member goes in front of this one
      exact skip value _
    · simp only [findMember, List.find?_cons] at ih ⊢
      split
      · rfl
      · exact ih

end Json

end DebugAdapter
