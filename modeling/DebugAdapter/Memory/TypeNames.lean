/-!
# Cached type names

The names of the types met last, at most `capacity` of them. A name that is looked up or stored
becomes the most recent one; when the cache is full, the name used longest ago is forgotten.

Main statements: a lookup returns only what was stored under the key (`mem_of_lookup`), and the cache
never holds more than `capacity` names (`length_insert_le`).
-/

namespace DebugAdapter

/-- A type: the base of its module and its number there. -/
structure TypeKey where
  moduleBase : UInt64
  typeId : UInt32
  deriving DecidableEq, Repr

/-- Names of types, most recently used first. -/
structure TypeNameCache where
  entries : List (TypeKey × String) := []
  deriving DecidableEq, Repr

namespace TypeNameCache

/-- The number of names kept. -/
def capacity : Nat := 1024

/-- The entries but for a key. -/
def without (c : TypeNameCache) (k : TypeKey) : List (TypeKey × String) :=
  c.entries.filter (·.1 != k)

/-- The name under a key, and the cache with that name as the most recent one. -/
def lookup (c : TypeNameCache) (k : TypeKey) : Option String × TypeNameCache :=
  match c.entries.find? (·.1 == k) with
  | some e => (some e.2, ⟨e :: c.without k⟩)
  | none => (none, c)

/-- Store a name. -/
def insert (c : TypeNameCache) (k : TypeKey) (name : String) : TypeNameCache :=
  -- the name used longest ago stands last
  ⟨((k, name) :: c.without k).take capacity⟩

/-- A name that is found in the cache is one of its entries. -/
theorem mem_of_lookup {c : TypeNameCache} {k : TypeKey} {name : String}
    (h : (c.lookup k).1 = some name) : (k, name) ∈ c.entries := by
  unfold lookup at h
  split at h
  · rename_i e he
    have hk := List.find?_some he
    simp only [Option.some.injEq] at h
    simp only [beq_iff_eq] at hk
    exact hk ▸ h ▸ List.mem_of_find?_eq_some he
  · simp at h

/-- The cache never holds more names than its capacity. -/
theorem length_insert_le (c : TypeNameCache) (k : TypeKey) (name : String) :
    (c.insert k name).entries.length ≤ capacity := by
  simp only [insert, List.length_take]
  omega

end TypeNameCache

end DebugAdapter
