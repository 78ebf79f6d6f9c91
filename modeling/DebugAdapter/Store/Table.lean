/-!
# Tables

Values under keys, in the order in which the keys were put in. No key occurs twice; a table carries
the proof of that, so what is listed under a key is what a lookup finds.

## Key results

- `get?_eq_some_iff`: a lookup finds exactly what is listed
- `get?_insert`, `get?_erase`, `get?_modify`: what a lookup finds after each change
- `keys_insert`, `keys_erase`, `keys_modify`: which keys there are after each change
-/

namespace DebugAdapter

/-- Values under keys that occur once. -/
structure Table (κ α : Type) where
  entries : List (κ × α) := []
  nodup : (entries.map (·.1)).Nodup := by exact List.nodup_nil
  deriving DecidableEq

namespace Table

variable {κ α : Type} [DecidableEq κ]

/-- The keys, in the order they were put in. -/
def keys (t : Table κ α) : List κ :=
  t.entries.map (·.1)

/-- The values, in the order their keys were put in. -/
def values (t : Table κ α) : List α :=
  t.entries.map (·.2)

/-- The value under a key. -/
def get? (t : Table κ α) (k : κ) : Option α :=
  (t.entries.find? (·.1 = k)).map (·.2)

/-- There is a value under a key. -/
def contains (t : Table κ α) (k : κ) : Bool :=
  (t.get? k).isSome

/-- Put a value under a key of a list of entries: in the place of the value it has, else at the end. -/
def putEntry (k : κ) (a : α) : List (κ × α) → List (κ × α)
  | [] => [(k, a)]
  | e :: rest => if e.1 = k then (k, a) :: rest else e :: putEntry k a rest

/-- A key that is there keeps its place, and a new one goes to the end. -/
private theorem keys_putEntry (k : κ) (a : α) (l : List (κ × α)) :
    (putEntry k a l).map (·.1) =
      if k ∈ l.map (·.1) then l.map (·.1) else l.map (·.1) ++ [k] := by
  induction l with
  | nil => rfl
  | cons e rest ih =>
    simp only [putEntry]
    split
    · next he => simp [he]
    · next he =>
      simp only [List.map_cons, ih, List.mem_cons, Ne.symm he, false_or]
      split <;> rfl

/-- Putting an entry gives no key a second place. -/
private theorem nodup_putEntry {k : κ} {l : List (κ × α)} (a : α) (h : (l.map (·.1)).Nodup) :
    ((putEntry k a l).map (·.1)).Nodup := by
  rw [keys_putEntry]
  split
  · exact h
  · next hk =>
    rw [List.nodup_append]
    refine ⟨h, by simp, ?_⟩
    -- a key that goes to the end is not in front of it
    intro x hx y hy hxy
    obtain rfl := List.mem_singleton.1 hy
    exact hk (hxy ▸ hx)

/-- Put a value under a key, in the place of the value it has. A new key comes last. -/
def insert (t : Table κ α) (k : κ) (a : α) : Table κ α :=
  ⟨putEntry k a t.entries, nodup_putEntry a t.nodup⟩

/-- Take the value under a key out; the others keep their order. -/
def erase (t : Table κ α) (k : κ) : Table κ α where
  entries := t.entries.filter (·.1 ≠ k)
  nodup := t.nodup.sublist ((List.filter_sublist).map _)

/-- Change the value under a key, if there is one. -/
def modify (t : Table κ α) (k : κ) (f : α → α) : Table κ α where
  entries := t.entries.map fun e => if e.1 = k then (e.1, f e.2) else e
  nodup := by
    have h : (t.entries.map fun e => if e.1 = k then (e.1, f e.2) else e).map (·.1) =
        t.entries.map (·.1) := by
      rw [List.map_map]
      exact List.map_congr_left fun e _ => by simp only [Function.comp]; split <;> rfl
    rw [h]
    exact t.nodup

/-! ### Lookup -/

/-- What is found under a key is the entry with it: no key has two. -/
theorem get?_eq_some_iff {t : Table κ α} {k : κ} {a : α} :
    t.get? k = some a ↔ (k, a) ∈ t.entries := by
  obtain ⟨l, hl⟩ := t
  simp only [get?, Option.map_eq_some_iff]
  induction l with
  | nil => simp
  | cons e rest ih =>
    obtain ⟨hnot, hrest⟩ := List.nodup_cons.1 hl
    -- the key of the first entry is on no later one
    have key : ∀ b, (k, b) ∈ rest → e.1 ≠ k := by
      rintro b hb rfl
      exact hnot (List.mem_map_of_mem (f := (·.1)) hb)
    simp only [List.find?_cons, List.mem_cons]
    -- under the key of the first entry only that entry is found
    by_cases he : e.1 = k
    · simp only [he, decide_true, Option.some.injEq]
      constructor
      · rintro ⟨_, rfl, rfl⟩
        exact .inl (by rw [← he])
      · rintro (h | h)
        · exact ⟨e, rfl, by rw [← h]⟩
        · exact absurd he (key _ h)
    · simp only [he, decide_false, ih hrest]
      constructor
      · exact .inr
      · rintro (h | h)
        · exact absurd (by rw [← h]) he
        · exact h

/-- A table contains a key if something is found under it. -/
theorem contains_iff {t : Table κ α} {k : κ} : t.contains k = true ↔ ∃ a, t.get? k = some a := by
  simp only [contains, Option.isSome_iff_exists]

/-- The keys are those under which something is found. -/
theorem mem_keys_iff {t : Table κ α} {k : κ} : k ∈ t.keys ↔ ∃ a, t.get? k = some a := by
  simp only [keys, List.mem_map, get?_eq_some_iff]
  constructor
  · rintro ⟨e, he, rfl⟩
    exact ⟨e.2, he⟩
  · rintro ⟨a, ha⟩
    exact ⟨(k, a), ha, rfl⟩

/-- The values are those that are found under some key. -/
theorem mem_values_iff {t : Table κ α} {a : α} : a ∈ t.values ↔ ∃ k, t.get? k = some a := by
  simp only [values, List.mem_map, get?_eq_some_iff]
  constructor
  · rintro ⟨e, he, rfl⟩
    exact ⟨e.1, he⟩
  · rintro ⟨k, hk⟩
    exact ⟨(k, a), hk, rfl⟩

/-- Nothing is found under what is no key. -/
theorem get?_eq_none_iff {t : Table κ α} {k : κ} : t.get? k = none ↔ k ∉ t.keys := by
  rw [mem_keys_iff]
  cases t.get? k <;> simp

/-- Nothing is found in an empty table. -/
@[simp] theorem get?_empty (k : κ) : ({} : Table κ α).get? k = none := rfl

/-! ### Changes -/

/-- After an entry was put, there are it and those under other keys. -/
private theorem mem_putEntry {k : κ} {a : α} {l : List (κ × α)} (h : (l.map (·.1)).Nodup)
    {e : κ × α} : e ∈ putEntry k a l ↔ e = (k, a) ∨ e ∈ l ∧ e.1 ≠ k := by
  induction l with
  | nil => simp [putEntry]
  | cons x rest ih =>
    obtain ⟨hnot, hrest⟩ := List.nodup_cons.1 h
    -- the key of the first entry is on no later one
    have key : ∀ y ∈ rest, y.1 ≠ x.1 := by
      intro y hy hxy
      exact hnot (List.mem_map.2 ⟨y, hy, hxy⟩)
    simp only [putEntry]
    split
    · next hx =>
      -- the entry goes where the key is, and what is behind has other keys
      simp only [List.mem_cons, ← hx]
      constructor
      · rintro (he | he)
        · exact .inl he
        · exact .inr ⟨.inr he, key e he⟩
      · rintro (he | ⟨rfl | he, hne⟩)
        · exact .inl he
        · exact absurd rfl hne
        · exact .inr he
    · next hx =>
      -- the first entry stays, and it has another key
      simp only [List.mem_cons, ih hrest]
      constructor
      · rintro (rfl | rfl | ⟨he, hne⟩)
        · exact .inr ⟨.inl rfl, hx⟩
        · exact .inl rfl
        · exact .inr ⟨.inr he, hne⟩
      · rintro (rfl | ⟨rfl | he, hne⟩)
        · exact .inr (.inl rfl)
        · exact .inl rfl
        · exact .inr (.inr ⟨he, hne⟩)

/-- What is inserted is found under its key, and all else as before. -/
theorem get?_insert (t : Table κ α) (k : κ) (a : α) (k' : κ) :
    (t.insert k a).get? k' = if k' = k then some a else t.get? k' := by
  ext b
  rw [get?_eq_some_iff, insert, mem_putEntry t.nodup]
  split
  · next h => simp [h, eq_comm]
  · next h => simp [h, get?_eq_some_iff]

/-- Nothing is found under a key that was erased, and all else as before. -/
theorem get?_erase (t : Table κ α) (k k' : κ) :
    (t.erase k).get? k' = if k' = k then none else t.get? k' := by
  ext b
  rw [get?_eq_some_iff, erase]
  split
  · next h => simp [h]
  · next h => simp [h, get?_eq_some_iff]

/-- A value is changed under its key, and all else is found as before. -/
theorem get?_modify (t : Table κ α) (k : κ) (f : α → α) (k' : κ) :
    (t.modify k f).get? k' = if k' = k then (t.get? k').map f else t.get? k' := by
  ext b
  rw [get?_eq_some_iff, modify]
  simp only [List.mem_map]
  split
  · next h =>
    subst h
    simp only [Option.map_eq_some_iff, get?_eq_some_iff]
    constructor
    · -- an entry that is found was changed if it is under the key
      rintro ⟨e, he, heq⟩
      split at heq
      · next hk => cases heq; exact ⟨e.2, hk ▸ he, rfl⟩
      · next hk => cases heq; exact absurd rfl hk
    · rintro ⟨c, hc, rfl⟩
      exact ⟨(k', c), hc, by simp⟩
  · next h =>
    -- under any other key nothing was changed
    rw [get?_eq_some_iff]
    constructor
    · rintro ⟨e, he, heq⟩
      split at heq
      · next hk => cases heq; exact absurd hk h
      · cases heq; exact he
    · intro hb
      exact ⟨(k', b), hb, by simp [h]⟩

/-- A new key comes last. -/
theorem keys_insert (t : Table κ α) (k : κ) (a : α) :
    (t.insert k a).keys = if k ∈ t.keys then t.keys else t.keys ++ [k] :=
  keys_putEntry k a t.entries

/-- Inserting adds no other key than the one given. -/
theorem mem_keys_insert {t : Table κ α} {k k' : κ} {a : α} :
    k' ∈ (t.insert k a).keys ↔ k' ∈ t.keys ∨ k' = k := by
  rw [keys_insert]
  split
  · next h => exact ⟨.inl, fun h' => h'.elim id (· ▸ h)⟩
  · simp

/-- Erasing takes one key out, and the others keep their order. -/
theorem keys_erase (t : Table κ α) (k : κ) : (t.erase k).keys = t.keys.filter (· ≠ k) := by
  simp only [keys, erase, List.filter_map]
  rfl

/-- The keys that are left are the others. -/
theorem mem_keys_erase {t : Table κ α} {k k' : κ} :
    k' ∈ (t.erase k).keys ↔ k' ∈ t.keys ∧ k' ≠ k := by
  simp [keys_erase]

/-- Changing a value leaves the keys and their order. -/
theorem keys_modify (t : Table κ α) (k : κ) (f : α → α) : (t.modify k f).keys = t.keys := by
  simp only [keys, modify, List.map_map]
  exact List.map_congr_left fun e _ => by simp only [Function.comp]; split <;> rfl

end Table

end DebugAdapter
