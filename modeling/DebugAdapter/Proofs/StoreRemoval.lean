import DebugAdapter.Proofs.StaleHandles

/-!
# What is removed

An entity is removed with all that hangs below it, and nothing else is: what is found under any other
handle, and its holder, are as they were.

The removal works on a stack. What it leaves is told by what hangs below the entities on the stack
(`ConsistentExcept.read_removeAll`): when the top of the stack is forgotten, all that hung below it
hangs below what it held, and that is on the stack then.

## Key results

- `Consistent.removed_removeChildren`: the proper descendants of an entity are removed
- `Consistent.removed_retainThreads`: threads are removed with all that they own
- `Consistent.owner_unique`, `Consistent.exists_owner`: every entity is owned by one thread
-/

namespace DebugAdapter.Store

variable {s : Store} {a b g h p : Handle}

/-! ## What hangs below an entity -/

/-- `h` is `a`, or hangs below it. -/
inductive Under (s : Store) (a : Handle) : Handle → Prop
  | refl : Under s a a
  | step {h p : Handle} : s.parent? h = some p → Under s a p → Under s a h

/-- `h` hangs below `a`. -/
def Below (s : Store) (a h : Handle) : Prop :=
  ∃ p, s.parent? h = some p ∧ s.Under a p

/-- What is under `b` is under whatever `b` is under. -/
theorem Under.trans (hab : s.Under a b) (hbg : s.Under b g) : s.Under a g := by
  induction hbg with
  | refl => exact hab
  | step held _ ih => exact .step held ih

/-- What is strictly below an entity is under it. -/
theorem Below.under (h : s.Below a g) : s.Under a g := by
  obtain ⟨p, held, under⟩ := h
  exact .step held under

/-- What is under an entity is the entity itself or strictly below it. -/
theorem Under.eq_or_below (h : s.Under a g) : g = a ∨ s.Below a g := by
  cases h with
  | refl => exact .inl rfl
  | step held under => exact .inr ⟨_, held, under⟩

/-- What hangs below an entity hangs below, or is, something that it holds. -/
theorem Below.exists_child (below : s.Below a g) : ∃ c, s.parent? c = some a ∧ s.Under c g := by
  obtain ⟨p, held, under⟩ := below
  induction under generalizing g with
  | refl => exact ⟨g, held, .refl⟩
  | step held' _ ih =>
    obtain ⟨c, hc, under⟩ := ih held'
    exact ⟨c, hc, .step held under⟩

/-- What is under a child is strictly below its holder. -/
theorem Below.of_child (held : s.parent? b = some a) (under : s.Under b g) : s.Below a g := by
  cases under with
  | refl => exact ⟨a, held, .refl⟩
  | step held' under => exact ⟨_, held', .trans (.step held .refl) under⟩

/-- What is under an entity has no smaller handle, since handles increase along the edges. -/
theorem ConsistentExcept.raw_le_of_under {stack : List Handle} (hs : s.ConsistentExcept stack)
    (under : s.Under a g) : a.raw ≤ g.raw := by
  induction under with
  | refl => exact Int.le_refl _
  | step held _ ih =>
    have older := hs.parent_lt held
    omega

/-! ## Forgetting an entity -/

/-- Forgetting an entity puts nothing under another that was not under it before. -/
theorem Under.of_forget (under : (s.forget h).Under a g) : s.Under a g := by
  induction under with
  | refl => exact .refl
  | step held _ ih =>
    rw [parent?, parents_forget] at held
    split at held
    · cases held
    · exact .step held ih

/-- What hangs below an entity still does when another one is forgotten, unless it hangs below that. -/
theorem Under.forget (under : s.Under a g) (h : Handle) : (s.forget h).Under a g ∨ s.Under h g := by
  induction under with
  | refl => exact .inl .refl
  | @step g p held _ ih =>
    by_cases e : g = h
    · exact .inr (e ▸ .refl)
    · rcases ih with kept | cut
      · refine .inl (.step ?_ kept)
        rwa [parent?, parents_forget, if_neg e]
      · exact .inr (.step held cut)

/-- What hangs below something that an entity holds still does when the entity is forgotten. -/
private theorem ConsistentExcept.under_forget_of_child {stack : List Handle}
    (hs : s.ConsistentExcept stack) {c : Handle} (held : s.parent? c = some h)
    (under : s.Under c g) : (s.forget h).Under c g := by
  induction under with
  | refl => exact .refl
  | @step g p held' under ih =>
    -- handles grow downwards, so the way up from `g` does not reach `h` before `c`
    have first := hs.parent_lt held
    have above := hs.raw_le_of_under under
    have older := hs.parent_lt held'
    have ne : g ≠ h := fun e => by subst e; omega
    refine .step ?_ ih
    rwa [parent?, parents_forget, if_neg ne]

/-- When the entity on top of a stack is forgotten, what hung below it hangs below what it held. -/
theorem ConsistentExcept.under_forget_iff {rest : List Handle}
    (hs : s.ConsistentExcept (h :: rest)) :
    (g = h ∨ ∃ a ∈ (s.children h).reverse ++ rest, (s.forget h).Under a g) ↔
      ∃ a ∈ h :: rest, s.Under a g := by
  -- what it held is on the list of its children, or on the stack already
  have below : s.Below h g → ∃ a ∈ (s.children h).reverse ++ rest, (s.forget h).Under a g := by
    intro below
    obtain ⟨c, held, under⟩ := below.exists_child
    refine ⟨c, ?_, hs.under_forget_of_child held under⟩
    rw [List.mem_append, List.mem_reverse]
    by_cases on : c ∈ rest
    · exact .inr on
    · have older := hs.parent_lt held
      have ne : c ≠ h := fun e => by subst e; omega
      exact .inl (hs.mem_children_of_parent held (by simp [ne, on]))
  constructor
  · rintro (rfl | ⟨a, mem, under⟩)
    · exact ⟨g, List.mem_cons_self, .refl⟩
    · rcases List.mem_append.1 mem with mem | mem
      · have held := hs.parent_of_mem_children (List.mem_reverse.1 mem)
        exact ⟨h, List.mem_cons_self, (Below.of_child held under.of_forget).under⟩
      · exact ⟨a, List.mem_cons_of_mem _ mem, under.of_forget⟩
  · -- it is the forgotten entity, or below it, or under another entity of the stack by a way that avoids it
    -- or leads through it
    rintro ⟨a, mem, under⟩
    rcases List.mem_cons.1 mem with rfl | mem
    · exact under.eq_or_below.imp_right below
    · rcases under.forget h with kept | cut
      · exact .inr ⟨a, List.mem_append_right _ mem, kept⟩
      · exact cut.eq_or_below.imp_right below

/-! ## Removal -/

/-- What the store says of a handle is said no more when the handle is forgotten, and is not changed
when another one is. -/
def ReadsAt (g : Handle) {α : Type} (read : Store → Option α) : Prop :=
  ∀ s h, read (s.forget h) = if g = h then none else read s

/-- Finding an entity reads at its handle. -/
theorem readsAt_get? (g : Handle) : ReadsAt g (·.get? g) :=
  fun s h => get?_forget s h g

/-- Finding the holder of an entity reads at its handle. -/
theorem readsAt_parent? (g : Handle) : ReadsAt g (·.parent? g) :=
  fun s h => parents_forget s h g

/-- What is left when the stack is empty: nothing of what hung below it, and all else as it was. -/
private theorem ConsistentExcept.read_removeAll {α : Type} {read : Store → Option α}
    (reads : ReadsAt g read) (stack : List Handle) (s : Store) (hs : s.ConsistentExcept stack) :
    ((∃ a ∈ stack, s.Under a g) → read (s.removeAll stack) = none) ∧
      ((¬∃ a ∈ stack, s.Under a g) → read (s.removeAll stack) = read s) := by
  -- along the removal: an entity is read as before until its own turn comes
  fun_induction Store.removeAll stack s with
  | case1 s =>
    refine ⟨?_, fun _ => rfl⟩
    rintro ⟨_, mem, _⟩
    exact absurd mem List.not_mem_nil
  | case2 h rest s ih =>
    obtain ⟨gone, kept⟩ := ih hs.forget
    rw [← hs.under_forget_iff]
    refine ⟨fun some => ?_, fun no => ?_⟩
    · by_cases later : ∃ a ∈ (s.children h).reverse ++ rest, (s.forget h).Under a g
      · exact gone later
      · rw [kept later, reads, if_pos (some.resolve_right later)]
    · rw [not_or] at no
      rw [kept no.2, reads, if_neg no.1]

/-- From `s` to `s'` what has `p` was removed, and nothing was done to anything else. -/
structure Removed (s s' : Store) (p : Handle → Prop) : Prop where
  get?_eq_none : ∀ {h}, p h → s'.get? h = none
  parent?_eq_none : ∀ {h}, p h → s'.parent? h = none
  get?_eq : ∀ {h}, ¬p h → s'.get? h = s.get? h
  parent?_eq : ∀ {h}, ¬p h → s'.parent? h = s.parent? h

/-- What is removed may be described by any equivalent condition. -/
theorem Removed.congr {s' : Store} {p q : Handle → Prop} (removed : s.Removed s' p)
    (same : ∀ h, p h ↔ q h) : s.Removed s' q := by
  obtain rfl : p = q := funext fun h => propext (same h)
  exact removed

/-- Removing a stack of entities removes exactly what is under one of them. -/
theorem ConsistentExcept.removed_removeAll {stack : List Handle} (hs : s.ConsistentExcept stack) :
    s.Removed (s.removeAll stack) fun h => ∃ a ∈ stack, s.Under a h where
  get?_eq_none := (hs.read_removeAll (readsAt_get? _) stack s).1
  parent?_eq_none := (hs.read_removeAll (readsAt_parent? _) stack s).1
  get?_eq := (hs.read_removeAll (readsAt_get? _) stack s).2
  parent?_eq := (hs.read_removeAll (readsAt_parent? _) stack s).2

/-- What hangs below an entity is what hangs below, or is, something on the list of what it holds. -/
theorem Consistent.under_children_iff (hs : s.Consistent) :
    (∃ a ∈ s.children h, s.Under a g) ↔ s.Below h g := by
  constructor
  · rintro ⟨a, mem, under⟩
    exact .of_child (hs.parent_of_mem_children mem) under
  · intro below
    obtain ⟨c, held, under⟩ := below.exists_child
    exact ⟨c, hs.mem_children_of_parent held List.not_mem_nil, under⟩

/-- The proper descendants of an entity are removed. -/
theorem Consistent.removed_removeChildren (hs : s.Consistent) (h : Handle) :
    s.Removed (s.removeChildren h) (s.Below h) := by
  rw [removeChildren_eq]
  exact (hs.except (s.children h)).removed_removeAll.congr fun g => hs.under_children_iff

/-! ## Owners -/

/-- `h` is the thread with a system id, or hangs below it. -/
def OwnedBy (s : Store) (h : Handle) (id : UInt32) : Prop :=
  ∃ t thread, s.threadAt? t = some thread ∧ thread.systemId = id ∧ s.Under t h

/-- A thread has no holder. -/
private theorem Consistent.parent?_of_threadAt? (hs : s.Consistent) {thread : Thread}
    (root : s.threadAt? h = some thread) : s.parent? h = none := by
  obtain ⟨r, hr, -⟩ := Option.map_eq_some_iff.1 root
  have is : h ∈ s.handlesOf .thread := Table.mem_keys_iff.2 ⟨r, hr⟩
  cases held : s.parents.get? h with
  | none => exact held
  | some p =>
    obtain ⟨k, ne, hk⟩ := hs.parent_iff.1 ⟨p, held⟩
    exact absurd (hs.kind_unique hk is) ne

/-- The way up from an entity ends at one thread. -/
theorem Consistent.owner_unique (hs : s.Consistent) {id id' : UInt32} (owned : s.OwnedBy h id)
    (owned' : s.OwnedBy h id') : id = id' := by
  obtain ⟨t, thread, root, rfl, under⟩ := owned
  obtain ⟨t', thread', root', rfl, under'⟩ := owned'
  -- both ways up end at a thread, and an entity has one holder only, so they are the same way
  have same : t = t' := by
    induction under with
    | refl =>
      cases under' with
      | refl => rfl
      | step held _ => exact absurd held (by rw [hs.parent?_of_threadAt? root]; nofun)
    | step held _ ih =>
      cases under' with
      | refl => exact absurd held (by rw [hs.parent?_of_threadAt? root']; nofun)
      | step held' under' =>
        obtain rfl := Option.some.inj (held.symm.trans held')
        exact ih under'
  subst same
  rw [Option.some.inj (root.symm.trans root')]

/-- Every entity is owned by a thread. -/
theorem Consistent.exists_owner (hs : s.Consistent) {k : EntityKind} {h : Handle}
    (hk : h ∈ s.handlesOf k) : ∃ id, s.OwnedBy h id := by
  by_cases e : k = .thread
  · subst e
    obtain ⟨r, hr⟩ := Table.mem_keys_iff.1 hk
    exact ⟨_, h, r.content, by rw [threadAt?, hr]; rfl, rfl, .refl⟩
  · obtain ⟨p, hp⟩ := hs.parent_iff.2 ⟨k, e, hk⟩
    obtain ⟨kp, -, hkp, -, -⟩ := hs.parent_live hp List.not_mem_nil
    have older := hs.parent_lt hp
    have range := hs.handle_range hk
    obtain ⟨id, t, thread, root, same, under⟩ := hs.exists_owner hkp
    exact ⟨id, t, thread, root, same, .step hp under⟩
termination_by h.raw.toNat

/-- What threads that are not to be kept own. -/
theorem Consistent.under_dead_iff (hs : s.Consistent) (alive : List UInt32) :
    (∃ a ∈ (s.threads.filter fun t => !alive.contains t.content.systemId).map (·.handle),
      s.Under a g) ↔ ∃ id, s.OwnedBy g id ∧ id ∉ alive := by
  constructor
  · -- a stored thread is labelled with its handle, so the list and the table name the same entity
    rintro ⟨a, mem, under⟩
    obtain ⟨t, dead, rfl⟩ := List.mem_map.1 mem
    obtain ⟨stored, dead⟩ := List.mem_filter.1 dead
    obtain ⟨a, ha⟩ := Table.mem_values_iff.1 stored
    obtain rfl := hs.threads_labelled a t ha
    exact ⟨t.content.systemId, ⟨t.handle, t.content, by rw [threadAt?, ha]; rfl, rfl, under⟩,
      by simpa using dead⟩
  · rintro ⟨id, ⟨t, thread, root, rfl, under⟩, dead⟩
    obtain ⟨r, hr, rfl⟩ := Option.map_eq_some_iff.1 root
    obtain rfl := hs.threads_labelled t r hr
    refine ⟨r.handle, List.mem_map.2 ⟨r, List.mem_filter.2 ⟨?_, by simpa using dead⟩, rfl⟩, under⟩
    exact Table.mem_values_iff.2 ⟨r.handle, hr⟩

/-- Threads that are not to be kept are removed with all that they own. -/
theorem Consistent.removed_retainThreads (hs : s.Consistent) (alive : List UInt32) :
    s.Removed (s.retainThreads alive) fun h => ∃ id, s.OwnedBy h id ∧ id ∉ alive := by
  rw [retainThreads_eq]
  exact (hs.except _).removed_removeAll.congr fun g => hs.under_dead_iff alive

end DebugAdapter.Store
