import DebugAdapter.Proofs.StoreViews

/-!
# Consistency of the entity store

The tables of a store agree with each other after any operations: no handle is in the tables of two
kinds, the way from a system id to a thread is the inverse of the thread table, edges go from an
entity to one that was there before it and may hold it, the lists of what entities hold are the edges
read backwards, and the current frame is there.

In the course of a removal this does not hold: an entity whose holder is gone is still there. It is
then on the stack of what is left to remove (`ConsistentExcept`).

## Key results

- `ConsistentExcept.forget`: what the entity on top of the stack held takes its place there
- `ConsistentExcept.removeAll`: when the stack is empty, the store is consistent again
- `Consistent.add`, `Consistent.addThread`: what is added keeps a store consistent
-/

namespace DebugAdapter.Store

/-- The tables of a store agree, except that the holder of an entity on the stack may be gone. -/
structure ConsistentExcept (stack : List Handle) (s : Store) : Prop where
  /-- No handle is in the tables of two kinds. -/
  kind_unique : ∀ {k k' h}, h ∈ s.handlesOf k → h ∈ s.handlesOf k' → k = k'
  /-- The handles are those issued since the store was cleared. -/
  handle_range : ∀ {k h}, h ∈ s.handlesOf k → 1 ≤ h.raw ∧ h.raw ≤ s.issued
  threads_labelled : s.threadTable.Labelled
  frames_labelled : s.frameTable.Labelled
  scopes_labelled : s.scopeTable.Labelled
  variables_labelled : s.variableTable.Labelled
  /-- Threads are found by their system ids, and nothing else is. -/
  threadHandles_iff : ∀ {id h}, s.threadHandles.get? id = some h ↔
    ∃ t, s.threadTable.get? h = some t ∧ t.content.systemId = id
  /-- All entities but the threads have a holder. -/
  parent_iff : ∀ {h}, (∃ p, s.parents.get? h = some p) ↔ ∃ k, k ≠ .thread ∧ h ∈ s.handlesOf k
  /-- The holder is older. -/
  parent_lt : ∀ {h p}, s.parents.get? h = some p → p.raw < h.raw
  /-- The holder is there and may hold the entity, unless the entity is on the stack. -/
  parent_live : ∀ {h p}, s.parents.get? h = some p → h ∉ stack →
    ∃ kp k, p ∈ s.handlesOf kp ∧ h ∈ s.handlesOf k ∧ kp.mayHold k = true
  /-- What is on a list has its edge to there. -/
  parent_of_mem_children : ∀ {h p}, h ∈ s.children p → s.parents.get? h = some p
  /-- What has its edge to there is on the list, unless it is on the stack. -/
  mem_children_of_parent : ∀ {h p}, s.parents.get? h = some p → h ∉ stack → h ∈ s.children p
  /-- The lists are in the order in which the handles were issued. -/
  children_increasing : ∀ p, (s.children p).Pairwise fun h g => h.raw < g.raw
  currentFrame_live : ∀ {f}, s.currentFrame = some f → f ∈ s.handlesOf .frame

/-- The tables of a store agree. -/
abbrev Consistent (s : Store) : Prop :=
  s.ConsistentExcept []

/-- The empty store is consistent, each part of it because there is no entity. -/
theorem consistent_empty : ({} : Store).Consistent where
  kind_unique := by rintro (_ | _ | _ | _) _ _ ⟨⟩
  handle_range := by rintro (_ | _ | _ | _) _ ⟨⟩
  threads_labelled := by rintro _ _ ⟨⟩
  frames_labelled := by rintro _ _ ⟨⟩
  scopes_labelled := by rintro _ _ ⟨⟩
  variables_labelled := by rintro _ _ ⟨⟩
  threadHandles_iff := by simp
  -- nothing is stored, and nothing has a holder
  parent_iff := by
    intro h
    constructor
    · rintro ⟨_, ⟨⟩⟩
    · rintro ⟨(_ | _ | _ | _), _, ⟨⟩⟩
  parent_lt := by rintro _ _ ⟨⟩
  parent_live := by rintro _ _ ⟨⟩
  parent_of_mem_children := by rintro _ _ ⟨⟩
  mem_children_of_parent := by rintro _ _ ⟨⟩
  children_increasing _ := .nil
  currentFrame_live := by rintro _ ⟨⟩

namespace ConsistentExcept

variable {s : Store} {stack : List Handle}

/-- A larger stack excuses more. -/
theorem mono {stack' : List Handle} (hs : s.ConsistentExcept stack)
    (sub : ∀ h ∈ stack, h ∈ stack') : s.ConsistentExcept stack' :=
  { hs with
    parent_live := fun hp hn => hs.parent_live hp fun hm => hn (sub _ hm)
    mem_children_of_parent := fun hp hn => hs.mem_children_of_parent hp fun hm => hn (sub _ hm) }

/-- A handle is in the table of a kind exactly if that is the kind of its entity. -/
theorem kindOf?_eq_some_iff (hs : s.ConsistentExcept stack) {h : Handle} {k : EntityKind} :
    s.kindOf? h = some k ↔ h ∈ s.handlesOf k := by
  have mem : ∀ {α : Type} {t : Table Handle α}, t.contains h = true ↔ h ∈ t.keys :=
    Table.contains_iff.trans Table.mem_keys_iff.symm
  have only : ∀ k', h ∈ s.handlesOf k' → (k' = k ↔ h ∈ s.handlesOf k) :=
    fun _ h' => ⟨fun e => e ▸ h', fun e => hs.kind_unique h' e⟩
  -- the tables are asked one after the other, and the first that has the handle is the only one
  unfold kindOf?
  split
  · next ht => rw [Option.some.injEq]; exact only .thread (mem.1 ht)
  split
  · next hf => rw [Option.some.injEq]; exact only .frame (mem.1 hf)
  split
  · next hc => rw [Option.some.injEq]; exact only .scope (mem.1 hc)
  split
  · next hv => rw [Option.some.injEq]; exact only .variable (mem.1 hv)
  · next ht hf hc hv =>
    rw [mem] at ht hf hc hv
    cases k <;> simp_all [handlesOf]

/-! ### Removal -/

/-- A forgotten thread is not found by its system id, and the other threads are found as before. -/
private theorem threadHandles_forget_iff (hs : s.ConsistentExcept stack) {h : Handle} {id : UInt32}
    {g : Handle} : (s.forget h).threadHandles.get? id = some g ↔
      ∃ t, (s.forget h).threadTable.get? g = some t ∧ t.content.systemId = id := by
  have erased : (s.forget h).threadTable.get? g =
      if g = h then none else s.threadTable.get? g := Table.get?_erase ..
  rw [threadHandles_forget, erased]
  cases ht : s.threadTable.get? h with
  -- what is forgotten is no thread
  | none =>
    simp only [Option.map_none, reduceCtorEq, if_false, hs.threadHandles_iff]
    by_cases e : g = h
    · simp [e, ht]
    · simp [e]
  | some t =>
    simp only [Option.map_some, Option.some.injEq]
    by_cases e : g = h
    · -- the thread was found by one id only, its own
      have gone : s.threadHandles.get? id = some h → t.content.systemId = id := by
        rw [hs.threadHandles_iff]
        rintro ⟨t', ht', rfl⟩
        rw [ht, Option.some.injEq] at ht'
        rw [ht']
      subst e
      split
      · simp
      · next hid => simpa using fun h' => hid (gone h')
    · -- two threads are not found by one id
      have other : t.content.systemId = id → s.threadHandles.get? id = some h :=
        fun hid => hs.threadHandles_iff.2 ⟨t, ht, hid⟩
      simp only [e, if_false, ← hs.threadHandles_iff]
      split
      · next hid => simp [other hid, Ne.symm e]
      · rfl

/-- Forgetting the entity on top of the stack leaves what it held without a holder. -/
theorem forget {h : Handle} {rest : List Handle} (hs : s.ConsistentExcept (h :: rest)) :
    (s.forget h).ConsistentExcept ((s.children h).reverse ++ rest) where
  -- what is left was there before, in every table
  kind_unique hk hk' := hs.kind_unique (mem_handlesOf_forget.1 hk).1 (mem_handlesOf_forget.1 hk').1
  handle_range hk := hs.handle_range (mem_handlesOf_forget.1 hk).1
  threads_labelled := hs.threads_labelled.erase h
  frames_labelled := hs.frames_labelled.erase h
  scopes_labelled := hs.scopes_labelled.erase h
  variables_labelled := hs.variables_labelled.erase h
  threadHandles_iff := hs.threadHandles_forget_iff
  parent_iff := by
    intro g
    simp only [parents_forget, mem_handlesOf_forget]
    by_cases e : g = h
    · simp [e]
    · simpa [e] using hs.parent_iff
  parent_lt := by
    intro g p hp
    rw [parents_forget] at hp
    split at hp
    · cases hp
    · exact hs.parent_lt hp
  parent_live := by
    intro g p hp hn
    rw [parents_forget] at hp
    split at hp
    · cases hp
    · next hg =>
      simp only [List.mem_append, List.mem_reverse, not_or] at hn
      have hgs : g ∉ h :: rest := by simp [hg, hn.2]
      obtain ⟨kp, k, hkp, hk, hold⟩ := hs.parent_live hp hgs
      -- the forgotten entity held nothing but what is on the stack now
      have hph : p ≠ h := by
        rintro rfl
        exact hn.1 (hs.mem_children_of_parent hp hgs)
      exact ⟨kp, k, mem_handlesOf_forget.2 ⟨hkp, hph⟩, mem_handlesOf_forget.2 ⟨hk, hg⟩, hold⟩
  parent_of_mem_children := by
    intro g p hg
    rw [children_forget fun _ => hs.parent_of_mem_children] at hg
    split at hg
    · cases hg
    · simp only [ne_eq, List.mem_filter, decide_not, Bool.not_eq_true', decide_eq_false_iff_not] at hg
      rw [parents_forget, if_neg hg.2]
      exact hs.parent_of_mem_children hg.1
  mem_children_of_parent := by
    -- a child of the forgotten entity is on the stack now, so it is not `g`
    intro g p hp hn
    rw [parents_forget] at hp
    split at hp
    · cases hp
    · next hg =>
      simp only [List.mem_append, List.mem_reverse, not_or] at hn
      have hm : g ∈ s.children p := hs.mem_children_of_parent hp (by simp [hg, hn.2])
      rw [children_forget fun _ => hs.parent_of_mem_children]
      split
      · next e => exact absurd (e ▸ hm) hn.1
      · simpa [hg] using hm
  -- a list of children loses an element, or is gone
  children_increasing := by
    intro p
    rw [children_forget fun _ => hs.parent_of_mem_children]
    split
    · exact .nil
    · exact (hs.children_increasing p).filter _
  currentFrame_live := by
    intro f hf
    obtain ⟨hf, hne⟩ := Option.filter_eq_some_iff.1 (show s.currentFrame.filter (· ≠ h) = some f from hf)
    exact mem_handlesOf_forget.2 ⟨hs.currentFrame_live hf, by simpa using hne⟩

end ConsistentExcept

/-- A consistent store needs no excuse. -/
theorem Consistent.except {s : Store} (hs : s.Consistent) (stack : List Handle) :
    s.ConsistentExcept stack :=
  hs.mono nofun

/-- When all on the stack is removed, nothing is left without a holder. -/
theorem ConsistentExcept.removeAll (stack : List Handle) (s : Store)
    (hs : s.ConsistentExcept stack) : (s.removeAll stack).Consistent := by
  fun_induction Store.removeAll stack s with
  | case1 s => exact hs
  | case2 h rest s ih => exact ih hs.forget

/-! ### Operations that remove -/

/-- Dropping the threads that have ended, with all that hangs below them, keeps the store consistent. -/
theorem Consistent.retainThreads {s : Store} (hs : s.Consistent) (alive : List UInt32) :
    (s.retainThreads alive).Consistent := by
  rw [retainThreads_eq]
  exact .removeAll _ s (hs.except _)

/-- Dropping what hangs below an entity keeps the store consistent. -/
theorem Consistent.removeChildren {s : Store} (hs : s.Consistent) (h : Handle) :
    (s.removeChildren h).Consistent := by
  rw [removeChildren_eq]
  exact .removeAll _ s (hs.except _)

/-! ### Operations that add -/

section Add

variable {s : Store}

/-- The next handle is in no table. -/
theorem Consistent.nextHandle_not_mem (hs : s.Consistent) (k : EntityKind) :
    s.nextHandle ∉ s.handlesOf k := by
  intro h
  have := (hs.handle_range h).2
  simp only [nextHandle] at this
  omega

/-- The next handle has no holder. -/
theorem Consistent.parents_nextHandle (hs : s.Consistent) : s.parents.get? s.nextHandle = none := by
  cases hp : s.parents.get? s.nextHandle with
  | none => rfl
  | some p =>
    obtain ⟨k, -, hk⟩ := hs.parent_iff.1 ⟨p, hp⟩
    exact absurd hk (hs.nextHandle_not_mem k)

/-- Issuing a handle changes nothing but the counter. -/
theorem Consistent.issue (hs : s.Consistent) : s.issue.Consistent :=
  { hs with
    handle_range := by
      intro k h hk
      have := hs.handle_range (handlesOf_issue s k ▸ hk)
      simp only [Store.issue]
      omega }

/-- A store in which the next handle has been issued to an entity of a kind. The tables hold the other
handles as before. -/
private structure GainsEntity (s s' : Store) (kind : EntityKind) : Prop where
  mem_handlesOf : ∀ {k h}, h ∈ s'.handlesOf k ↔ h ∈ s.handlesOf k ∨ h = s.nextHandle ∧ k = kind
  issued_eq : s'.issued = s.issued + 1

/-- What was there is there. -/
private theorem GainsEntity.mono {s' : Store} {kind : EntityKind} (gains : GainsEntity s s' kind)
    {k : EntityKind} {h : Handle} (hk : h ∈ s.handlesOf k) : h ∈ s'.handlesOf k :=
  gains.mem_handlesOf.2 (.inl hk)

/-- The new handle is in one table only, since it was in none. -/
private theorem GainsEntity.kind_unique {s' : Store} {kind : EntityKind} (gains : GainsEntity s s' kind)
    (hs : s.Consistent) {k k' : EntityKind} {h : Handle} (hk : h ∈ s'.handlesOf k)
    (hk' : h ∈ s'.handlesOf k') : k = k' := by
  have fresh := hs.nextHandle_not_mem
  rcases gains.mem_handlesOf.1 hk with hk | ⟨rfl, rfl⟩ <;>
    rcases gains.mem_handlesOf.1 hk' with hk' | ⟨e, rfl⟩
  · exact hs.kind_unique hk hk'
  · exact absurd (e ▸ hk) (fresh k)
  · exact absurd hk' (fresh k')
  · rfl

/-- With an entity more, each handle still lies between 1 and the number of issued handles. -/
private theorem GainsEntity.handle_range {s' : Store} {kind : EntityKind} (gains : GainsEntity s s' kind)
    (hs : s.Consistent) {k : EntityKind} {h : Handle} (hk : h ∈ s'.handlesOf k) :
    1 ≤ h.raw ∧ h.raw ≤ s'.issued := by
  have issued := gains.issued_eq
  rcases gains.mem_handlesOf.1 hk with hk | ⟨rfl, -⟩
  · have := hs.handle_range hk
    omega
  · simp only [nextHandle]
    omega

/-! ### A new thread -/

/-- A thread under a new handle is found by a system id that was unknown, and the others are found as
before. -/
private theorem Consistent.threadHandles_insert_iff (hs : s.Consistent) {id : UInt32} (name : String)
    (unknown : s.threadHandles.get? id = none) {id' : UInt32} {h : Handle} :
    (s.threadHandles.insert id s.nextHandle).get? id' = some h ↔
      ∃ t, (s.threadTable.insert s.nextHandle ⟨s.nextHandle, id, name⟩).get? h = some t ∧
        t.content.systemId = id' := by
  have fresh : s.threadTable.get? s.nextHandle = none :=
    Table.get?_eq_none_iff.2 (hs.nextHandle_not_mem .thread)
  rw [Table.get?_insert, Table.get?_insert]
  by_cases e : h = s.nextHandle
  · -- the new thread is found by its own id, and by no other, which would have found it before
    subst e
    simp only [if_true, Option.some.injEq, exists_eq_left']
    split
    · next hi => simp [hi]
    · next hi => simp [hs.threadHandles_iff, fresh, Ne.symm hi]
  · -- none of the threads before has the id of the new one
    simp only [e, if_false]
    split
    · next hi =>
      subst hi
      rw [← hs.threadHandles_iff, unknown]
      simp [Ne.symm e]
    · exact hs.threadHandles_iff

/-- A thread that is not known yet is put under the next handle. -/
private theorem Consistent.newThread (hs : s.Consistent) {id : UInt32} (name : String)
    (unknown : s.threadHandles.get? id = none) :
    Consistent { s.issue with
      threadTable := s.threadTable.insert s.nextHandle ⟨s.nextHandle, id, name⟩
      threadHandles := s.threadHandles.insert id s.nextHandle } := by
  -- of the tables of entities, only that of the threads has changed
  have gains : GainsEntity s { s.issue with
      threadTable := s.threadTable.insert s.nextHandle ⟨s.nextHandle, id, name⟩
      threadHandles := s.threadHandles.insert id s.nextHandle } .thread := by
    refine ⟨fun {k h} => ?_, rfl⟩
    cases k <;> simp [handlesOf, Store.issue, Table.mem_keys_insert]
  exact
  { kind_unique := gains.kind_unique hs
    handle_range := gains.handle_range hs
    threads_labelled := hs.threads_labelled.insert s.nextHandle _
    frames_labelled := hs.frames_labelled
    scopes_labelled := hs.scopes_labelled
    variables_labelled := hs.variables_labelled
    -- the index gains the thread under its id
    threadHandles_iff := hs.threadHandles_insert_iff name unknown
    parent_iff := by
      -- a thread has no holder, and so none is missing for the new one
      intro h
      refine hs.parent_iff.trans ⟨?_, ?_⟩
      · rintro ⟨k, hk, hm⟩
        exact ⟨k, hk, gains.mono hm⟩
      · rintro ⟨k, hk, hm⟩
        rcases gains.mem_handlesOf.1 hm with hm | ⟨-, rfl⟩
        · exact ⟨k, hk, hm⟩
        · exact absurd rfl hk
    parent_lt := hs.parent_lt
    parent_live := by
      intro h p hp hn
      obtain ⟨kp, k, hkp, hk, hold⟩ := hs.parent_live hp hn
      exact ⟨kp, k, gains.mono hkp, gains.mono hk, hold⟩
    parent_of_mem_children := hs.parent_of_mem_children
    mem_children_of_parent := hs.mem_children_of_parent
    children_increasing := hs.children_increasing
    currentFrame_live := fun hf => gains.mono (hs.currentFrame_live hf) }

/-- Adding a thread keeps the store consistent, be the thread known already or not. -/
theorem Consistent.addThread (hs : s.Consistent) (id : UInt32) (name : String) :
    (s.addThread id name).2.Consistent := by
  unfold Store.addThread
  split
  · exact hs
  · next hid => exact hs.newThread name hid

/-! ### A new entity below another one -/

/-- A thread table changes only when a thread is placed. -/
private theorem threadTable_place {e : Entity} (he : e.kind ≠ .thread) (h : Handle) :
    (s.place h e).threadTable = s.threadTable := by
  cases e
  case thread => exact absurd rfl he
  all_goals rfl

/-- Placing an entity keeps the four tables labelled. -/
private theorem labelled_place (hs : s.Consistent) (h : Handle) (e : Entity) :
    (s.place h e).threadTable.Labelled ∧ (s.place h e).frameTable.Labelled ∧
      (s.place h e).scopeTable.Labelled ∧ (s.place h e).variableTable.Labelled := by
  obtain ⟨ht, hf, hc, hv⟩ : s.threadTable.Labelled ∧ s.frameTable.Labelled ∧
      s.scopeTable.Labelled ∧ s.variableTable.Labelled :=
    ⟨hs.threads_labelled, hs.frames_labelled, hs.scopes_labelled, hs.variables_labelled⟩
  cases e with
  | thread t => exact ⟨ht.insert h t, hf, hc, hv⟩
  | frame f => exact ⟨ht, hf.insert h f, hc, hv⟩
  | scope c => exact ⟨ht, hf, hc.insert h c, hv⟩
  | «variable» v => exact ⟨ht, hf, hc, hv.insert h v⟩

/-- A store that gains an entity at the end of what an entity holds. -/
private structure GainsBelow (s s' : Store) (parent : Handle) (kind : EntityKind) : Prop
    extends GainsEntity s s' kind where
  parents_eq : ∀ h, s'.parents.get? h = if h = s.nextHandle then some parent else s.parents.get? h
  children_eq : ∀ h, s'.children h =
    if h = parent then s.children parent ++ [s.nextHandle] else s.children h

/-- An entity that is placed and linked is gained below its holder. -/
private theorem gainsBelow_link (s : Store) (parent : Handle) (e : Entity) :
    GainsBelow s ((s.issue.place s.nextHandle e).link parent s.nextHandle) parent e.kind where
  mem_handlesOf := by
    intro k h
    rw [handlesOf_link, mem_handlesOf_place, handlesOf_issue]
  issued_eq := issued_place ..
  parents_eq := by
    intro h
    rw [parents_link, parents_place]
    rfl
  children_eq := by
    intro h
    rw [children_link]
    simp only [children, childLists_place]
    rfl

namespace GainsBelow

variable {s' : Store} {parent : Handle} {kind kp : EntityKind}

/-- With a child more, it is still exactly the entities other than threads that have a holder. -/
private theorem parent_iff (gains : GainsBelow s s' parent kind) (hs : s.Consistent)
    (he : kind ≠ .thread) {h : Handle} :
    (∃ p, s'.parents.get? h = some p) ↔ ∃ k, k ≠ .thread ∧ h ∈ s'.handlesOf k := by
  -- the new child has the holder it was linked to, and what was there keeps its own
  rw [gains.parents_eq]
  split
  · next e =>
    have new : h ∈ s'.handlesOf kind := gains.mem_handlesOf.2 (.inr ⟨e, rfl⟩)
    exact ⟨fun _ => ⟨kind, he, new⟩, fun _ => ⟨parent, rfl⟩⟩
  · next e =>
    refine hs.parent_iff.trans ⟨?_, ?_⟩
    · rintro ⟨k, hk, hm⟩
      exact ⟨k, hk, gains.mono hm⟩
    · rintro ⟨k, hk, hm⟩
      rcases gains.mem_handlesOf.1 hm with hm | ⟨new, -⟩
      · exact ⟨k, hk, hm⟩
      · exact absurd new e

/-- What is there was issued before the new handle. -/
private theorem lt_nextHandle (hs : s.Consistent) {k : EntityKind} {h : Handle}
    (hk : h ∈ s.handlesOf k) : h.raw < s.nextHandle.raw := by
  have := hs.handle_range hk
  simp only [nextHandle]
  omega

/-- With a child more, a holder still has a smaller handle than what it holds. -/
private theorem parent_lt (gains : GainsBelow s s' parent kind) (hs : s.Consistent)
    (hkp : parent ∈ s.handlesOf kp) {h p : Handle} (hp : s'.parents.get? h = some p) :
    p.raw < h.raw := by
  rw [gains.parents_eq] at hp
  split at hp
  · next e =>
    cases hp
    exact e ▸ lt_nextHandle hs hkp
  · exact hs.parent_lt hp

/-- With a child more, both ends of an edge are still stored, and of kinds that fit. -/
private theorem parent_live (gains : GainsBelow s s' parent kind) (hs : s.Consistent)
    (hkp : parent ∈ s.handlesOf kp) (hold : kp.mayHold kind = true) {h p : Handle}
    (hp : s'.parents.get? h = some p) :
    ∃ kp k, p ∈ s'.handlesOf kp ∧ h ∈ s'.handlesOf k ∧ kp.mayHold k = true := by
  rw [gains.parents_eq] at hp
  split at hp
  · next e =>
    cases hp
    exact ⟨kp, kind, gains.mono hkp, gains.mem_handlesOf.2 (.inr ⟨e, rfl⟩), hold⟩
  · obtain ⟨kp', k, hkp', hk, hold'⟩ := hs.parent_live hp List.not_mem_nil
    exact ⟨kp', k, gains.mono hkp', gains.mono hk, hold'⟩

/-- What was on a list before has its edge still: the only edge that changes is that of the new handle,
which had none. -/
private theorem parent_of_mem_children (gains : GainsBelow s s' parent kind) (hs : s.Consistent)
    {h p : Handle} (hm : h ∈ s'.children p) : s'.parents.get? h = some p := by
  have kept : h ∈ s.children p → s'.parents.get? h = some p := by
    intro hm
    have hp := hs.parent_of_mem_children hm
    rw [gains.parents_eq, if_neg, hp]
    rintro rfl
    simp [hs.parents_nextHandle] at hp
  -- only the list of the new child's holder has grown, by the new child at its end
  rw [gains.children_eq] at hm
  split at hm
  · next e =>
    subst e
    rcases List.mem_append.1 hm with hm | hm
    · exact kept hm
    · rw [gains.parents_eq, if_pos (List.mem_singleton.1 hm)]
  · exact kept hm

/-- With a child more, each entity is still on the list of its holder. -/
private theorem mem_children_of_parent (gains : GainsBelow s s' parent kind) (hs : s.Consistent)
    {h p : Handle} (hp : s'.parents.get? h = some p) : h ∈ s'.children p := by
  rw [gains.parents_eq] at hp
  rw [gains.children_eq]
  split at hp
  · next e =>
    cases hp
    simp [e]
  · have hm := hs.mem_children_of_parent hp List.not_mem_nil
    split
    · next ep => exact List.mem_append_left _ (ep ▸ hm)
    · exact hm

/-- With a child more, each list of children is still in the order of the handles. -/
private theorem children_increasing (gains : GainsBelow s s' parent kind) (hs : s.Consistent)
    (p : Handle) : (s'.children p).Pairwise fun h g => h.raw < g.raw := by
  rw [gains.children_eq]
  split
  · refine List.pairwise_append.2 ⟨hs.children_increasing parent, List.pairwise_singleton _ _, ?_⟩
    -- what was on the list was issued before
    intro h hm g hg
    obtain rfl := List.mem_singleton.1 hg
    obtain ⟨k, -, hk⟩ := hs.parent_iff.1 ⟨parent, hs.parent_of_mem_children hm⟩
    exact lt_nextHandle hs hk
  · exact hs.children_increasing p

end GainsBelow

/-- An entity is put below a live one that may hold it, under the next handle. -/
private theorem Consistent.newChild (hs : s.Consistent) {parent : Handle} {kp : EntityKind}
    {e : Entity} (hkp : parent ∈ s.handlesOf kp) (he : e.kind ≠ .thread)
    (hold : kp.mayHold e.kind = true) :
    ((s.issue.place s.nextHandle e).link parent s.nextHandle).Consistent := by
  -- a new child adds one handle, one link and one entry of a list
  have gains := gainsBelow_link s parent e
  have labelled := labelled_place (s := s.issue) hs.issue s.nextHandle e
  exact
  { kind_unique := gains.kind_unique hs
    handle_range := gains.handle_range hs
    threads_labelled := labelled.1
    frames_labelled := labelled.2.1
    scopes_labelled := labelled.2.2.1
    variables_labelled := labelled.2.2.2
    threadHandles_iff := by
      -- a child is no thread, so the index of the threads is as before
      intro id h
      simp only [link, threadHandles_place, threadTable_place he]
      exact hs.threadHandles_iff
    parent_iff := gains.parent_iff hs he
    parent_lt := gains.parent_lt hs hkp
    parent_live := fun hp _ => gains.parent_live hs hkp hold hp
    parent_of_mem_children := gains.parent_of_mem_children hs
    mem_children_of_parent := fun hp _ => gains.mem_children_of_parent hs hp
    children_increasing := gains.children_increasing hs
    currentFrame_live := by
      intro f hf
      simp only [link, currentFrame_place] at hf
      exact gains.mono (hs.currentFrame_live hf) }

/-- Adding an entity keeps the store consistent, also where the parent cannot hold it and it is refused. -/
theorem Consistent.add (hs : s.Consistent) (parent : Handle) (entity : Entity) :
    (s.add parent entity).2.Consistent := by
  unfold Store.add
  split
  · exact hs
  · next kp hkp =>
    split
    · exact hs.issue
    · next he =>
      split
      · next hold => exact hs.newChild (hs.kindOf?_eq_some_iff.1 hkp) he hold
      · exact hs.issue

end Add

/-! ### Operations that change what is there -/

section Change

variable {s : Store}

/-- A changed variable stays where it is. -/
theorem handlesOf_updateVariable (s : Store) (h : Handle) (f : Variable → Variable)
    (k : EntityKind) : (s.updateVariable h f).handlesOf k = s.handlesOf k := by
  cases k with
  | «variable» => exact Table.keys_modify ..
  | _ => rfl

/-- Editing a variable keeps the store consistent: no handle and no edge changes. -/
theorem Consistent.updateVariable (hs : s.Consistent) (h : Handle) (f : Variable → Variable) :
    (s.updateVariable h f).Consistent := by
  -- no handle is gained or lost, so only what is said of the table of variables is new
  have same := handlesOf_updateVariable s h f
  exact
  { hs with
    kind_unique := by
      intro k k' g hk hk'
      rw [same] at hk hk'
      exact hs.kind_unique hk hk'
    handle_range := by
      intro k g hk
      rw [same] at hk
      exact hs.handle_range hk
    variables_labelled := hs.variables_labelled.modify h f
    parent_iff := by
      intro g
      simp only [same]
      exact hs.parent_iff
    parent_live := by
      intro g p hp hn
      simp only [same]
      exact hs.parent_live hp hn
    currentFrame_live := by
      intro g hg
      rw [same]
      exact hs.currentFrame_live hg }

/-- Choosing a thread keeps the store consistent. -/
theorem Consistent.setCurrentThread (hs : s.Consistent) (id : UInt32) :
    (s.setCurrentThread id).Consistent :=
  { hs with }

/-- Choosing a frame keeps the store consistent, if the frame is stored. -/
theorem Consistent.setCurrentFrame (hs : s.Consistent) {f : Handle}
    (hf : f ∈ s.handlesOf .frame) : (s.setCurrentFrame f).Consistent :=
  { hs with
    currentFrame_live := by
      intro g hg
      obtain rfl : f = g := Option.some.inj hg
      exact hf }

end Change

end DebugAdapter.Store
