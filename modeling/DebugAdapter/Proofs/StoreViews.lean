import DebugAdapter.Store.Basic

/-!
# Views of the entity store

What each step of a store operation does to the four views that an invariant of the store speaks of:
the handles of each kind of entity (`handlesOf`), the holder of an entity (`parents`), what an entity
holds (`children`), and the way from a system id to a thread (`threadHandles`).

Main statement: forgetting an entity takes its handle out of each view and leaves the rest of it
(`mem_handlesOf_forget`, `parents_forget`, `children_forget`, `threadHandles_forget`).
-/

namespace DebugAdapter

/-- What is registered under a handle says so. -/
def Table.Labelled {α : Type} (t : Table Handle (Registered α)) : Prop :=
  ∀ h r, t.get? h = some r → r.handle = h

namespace Table.Labelled

variable {α : Type} {t : Table Handle (Registered α)}

/-- Registering content under its own handle keeps a table labelled. -/
theorem insert (ht : t.Labelled) (h : Handle) (a : α) : (t.insert h ⟨h, a⟩).Labelled := by
  intro g r hr
  rw [Table.get?_insert] at hr
  split at hr
  · next e =>
    cases hr
    exact e.symm
  · exact ht g r hr

/-- Erasing an entry keeps a table labelled. -/
theorem erase (ht : t.Labelled) (h : Handle) : (t.erase h).Labelled := by
  intro g r hr
  rw [Table.get?_erase] at hr
  split at hr
  · cases hr
  · exact ht g r hr

/-- Editing the content of an entry keeps a table labelled, since the handle stays. -/
theorem modify (ht : t.Labelled) (h : Handle) (f : α → α) :
    (t.modify h fun r => ⟨r.handle, f r.content⟩).Labelled := by
  intro g r hr
  rw [Table.get?_modify] at hr
  split at hr
  · obtain ⟨r', hr', rfl⟩ := Option.map_eq_some_iff.1 hr
    exact ht g r' hr'
  · exact ht g r hr

end Table.Labelled

namespace Store

/-- The handles of the entities of a kind, oldest first. -/
def handlesOf (s : Store) : EntityKind → List Handle
  | .thread => s.threadTable.keys
  | .frame => s.frameTable.keys
  | .scope => s.scopeTable.keys
  | .variable => s.variableTable.keys

/-! ## Adding -/

/-- Issuing a handle adds no entity. -/
@[simp] theorem handlesOf_issue (s : Store) (k : EntityKind) : s.issue.handlesOf k = s.handlesOf k := by
  cases k <;> rfl

/-- An entity is placed in the table of its kind, and in no other. -/
theorem mem_handlesOf_place {s : Store} {h g : Handle} {e : Entity} {k : EntityKind} :
    g ∈ (s.place h e).handlesOf k ↔ g ∈ s.handlesOf k ∨ g = h ∧ k = e.kind := by
  cases e <;> cases k <;> simp [place, handlesOf, Entity.kind, Table.mem_keys_insert]

/-- Placing an entity issues no handle. -/
@[simp] theorem issued_place (s : Store) (h : Handle) (e : Entity) :
    (s.place h e).issued = s.issued := by
  cases e <;> rfl

/-- Placing an entity gives it no holder. -/
@[simp] theorem parents_place (s : Store) (h : Handle) (e : Entity) :
    (s.place h e).parents = s.parents := by
  cases e <;> rfl

/-- Placing an entity adds it to no list of children. -/
@[simp] theorem childLists_place (s : Store) (h : Handle) (e : Entity) :
    (s.place h e).childLists = s.childLists := by
  cases e <;> rfl

/-- Placing an entity does not move the current frame. -/
@[simp] theorem currentFrame_place (s : Store) (h : Handle) (e : Entity) :
    (s.place h e).currentFrame = s.currentFrame := by
  cases e <;> rfl

/-- Placing an entity leaves the index of the threads by their system ids as it is. -/
@[simp] theorem threadHandles_place (s : Store) (h : Handle) (e : Entity) :
    (s.place h e).threadHandles = s.threadHandles := by
  cases e <;> rfl

/-- Linking two entities adds none. -/
@[simp] theorem handlesOf_link (s : Store) (parent child : Handle) (k : EntityKind) :
    (s.link parent child).handlesOf k = s.handlesOf k := by
  cases k <;> rfl

/-- Linking gives the child its holder, and leaves the other holders as they are. -/
theorem parents_link (s : Store) (parent child h : Handle) :
    (s.link parent child).parents.get? h = if h = child then some parent else s.parents.get? h :=
  Table.get?_insert ..

/-- A new entity is the last one of what its holder holds. -/
theorem children_link (s : Store) (parent child h : Handle) :
    (s.link parent child).children h =
      if h = parent then s.children parent ++ [child] else s.children h := by
  simp only [children, link, Table.get?_insert]
  split <;> rfl

/-! ## Forgetting -/

/-- Forgetting an entity takes its handle, and no other, out of the tables. -/
theorem mem_handlesOf_forget {s : Store} {h g : Handle} {k : EntityKind} :
    g ∈ (s.forget h).handlesOf k ↔ g ∈ s.handlesOf k ∧ g ≠ h := by
  cases k <;> exact Table.mem_keys_erase

/-- Forgetting an entity drops the edge to its holder, and no other edge. -/
theorem parents_forget (s : Store) (h g : Handle) :
    (s.forget h).parents.get? g = if g = h then none else s.parents.get? g :=
  Table.get?_erase ..

/-- Forgetting a thread drops its system id from the index; forgetting anything else drops none. -/
theorem threadHandles_forget (s : Store) (h : Handle) (id : UInt32) :
    (s.forget h).threadHandles.get? id =
      if (s.threadTable.get? h).map (·.content.systemId) = some id then none
      else s.threadHandles.get? id := by
  simp only [forget]
  split
  · next t ht => simp only [ht, Table.get?_erase, Option.map_some, Option.some.injEq, eq_comm]
  · next hnone => simp [hnone]

/-- What a forgotten entity held is forgotten; from other lists the entity is taken out, if its edge
says in which one it is. -/
theorem children_forget {s : Store} {h : Handle}
    (edges : ∀ p, h ∈ s.children p → s.parents.get? h = some p) (g : Handle) :
    (s.forget h).children g = if g = h then [] else (s.children g).filter (· ≠ h) := by
  -- without an edge to `p`, the list of `p` does not mention the entity
  have unlisted : ∀ p, s.parents.get? h ≠ some p → (s.children p).filter (· ≠ h) = s.children p := by
    intro p hp
    rw [List.filter_eq_self]
    intro x hx
    have : x ≠ h := fun e => hp (edges p (e ▸ hx))
    simpa using this
  -- its own list is dropped, the list of its holder is filtered, and any other does not mention it
  by_cases e : g = h
  · subst e
    simp only [children, forget]
    split <;> simp [Table.get?_modify, Table.get?_erase]
  · rw [if_neg e]
    cases hp : s.parents.get? h with
    | none =>
      rw [unlisted g (by simp [hp])]
      simp [children, forget, hp, Table.get?_erase, e]
    | some p =>
      by_cases ep : g = p
      · subst ep
        cases hg : s.childLists.get? g <;>
          simp [children, forget, hp, hg, Table.get?_modify, Table.get?_erase, e]
      · rw [unlisted g (by simpa [hp] using Ne.symm ep)]
        simp [children, forget, hp, Table.get?_modify, Table.get?_erase, e, ep]

/-! ### Removals -/

/-- Removing two stacks of entities one after the other is removing them as one stack. -/
theorem removeAll_append (l₁ l₂ : List Handle) (s : Store) :
    s.removeAll (l₁ ++ l₂) = (s.removeAll l₁).removeAll l₂ := by
  fun_induction Store.removeAll l₁ s with
  | case1 s => rfl
  | case2 h rest s ih => rw [List.cons_append, removeAll, ← List.append_assoc, ih]

/-- What is removed one after the other may be put on one stack. -/
private theorem foldl_removeSubtree (l : List Handle) (s : Store) :
    l.foldl removeSubtree s = s.removeAll l := by
  induction l generalizing s with
  | nil => rw [removeAll, List.foldl_nil]
  | cons h l ih => rw [List.foldl_cons, ih, removeSubtree, ← removeAll_append, List.singleton_append]

/-- Removing the children of an entity is removing what is on its list. -/
theorem removeChildren_eq (s : Store) (h : Handle) :
    s.removeChildren h = s.removeAll (s.children h) :=
  foldl_removeSubtree _ s

/-- Keeping the threads that are alive is removing the stored threads that are not. -/
theorem retainThreads_eq (s : Store) (alive : List UInt32) :
    s.retainThreads alive = s.removeAll
      ((s.threads.filter fun t => !alive.contains t.content.systemId).map (·.handle)) :=
  foldl_removeSubtree _ s

end Store

end DebugAdapter
