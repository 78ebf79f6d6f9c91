import DebugAdapter.Proofs.StoreThreads
import Mathlib.Data.List.Induction

/-!
# Handles from before a store was cleared

Clearing a store forgets every entity, and handles are counted from one again. So a handle that was
given out before names nothing at first, and names another entity as soon as the count has come to it
once more. What is found under a handle is always what was added under it since the store was cleared.

Nothing is asked of the operations here. Only the current frame may then be one that is not there, so
the tables of a store are consistent when it is left out (`unframed`).

## Key results

- `NotFound.of_get?_eq_none`: what is not found under a handle is found in no other way
- `of_get?_apply`: what is found after an operation was added by it, or was there before
- `exists_added`: what is found was added under its handle, and the store was not cleared since
- `notFound_or_reissued`: after a store was cleared, a handle is unknown until it is given out again
-/

namespace DebugAdapter

/-- Change an entity if it is a variable. -/
def Entity.update (f : Variable → Variable) : Entity → Entity
  | .variable v => .variable (f v)
  | e => e

namespace Store

/-- The entity an operation may add. -/
def Op.entity? : Op → Option Entity
  | .addThread id name => some (.thread ⟨id, name⟩)
  | .add _ entity => some entity
  | _ => none

/-- What becomes of an entity that an operation leaves under its handle. -/
def Op.edit (h : Handle) (e : Entity) : Op → Entity
  | .updateVariable g f => if h = g then e.update f else e
  | _ => e

/-- Nothing is found under a handle, and the handle is not listed anywhere. -/
structure NotFound (s : Store) (h : Handle) : Prop where
  get? : s.get? h = none
  threadAt? : s.threadAt? h = none
  frameAt? : s.frameAt? h = none
  scopeAt? : s.scopeAt? h = none
  variableAt? : s.variableAt? h = none
  parent? : s.parent? h = none
  children : s.children h = []
  framesOf : s.framesOf h = []
  scopesOf : s.scopesOf h = []
  variablesOf : s.variablesOf h = []
  /-- A reverse lookup gives the handle back. -/
  ancestor : ∀ k, s.ancestor h k = h
  not_parent : ∀ g, s.parent? g ≠ some h
  not_child : ∀ g, h ∉ s.children g
  not_thread : ∀ t ∈ s.threads, t.handle ≠ h

/-- The store without its current frame. -/
def unframed (s : Store) : Store :=
  { s with currentFrame := none }

variable {s : Store} {h : Handle}

/-! ## Without the current frame -/

/-- What removing does to the rest of the store does not depend on the current frame. -/
private theorem unframed_removeAll (stack : List Handle) (s : Store) :
    (s.removeAll stack).unframed = (s.unframed.removeAll stack).unframed := by
  fun_induction Store.removeAll stack s with
  | case1 s =>
    rw [removeAll]
    rfl
  | case2 h rest s ih =>
    rw [ih, removeAll]
    rfl

/-- What adding does to the rest of the store does not depend on the current frame. -/
private theorem unframed_add (s : Store) (parent : Handle) (entity : Entity) :
    (s.add parent entity).2.unframed = (s.unframed.add parent entity).2.unframed := by
  have same : s.unframed.kindOf? parent = s.kindOf? parent := rfl
  unfold Store.add
  rw [same]
  cases s.kindOf? parent with
  | none => rfl
  | some k =>
    dsimp only
    split
    · rfl
    split
    · cases entity <;> rfl
    · rfl

/-- No operation looks at the current frame. -/
theorem unframed_apply (s : Store) (op : Op) :
    (op.apply s).unframed = (op.apply s.unframed).unframed := by
  -- no operation reads the current frame
  cases op with
  | addThread id name =>
    have same : s.unframed.threadHandles = s.threadHandles := rfl
    simp only [Op.apply, Store.addThread, same]
    split <;> rfl
  | add parent entity => exact unframed_add s parent entity
  | retainThreads alive =>
    rw [Op.apply, Op.apply, retainThreads_eq, retainThreads_eq, unframed_removeAll]
    rfl
  | removeChildren h =>
    rw [Op.apply, Op.apply, removeChildren_eq, removeChildren_eq, unframed_removeAll]
    rfl
  | _ => rfl

/-- A consistent store without its current frame is consistent. -/
private theorem Consistent.unframed (hs : s.Consistent) : s.unframed.Consistent :=
  { hs with currentFrame_live := by rintro _ ⟨⟩ }

/-- The tables agree after any operations. -/
theorem consistent_unframed_run (ops : List Op) : (run {} ops).unframed.Consistent := by
  induction ops using List.reverseRecOn with
  | nil => exact consistent_empty
  | append_singleton ops op ih =>
    have last : run {} (ops ++ [op]) = op.apply (run {} ops) := run_append {} ops [op]
    rw [last, unframed_apply]
    cases op with
    | setCurrentFrame frame => exact ih
    | _ => exact (Consistent.apply ih (by exact trivial)).unframed

/-! ## What is not found -/

/-- The tables have nothing under a handle that is not found. -/
private theorem tables_of_get?_eq_none (none : s.get? h = none) :
    s.threadTable.get? h = .none ∧ s.frameTable.get? h = .none ∧ s.scopeTable.get? h = .none ∧
      s.variableTable.get? h = .none := by
  simpa only [get?, Option.orElse_eq_orElse, Option.orElse_eq_or, Option.or_eq_none_iff,
    Option.map_eq_none_iff, and_assoc] using none

/-- What is not found is in no table. -/
private theorem not_mem_of_get?_eq_none (none : s.get? h = none) (k : EntityKind) :
    h ∉ s.unframed.handlesOf k := by
  obtain ⟨thread, frame, scope, var⟩ := tables_of_get?_eq_none none
  cases k <;> exact Table.get?_eq_none_iff.1 ‹_›

/-- What is not found has no holder. -/
private theorem parent?_of_get?_eq_none (hs : s.unframed.Consistent) (none : s.get? h = none) :
    s.parent? h = .none := by
  cases hp : s.parents.get? h with
  | none => exact hp
  | some p =>
    obtain ⟨k, -, hk⟩ := hs.parent_iff.1 ⟨p, hp⟩
    exact absurd hk (not_mem_of_get?_eq_none none k)

/-- What is not found holds nothing. -/
private theorem not_parent_of_get?_eq_none (hs : s.unframed.Consistent) (none : s.get? h = none)
    (g : Handle) : s.parent? g ≠ some h := by
  intro hg
  obtain ⟨k, -, live, -, -⟩ := hs.parent_live hg List.not_mem_nil
  exact not_mem_of_get?_eq_none none k live

/-- What is not found is not listed as a thread. -/
private theorem not_thread_of_get?_eq_none (hs : s.unframed.Consistent) (none : s.get? h = none) :
    ∀ t ∈ s.threads, t.handle ≠ h := by
  intro t ht e
  obtain ⟨g, hg⟩ := Table.mem_values_iff.1 ht
  obtain rfl : t.handle = g := hs.threads_labelled g t hg
  rw [e, (tables_of_get?_eq_none none).1] at hg
  cases hg

/-- What is not found under a handle is found in no other way. -/
theorem NotFound.of_get?_eq_none (hs : s.unframed.Consistent) (none : s.get? h = none) :
    s.NotFound h := by
  -- the handle is in no table, so it has no kind, no holder and nothing below it
  obtain ⟨thread, frame, scope, var⟩ := tables_of_get?_eq_none none
  have kind : s.kindOf? h = .none := by
    simp [kindOf?, Table.contains, thread, frame, scope, var]
  have parent := parent?_of_get?_eq_none hs none
  have not_parent := not_parent_of_get?_eq_none hs none
  have children : s.children h = [] :=
    List.eq_nil_iff_forall_not_mem.2 fun g hg => not_parent g (hs.parent_of_mem_children hg)
  -- the way up from the handle ends where it starts
  have stuck : ∀ k, s.climb k maxAncestorDepth h = .none := by
    intro k
    rw [maxAncestorDepth, climb, kind, parent]
    rfl
  exact
  { get? := none
    threadAt? := by rw [Store.threadAt?, thread]; rfl
    frameAt? := by rw [Store.frameAt?, frame]; rfl
    scopeAt? := by rw [Store.scopeAt?, scope]; rfl
    variableAt? := by rw [Store.variableAt?, var]; rfl
    parent? := parent
    children := children
    framesOf := by rw [Store.framesOf, children]; rfl
    scopesOf := by rw [Store.scopesOf, children]; rfl
    variablesOf := by rw [Store.variablesOf, children]; rfl
    ancestor := fun k => by rw [Store.ancestor, stuck, Option.getD_none]
    not_parent := not_parent
    not_child := by
      intro g hg
      have held : s.parent? h = some g := hs.parent_of_mem_children hg
      rw [parent] at held
      cases held
    not_thread := not_thread_of_get?_eq_none hs none }

/-! ## What is found -/

/-- Forgetting an entity makes its handle unknown, and no other. -/
theorem get?_forget (s : Store) (h g : Handle) :
    (s.forget h).get? g = if g = h then none else s.get? g := by
  simp only [get?, forget, Table.get?_erase]
  split <;> rfl

/-- What is found after a removal was there before, with the same content. -/
private theorem get?_of_removeAll (stack : List Handle) (s : Store) {e : Entity}
    (found : (s.removeAll stack).get? h = some e) : s.get? h = some e := by
  fun_induction Store.removeAll stack s with
  | case1 s => exact found
  | case2 top rest s ih =>
    have kept := ih found
    rw [get?_forget] at kept
    split at kept
    · cases kept
    · exact kept

/-- Editing a variable changes what is found under its handle, and nothing else. -/
theorem get?_updateVariable (s : Store) (g : Handle) (f : Variable → Variable) (h : Handle) :
    (s.updateVariable g f).get? h = (s.get? h).map fun e => if h = g then e.update f else e := by
  simp only [get?, updateVariable, Table.get?_modify]
  cases s.threadTable.get? h <;> cases s.frameTable.get? h <;> cases s.scopeTable.get? h <;>
    cases s.variableTable.get? h <;> by_cases e : h = g <;> simp [e, Entity.update]

/-- What is found after an entity was placed under the next handle is that entity, or it was there before. -/
private theorem of_get?_issue_place (hs : s.unframed.Consistent) {entity e : Entity}
    (found : (s.issue.place s.nextHandle entity).get? h = some e) :
    (h = s.nextHandle ∧ entity = e) ∨ s.get? h = some e := by
  have fresh : ∀ k, s.nextHandle ∉ s.issue.handlesOf k := fun k =>
    handlesOf_issue s k ▸ hs.nextHandle_not_mem k
  rw [get?_place fresh] at found
  split at found
  · next same => exact .inl ⟨same, Option.some.inj found⟩
  · exact .inr found

/-- What is found after an operation was added by it, or was there before. -/
theorem of_get?_apply (hs : s.unframed.Consistent) {op : Op} {e : Entity}
    (found : (op.apply s).get? h = some e) :
    (op.newHandle? s = some h ∧ op.entity? = some e) ∨ ∃ e₀, s.get? h = some e₀ ∧ e = op.edit h e₀ := by
  -- only the two ways of adding put an entity under a handle, and only editing changes one
  cases op with
  | addThread id name =>
    simp only [Op.apply, Op.newHandle?, Store.addThread] at found ⊢
    cases known : s.threadHandles.get? id with
    | some g =>
      rw [known] at found
      exact .inr ⟨e, found, rfl⟩
    -- a new thread is the one new entity
    | none =>
      rw [known] at found
      have found : (s.issue.place s.nextHandle (.thread ⟨id, name⟩)).get? h = some e := found
      rcases of_get?_issue_place hs found with ⟨rfl, rfl⟩ | before
      · exact .inl ⟨rfl, rfl⟩
      · exact .inr ⟨e, before, rfl⟩
  | add parent entity =>
    simp only [Op.apply, Op.newHandle?] at found ⊢
    unfold Store.add at found ⊢
    -- an entity that its parent cannot hold is not added
    split at found
    · exact .inr ⟨e, found, rfl⟩
    split at found
    · exact .inr ⟨e, found, rfl⟩
    split at found
    · next k hk he hold =>
      rcases of_get?_issue_place hs found with ⟨rfl, rfl⟩ | before
      · rw [if_neg he, if_pos hold]
        exact .inl ⟨rfl, rfl⟩
      · exact .inr ⟨e, before, rfl⟩
    · exact .inr ⟨e, found, rfl⟩
  -- what is left after a removal was there before
  | retainThreads alive =>
    rw [Op.apply, retainThreads_eq] at found
    exact .inr ⟨e, get?_of_removeAll _ s found, rfl⟩
  | removeChildren g =>
    rw [Op.apply, removeChildren_eq] at found
    exact .inr ⟨e, get?_of_removeAll _ s found, rfl⟩
  | updateVariable g f =>
    rw [Op.apply, get?_updateVariable] at found
    obtain ⟨e₀, before, rfl⟩ := Option.map_eq_some_iff.1 found
    exact .inr ⟨e₀, before, rfl⟩
  | setCurrentThread id => exact .inr ⟨e, found, rfl⟩
  | setCurrentFrame frame => exact .inr ⟨e, found, rfl⟩
  | clear => cases found

/-- What is found was added under its handle, and the store was not cleared since then. -/
theorem exists_added {ops : List Op} {e : Entity} (found : (run {} ops).get? h = some e) :
    ∃ before op after entity, ops = before ++ op :: after ∧ Op.clear ∉ after ∧
      op.newHandle? (run {} before) = some h ∧ op.entity? = some entity ∧
      e = after.foldl (Op.edit h) entity := by
  induction ops using List.reverseRecOn generalizing e with
  | nil => cases found
  | append_singleton ops last ih =>
    -- either the last operation added it, or it was found before and the last one is no `clear`
    have step : run {} (ops ++ [last]) = last.apply (run {} ops) := run_append {} ops [last]
    rw [step] at found
    rcases of_get?_apply (consistent_unframed_run ops) found with ⟨new, added⟩ | ⟨e₀, known, rfl⟩
    · exact ⟨ops, last, [], e, rfl, List.not_mem_nil, new, added, rfl⟩
    · obtain ⟨before, op, after, entity, rfl, kept, new, added, rfl⟩ := ih known
      refine ⟨before, op, after ++ [last], entity, by simp, ?_, new, added, by simp⟩
      rw [List.mem_append, List.mem_singleton]
      rintro (cleared | rfl)
      · exact kept cleared
      · cases found

/-! ## After a store was cleared -/

/-- After a store was cleared, a handle is found in no way until it is given out again. From then on the
entity under it is the one that was added with it, with the changes made to it since. -/
theorem notFound_or_reissued (before after : List Op) (h : Handle) :
    let s := run {} (before ++ .clear :: after)
    s.NotFound h ∨ ∃ later op rest entity, after = later ++ op :: rest ∧ Op.clear ∉ rest ∧
      op.newHandle? (run {} (before ++ .clear :: later)) = some h ∧ op.entity? = some entity ∧
      s.get? h = some (rest.foldl (Op.edit h) entity) := by
  intro s
  have cleared : ∀ ops, run {} (before ++ .clear :: ops) = run {} ops := fun ops => run_append ..
  -- what is found now was added by an operation after the `clear`, under a handle it issued again
  cases found : s.get? h with
  | none =>
    exact .inl (.of_get?_eq_none (consistent_unframed_run _) found)
  | some e =>
    have found' : (run {} after).get? h = some e := by rw [← cleared, found]
    obtain ⟨later, op, rest, entity, split, kept, new, added, rfl⟩ := exists_added found'
    exact .inr ⟨later, op, rest, entity, split, kept, (cleared later).symm ▸ new, added, rfl⟩

/-- A frame of a stopped debuggee has handle 2. When it has run, the frame of another thread is given
that handle again. -/
theorem not_all_notFound_after_clear :
    ¬∀ (before after : List Op) (h : Handle), h ∈ newHandles {} before →
      (run {} (before ++ .clear :: after)).get? h = none := by
  intro all
  have found := all
    [.addThread 1 "main", .add ⟨1⟩ (.frame ⟨0x1000, 0, none, 0, "app!main"⟩)]
    [.addThread 7 "worker", .add ⟨1⟩ (.frame ⟨0x2000, 0, none, 0, "app!work"⟩)] ⟨2⟩ (by decide)
  revert found
  decide

end Store

end DebugAdapter
