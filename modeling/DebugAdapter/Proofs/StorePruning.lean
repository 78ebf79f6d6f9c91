import DebugAdapter.Proofs.StoreRemoval
import Mathlib.Logic.Function.Iterate

/-!
# What a removal leaves

When entities are removed, all the others are left as they were, each in its place among those of its
kind and among its siblings, and nothing mentions an entity that was removed (`Prunes`). Nothing is asked
of the operations that built the store. So the current frame may be one that is not there, and the tables
are consistent when it is left out (`unframed`).

Each list of a store is a sieve for what is forgotten: one entity is taken off, and the rest keeps its order.
What a whole removal takes off is told by what hangs below the entities on the stack.

## Key results

- `prunes_removeAll`: what is left of the store when the stack is empty
- `exists_iterate_removeTop`: the loop that works the stack off ends
- `run_prunes`: removal below an entity, and of threads, in every store that operations build
-/

namespace DebugAdapter.Store

variable {s s' : Store} {a g h p : Handle} {stack rest : List Handle}

open Classical in
/-- From `s` to `s'` the entities with `gone` were removed, and nothing else was done. -/
structure Prunes (s s' : Store) (gone : Handle → Prop) : Prop where
  /-- Only entities are removed. -/
  stored : ∀ {h}, gone h → ∃ e, s.get? h = some e
  threadTable_eq : s'.threadTable.entries = s.threadTable.entries.filter fun e => ¬gone e.1
  frameTable_eq : s'.frameTable.entries = s.frameTable.entries.filter fun e => ¬gone e.1
  scopeTable_eq : s'.scopeTable.entries = s.scopeTable.entries.filter fun e => ¬gone e.1
  variableTable_eq : s'.variableTable.entries = s.variableTable.entries.filter fun e => ¬gone e.1
  /-- Threads are found by their system ids as before, unless they were removed. -/
  threadHandles_eq : ∀ id, s'.threadHandles.get? id = (s.threadHandles.get? id).filter fun h => ¬gone h
  parents_eq : s'.parents.entries = s.parents.entries.filter fun e => ¬gone e.1
  children_eq : ∀ {p}, ¬gone p → s'.children p = (s.children p).filter fun h => ¬gone h
  /-- What was removed holds nothing, is held by nothing, and is on no list. -/
  children_eq_nil : ∀ {p}, gone p → s'.children p = []
  not_gone_of_parent? : ∀ {h p}, s'.parent? h = some p → ¬gone h ∧ ¬gone p
  not_gone_of_mem_children : ∀ {h p}, h ∈ s'.children p → ¬gone h
  /-- The current thread is the one it was, unless that is a thread that was removed. -/
  currentThread_eq : s'.currentThread = s.currentThread.filter fun id =>
    ¬∃ h thread, s.threadAt? h = some thread ∧ thread.systemId = id ∧ gone h
  currentFrame_eq : s'.currentFrame = s.currentFrame.filter fun h => ¬gone h
  issued_eq : s'.issued = s.issued

/-- What is pruned may be described by any equivalent condition. -/
theorem Prunes.congr {gone gone' : Handle → Prop} (prunes : s.Prunes s' gone)
    (same : ∀ h, gone h ↔ gone' h) : s.Prunes s' gone' := by
  obtain rfl : gone = gone' := funext fun h => propext (same h)
  exact prunes

/-- `h` is on a stack, or hangs below something on it. -/
def UnderSome (s : Store) (stack : List Handle) (h : Handle) : Prop :=
  ∃ a ∈ stack, s.Under a h

/-- Nothing is under an entity of the empty stack. -/
theorem not_underSome_nil : ¬s.UnderSome [] h :=
  fun ⟨_, mem, _⟩ => List.not_mem_nil mem

/-! ## Without the current frame -/

/-- What is under an entity does not depend on the current frame. -/
theorem under_unframed_iff : s.unframed.Under a h ↔ s.Under a h := by
  constructor <;> intro under
  · induction under with
    | refl => exact .refl
    | step held _ ih => exact .step held ih
  · induction under with
    | refl => exact .refl
    | step held _ ih => exact .step held ih

/-- What is below an entity does not depend on the current frame. -/
theorem below_unframed_iff : s.unframed.Below a h ↔ s.Below a h :=
  exists_congr fun _ => and_congr_right fun _ => under_unframed_iff

/-- The thread an entity belongs to does not depend on the current frame. -/
theorem ownedBy_unframed_iff {id : UInt32} : s.unframed.OwnedBy h id ↔ s.OwnedBy h id :=
  exists_congr fun _ => exists_congr fun _ => and_congr_right fun _ => and_congr_right fun _ =>
    under_unframed_iff

/-- What is under an entity of a stack does not depend on the current frame. -/
theorem underSome_unframed_iff : s.unframed.UnderSome stack h ↔ s.UnderSome stack h :=
  exists_congr fun _ => and_congr_right fun _ => under_unframed_iff

/-- Removal ends with consistent tables. -/
private theorem consistent_unframed_removeAll (stack : List Handle) (s : Store)
    (hs : s.unframed.ConsistentExcept stack) : (s.removeAll stack).unframed.Consistent := by
  fun_induction Store.removeAll stack s with
  | case1 s => exact hs
  | case2 h rest s ih => exact ih hs.forget

/-- What hung below a stack when its top is forgotten: the top, and what hangs below the new stack. -/
private theorem under_stack_iff (hs : s.unframed.ConsistentExcept (h :: rest)) :
    s.UnderSome (h :: rest) g ↔
      g = h ∨ (s.forget h).UnderSome ((s.children h).reverse ++ rest) g := by
  rw [← underSome_unframed_iff (s := s), ← underSome_unframed_iff (s := s.forget h)]
  exact hs.under_forget_iff.symm

/-! ## Lists -/

open Classical in
/-- Let an entity be taken off a list when it is forgotten. Then all that hangs below a stack is off the list
when the stack is empty, and the rest is left in its order. The list may be one of which this is only known
for some entities (`free`), as long as only these are forgotten. -/
private theorem filter_removeAll {α : Type} (view : Store → List α) (key : α → Handle)
    (free : Handle → Prop)
    (step : ∀ {s h rest}, s.unframed.ConsistentExcept (h :: rest) → free h →
      view (s.forget h) = (view s).filter (key · ≠ h))
    (stack : List Handle) (s : Store) (hs : s.unframed.ConsistentExcept stack)
    (only : ∀ h, s.UnderSome stack h → free h) :
    view (s.removeAll stack) = (view s).filter fun x => ¬s.UnderSome stack (key x) := by
  fun_induction Store.removeAll stack s with
  | case1 s => exact (List.filter_eq_self.2 fun x _ => decide_eq_true not_underSome_nil).symm
  | case2 h rest s ih =>
    have top : free h := only h ⟨h, List.mem_cons_self, .refl⟩
    have later := ih hs.forget fun g under => only g ((under_stack_iff hs).2 (.inr under))
    -- what is off the list is `h`, and what hangs below the stack that is left: all that hung below the stack
    rw [later, step hs top, List.filter_filter]
    refine List.filter_congr fun x _ => ?_
    rw [Bool.eq_iff_iff]
    simp only [Bool.and_eq_true, decide_eq_true_eq, under_stack_iff hs, not_or, and_comm]

open Classical in
/-- The same for the entries of a table. -/
private theorem filter_entries_removeAll {α : Type} (view : Store → List (Handle × α))
    (step : ∀ s h, view (s.forget h) = (view s).filter (·.1 ≠ h)) {stack : List Handle} {s : Store}
    (hs : s.unframed.ConsistentExcept stack) :
    view (s.removeAll stack) = (view s).filter fun e => ¬s.UnderSome stack e.1 :=
  filter_removeAll view (·.1) (fun _ => True) (fun _ _ => step _ _) stack s hs fun _ _ => trivial

open Classical in
/-- The same for what there is at most one of. -/
private theorem filter_option_removeAll (view : Store → Option Handle)
    (step : ∀ {s h rest}, s.unframed.ConsistentExcept (h :: rest) →
      view (s.forget h) = (view s).filter (· ≠ h))
    (stack : List Handle) (s : Store) (hs : s.unframed.ConsistentExcept stack) :
    view (s.removeAll stack) = (view s).filter fun h => ¬s.UnderSome stack h := by
  -- it is a list of one element at most
  have listed := filter_removeAll (fun s => (view s).toList) id (fun _ => True)
    (fun hs _ => by rw [step hs, Option.toList_filter]; rfl) stack s hs fun _ _ => trivial
  ext g
  rw [← Option.mem_toList, listed, List.mem_filter, Option.mem_toList, Option.filter_eq_some_iff]
  rfl

/-- A thread is found by its system id until it is forgotten. -/
private theorem threadHandles_forget_eq_some_iff (hs : s.unframed.ConsistentExcept (h :: rest))
    {id : UInt32} : (s.forget h).threadHandles.get? id = some g ↔
      s.threadHandles.get? id = some g ∧ g ≠ h := by
  have after : (s.forget h).threadHandles.get? id = some g ↔
      ∃ t, (s.forget h).threadTable.get? g = some t ∧ t.content.systemId = id :=
    hs.forget.threadHandles_iff
  have before : s.threadHandles.get? id = some g ↔
      ∃ t, s.threadTable.get? g = some t ∧ t.content.systemId = id := hs.threadHandles_iff
  have erased : (s.forget h).threadTable.get? g = if g = h then none else s.threadTable.get? g :=
    Table.get?_erase ..
  rw [after, before, erased]
  split
  · next e => simp [e]
  · next e => simp [e]

/-- The current thread is no more when it is forgotten. -/
private theorem currentThread_forget_eq_some_iff (hs : s.unframed.ConsistentExcept (h :: rest))
    {id : UInt32} : (s.forget h).currentThread = some id ↔
      s.currentThread = some id ∧ s.threadHandles.get? id ≠ some h := by
  have known : s.threadHandles.get? id = some h ↔
      ∃ t, s.threadTable.get? h = some t ∧ t.content.systemId = id := hs.threadHandles_iff
  rw [ne_eq, known]
  simp only [forget]
  cases s.threadTable.get? h with
  | none => simp
  | some t => simp [Option.filter_eq_some_iff, eq_comm (a := id)]

open Classical in
/-- The current thread stays chosen through a removal unless it is one of those that are removed. -/
private theorem currentThread_removeAll (stack : List Handle) (s : Store)
    (hs : s.unframed.ConsistentExcept stack) :
    (s.removeAll stack).currentThread = s.currentThread.filter fun id =>
      ¬∃ h, s.threadHandles.get? id = some h ∧ s.UnderSome stack h := by
  -- along the removal: each step drops the chosen id if it is that of the forgotten thread
  fun_induction Store.removeAll stack s with
  | case1 s =>
    ext id
    simp [Option.filter_eq_some_iff, not_underSome_nil]
  | case2 h rest s ih =>
    rw [ih hs.forget]
    ext id
    simp only [Option.filter_eq_some_iff, currentThread_forget_eq_some_iff hs,
      threadHandles_forget_eq_some_iff hs, under_stack_iff hs, decide_eq_true_eq, and_assoc]
    -- its thread is not `h` and not removed later, or it is neither of those that are removed
    refine and_congr_right fun _ => ?_
    constructor
    · rintro ⟨other, none⟩ ⟨g, found, rfl | under⟩
      · exact other found
      · exact none ⟨g, found, fun e => other (e ▸ found), under⟩
    · intro none
      refine ⟨fun found => none ⟨h, found, .inl rfl⟩, ?_⟩
      rintro ⟨g, found, -, under⟩
      exact none ⟨g, found, .inr under⟩

/-! ## Stores -/

/-- What hangs below an entity is one. -/
private theorem exists_get?_of_under (hs : s.unframed.Consistent) (under : s.Under a h)
    (found : ∃ e, s.get? a = some e) : ∃ e, s.get? h = some e := by
  cases under with
  | refl => exact found
  | step held _ =>
    cases none : s.get? h with
    | some e => exact ⟨e, rfl⟩
    | none =>
      rw [(NotFound.of_get?_eq_none hs none).parent?] at held
      cases held

open Classical in
/-- What the tables of entities have lost is in none of them. -/
private theorem not_mem_handlesOf_of_filter {gone : Handle → Prop}
    (threads : s'.threadTable.entries = s.threadTable.entries.filter fun e => ¬gone e.1)
    (frames : s'.frameTable.entries = s.frameTable.entries.filter fun e => ¬gone e.1)
    (scopes : s'.scopeTable.entries = s.scopeTable.entries.filter fun e => ¬gone e.1)
    (vars : s'.variableTable.entries = s.variableTable.entries.filter fun e => ¬gone e.1)
    (k : EntityKind) : ∀ h ∈ s'.handlesOf k, ¬gone h := by
  -- each kind has a table of its own
  have sieved : ∀ {α : Type} {t t' : Table Handle α},
      t'.entries = t.entries.filter (fun e => ¬gone e.1) → ∀ h ∈ t'.keys, ¬gone h := by
    intro α t t' same h mem
    obtain ⟨e, listed, rfl⟩ := List.mem_map.1 mem
    rw [same] at listed
    simpa using (List.mem_filter.1 listed).2
  cases k with
  | thread => exact sieved threads
  | frame => exact sieved frames
  | scope => exact sieved scopes
  | «variable» => exact sieved vars

/-- When the stack is empty, what hung below it is removed, and all else is left. -/
theorem prunes_removeAll (hs : s.unframed.Consistent) (found : ∀ a ∈ stack, ∃ e, s.get? a = some e) :
    s.Prunes (s.removeAll stack) (s.UnderSome stack) := by
  have start : s.unframed.ConsistentExcept stack := hs.except stack
  have final := consistent_unframed_removeAll stack s start
  -- each table is read without the current frame, and forgetting filters it
  have threads := filter_entries_removeAll (·.threadTable.entries) (fun _ _ => rfl) start
  have frames := filter_entries_removeAll (·.frameTable.entries) (fun _ _ => rfl) start
  have scopes := filter_entries_removeAll (·.scopeTable.entries) (fun _ _ => rfl) start
  have vars := filter_entries_removeAll (·.variableTable.entries) (fun _ _ => rfl) start
  have live : ∀ k, ∀ h ∈ (s.removeAll stack).handlesOf k, ¬s.UnderSome stack h :=
    not_mem_handlesOf_of_filter threads frames scopes vars
  -- both ends of an edge are there
  have edges : ∀ {h p}, (s.removeAll stack).parent? h = some p →
      ¬s.UnderSome stack h ∧ ¬s.UnderSome stack p := by
    intro h p held
    obtain ⟨kp, k, holder, mem, -⟩ := final.parent_live held List.not_mem_nil
    exact ⟨live k h mem, live kp p holder⟩
  exact
  -- the index of the threads and the current one follow from the table of the threads
  { stored := fun ⟨a, mem, under⟩ => exists_get?_of_under hs under (found a mem)
    threadTable_eq := threads
    frameTable_eq := frames
    scopeTable_eq := scopes
    variableTable_eq := vars
    threadHandles_eq := fun id => by
      refine filter_option_removeAll (·.threadHandles.get? id) (fun hs => ?_) stack s start
      ext g
      rw [threadHandles_forget_eq_some_iff hs, Option.filter_eq_some_iff, decide_eq_true_eq]
    parents_eq := filter_entries_removeAll (·.parents.entries) (fun _ _ => rfl) start
    children_eq := fun {p} kept => by
      refine filter_removeAll (·.children p) id (· ≠ p) (fun {s h _} hs other => ?_) stack s start
        fun h under e => kept (e ▸ under)
      have edges : ∀ q, h ∈ s.children q → s.parents.get? h = some q := fun _ =>
        hs.parent_of_mem_children
      rw [children_forget edges, if_neg (Ne.symm other)]
      rfl
    children_eq_nil := fun {p} gone =>
      List.eq_nil_iff_forall_not_mem.2 fun _ mem => (edges (final.parent_of_mem_children mem)).2 gone
    not_gone_of_parent? := edges
    not_gone_of_mem_children := fun mem => (edges (final.parent_of_mem_children mem)).1
    currentThread_eq := by
      rw [currentThread_removeAll stack s start]
      congr 1
      funext id
      -- a thread is found by its system id if the table of threads has it
      have known : ∀ h, s.threadHandles.get? id = some h ↔
          ∃ thread, s.threadAt? h = some thread ∧ thread.systemId = id := by
        intro h
        rw [show s.threadHandles.get? id = some h ↔ _ from hs.threadHandles_iff]
        simp only [threadAt?, Option.map_eq_some_iff, exists_exists_and_eq_and]
        rfl
      refine decide_eq_decide.2 (not_congr (exists_congr fun h => ?_))
      rw [known, ← exists_and_right]
      exact exists_congr fun _ => and_assoc
    currentFrame_eq := filter_option_removeAll (·.currentFrame) (fun _ => rfl) stack s start
    issued_eq := issued_removeAll stack s }

/-- The proper descendants of an entity are removed. -/
theorem prunes_removeChildren (hs : s.unframed.Consistent) (h : Handle) :
    s.Prunes (s.removeChildren h) (s.Below h) := by
  rw [removeChildren_eq]
  refine (prunes_removeAll hs fun a mem => ?_).congr fun g => ?_
  · cases none : s.get? a with
    | some e => exact ⟨e, rfl⟩
    | none => exact absurd mem ((NotFound.of_get?_eq_none hs none).not_child h)
  · rw [← below_unframed_iff, ← underSome_unframed_iff]
    exact hs.under_children_iff

/-- Threads that are not to be kept are removed with all that they own. -/
theorem prunes_retainThreads (hs : s.unframed.Consistent) (alive : List UInt32) :
    s.Prunes (s.retainThreads alive) fun h => ∃ id, s.OwnedBy h id ∧ id ∉ alive := by
  rw [retainThreads_eq]
  refine (prunes_removeAll hs fun a mem => ?_).congr fun g => ?_
  · obtain ⟨t, dead, rfl⟩ := List.mem_map.1 mem
    cases none : s.get? t.handle with
    | some e => exact ⟨e, rfl⟩
    | none =>
      exact absurd rfl ((NotFound.of_get?_eq_none hs none).not_thread t (List.mem_filter.1 dead).1)
  · rw [← underSome_unframed_iff]
    simp only [← ownedBy_unframed_iff (s := s)]
    exact hs.under_dead_iff alive

/-! ## The loop -/

/-- One pass of the loop: the entity on top of the stack is forgotten, and what it held takes its place. -/
def removeTop : List Handle × Store → List Handle × Store
  | ([], s) => ([], s)
  | (h :: rest, s) => ((s.children h).reverse ++ rest, s.forget h)

/-- In whatever state the store is, the loop comes to an empty stack. -/
theorem exists_iterate_removeTop (stack : List Handle) (s : Store) :
    ∃ n ≤ stack.length + s.linkCount, removeTop^[n] (stack, s) = ([], s.removeAll stack) := by
  fun_induction Store.removeAll stack s with
  | case1 s => exact ⟨0, Nat.zero_le _, rfl⟩
  | case2 h rest s ih =>
    obtain ⟨n, few, ends⟩ := ih
    -- what is put on the stack is on no list any more, so the pass is paid for by `h`
    have fewer := children_add_linkCount_forget_le s h
    refine ⟨n + 1, ?_, ends⟩
    simp only [List.length_append, List.length_reverse, List.length_cons] at few ⊢
    omega

/-- In a store that was built by any operations, removal below an entity removes its proper descendants and
nothing else, and when threads are to be kept, the others are removed with all that they own and nothing
else. The loop that removes an entity ends after no more passes than there are entries in lists of what
entities hold, and one. -/
theorem run_prunes (ops : List Op) :
    (∀ h, (run {} ops).Prunes ((run {} ops).removeChildren h) ((run {} ops).Below h)) ∧
    (∀ alive, (run {} ops).Prunes ((run {} ops).retainThreads alive) fun h =>
      ∃ id, (run {} ops).OwnedBy h id ∧ id ∉ alive) ∧
    ∀ (s : Store) (root : Handle), ∃ n ≤ s.linkCount + 1,
      removeTop^[n] ([root], s) = ([], s.removeSubtree root) := by
  have hs := consistent_unframed_run ops
  refine ⟨prunes_removeChildren hs, prunes_retainThreads hs, fun s root => ?_⟩
  obtain ⟨n, few, ends⟩ := exists_iterate_removeTop [root] s
  exact ⟨n, by rwa [List.length_singleton, Nat.add_comm] at few, ends⟩

end DebugAdapter.Store
