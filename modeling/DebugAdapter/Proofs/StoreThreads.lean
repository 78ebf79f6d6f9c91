import DebugAdapter.Proofs.StoreRuns

/-!
# Threads and the other entities

All entities of a consistent store hang below threads: one that has no thread has no entities at all.
So whether there are entities is a matter of the thread table, which only the operations on threads
change.

## Key results

- `Consistent.isEmpty_iff`: a store without threads is empty
- `Consistent.threadTable_apply`: the operations that leave the threads alone
- `Consistent.get?_add`: what is found after an entity was added
-/

namespace DebugAdapter

/-- Erasing a key that is not there changes nothing. -/
theorem Table.erase_of_not_mem {κ α : Type} [DecidableEq κ] {t : Table κ α} {k : κ}
    (h : k ∉ t.keys) : t.erase k = t := by
  obtain ⟨entries, nodup⟩ := t
  simp only [erase, mk.injEq, List.filter_eq_self]
  intro e he
  have : e.1 ≠ k := fun hk => h (List.mem_map.2 ⟨e, he, hk⟩)
  simpa using this

/-- The operation may add or remove threads. -/
def Store.Op.OnThreads : Store.Op → Prop
  | .addThread .. | .retainThreads _ | .clear => True
  | _ => False

namespace Store

variable {s : Store}

/-! ## Holders -/

/-- Where there is an entity, there is a thread. -/
theorem Consistent.exists_thread (hs : s.Consistent) {k : EntityKind} {h : Handle}
    (hk : h ∈ s.handlesOf k) : ∃ t, t ∈ s.handlesOf .thread := by
  by_cases e : k = .thread
  · exact ⟨h, e ▸ hk⟩
  · obtain ⟨p, hp⟩ := hs.parent_iff.2 ⟨k, e, hk⟩
    obtain ⟨kp, -, hkp, -, -⟩ := hs.parent_live hp nofun
    -- holders are older, and the oldest is a thread
    have older := hs.parent_lt hp
    have range := hs.handle_range hk
    exact hs.exists_thread hkp
termination_by h.raw.toNat

/-- A consistent store is empty if it has no thread. -/
theorem Consistent.isEmpty_iff (hs : s.Consistent) : s.isEmpty = true ↔ s.threadTable.keys = [] := by
  simp only [isEmpty, Bool.and_eq_true, List.isEmpty_iff]
  refine ⟨fun h => ?_, fun h => ?_⟩
  · rw [Table.keys, h.1.1.1, List.map_nil]
  · -- any entity would hang below a thread
    have none : ∀ k, s.handlesOf k = [] := by
      intro k
      rw [List.eq_nil_iff_forall_not_mem]
      intro g hg
      obtain ⟨t, ht⟩ := hs.exists_thread hg
      rw [handlesOf, h] at ht
      cases ht
    exact ⟨⟨⟨List.map_eq_nil_iff.1 (none .thread), List.map_eq_nil_iff.1 (none .frame)⟩,
      List.map_eq_nil_iff.1 (none .scope)⟩, List.map_eq_nil_iff.1 (none .variable)⟩

/-- Two consistent stores with the same threads are both empty or both not. -/
theorem Consistent.isEmpty_congr {s' : Store} (hs : s.Consistent) (hs' : s'.Consistent)
    (h : s'.threadTable = s.threadTable) : s'.isEmpty = s.isEmpty := by
  rw [Bool.eq_iff_iff, hs.isEmpty_iff, hs'.isEmpty_iff, h]

/-- What has a holder is no thread. -/
theorem ConsistentExcept.not_thread_of_mem_children {stack : List Handle}
    (hs : s.ConsistentExcept stack) {h p : Handle} (hm : h ∈ s.children p) :
    h ∉ s.handlesOf .thread := by
  intro ht
  obtain ⟨k, hk, hm⟩ := hs.parent_iff.1 ⟨p, hs.parent_of_mem_children hm⟩
  exact hk (hs.kind_unique hm ht)

/-! ## Removal -/

/-- What is left after a removal was there before, and was not to be removed. -/
theorem mem_handlesOf_removeAll (stack : List Handle) (s : Store) {g : Handle} {k : EntityKind}
    (h : g ∈ (s.removeAll stack).handlesOf k) : g ∈ s.handlesOf k ∧ g ∉ stack := by
  fun_induction Store.removeAll stack s with
  | case1 s => exact ⟨h, List.not_mem_nil⟩
  | case2 top rest s ih =>
    -- the new stack has all of the old one but its top, which is forgotten
    obtain ⟨hm, hn⟩ := ih h
    obtain ⟨hm, hne⟩ := mem_handlesOf_forget.1 hm
    simp only [List.mem_append, not_or] at hn
    refine ⟨hm, ?_⟩
    rw [List.mem_cons, not_or]
    exact ⟨hne, hn.2⟩

/-- The removal of what is no thread removes no thread. -/
theorem ConsistentExcept.threadTable_removeAll (stack : List Handle) (s : Store)
    (hs : s.ConsistentExcept stack) (hstack : ∀ h ∈ stack, h ∉ s.handlesOf .thread) :
    (s.removeAll stack).threadTable = s.threadTable := by
  fun_induction Store.removeAll stack s with
  | case1 s => rfl
  | case2 h rest s ih =>
    have same : (s.forget h).threadTable = s.threadTable :=
      Table.erase_of_not_mem (hstack h List.mem_cons_self)
    refine (ih hs.forget fun g hg => ?_).trans same
    -- what `h` held has a holder, so it is no thread either
    have : g ∉ s.handlesOf .thread := by
      rcases List.mem_append.1 hg with hg | hg
      · exact hs.not_thread_of_mem_children (List.mem_reverse.1 hg)
      · exact hstack g (List.mem_cons_of_mem _ hg)
    exact fun hm => this (mem_handlesOf_forget.1 hm).1

/-- Removing what hangs below an entity removes no thread. -/
theorem Consistent.threadTable_removeChildren (hs : s.Consistent) (h : Handle) :
    (s.removeChildren h).threadTable = s.threadTable := by
  rw [removeChildren_eq]
  exact ConsistentExcept.threadTable_removeAll _ s (hs.except _) fun _ hg =>
    hs.not_thread_of_mem_children hg

/-- When no threads are to be kept, none are left. -/
theorem Consistent.keys_retainThreads_nil (hs : s.Consistent) :
    (s.retainThreads []).threadTable.keys = [] := by
  rw [List.eq_nil_iff_forall_not_mem]
  intro g hg
  rw [retainThreads_eq] at hg
  obtain ⟨hm, hn⟩ := mem_handlesOf_removeAll (k := .thread) _ s hg
  obtain ⟨t, ht⟩ := Table.mem_keys_iff.1 hm
  -- all threads are on the stack
  refine hn (List.mem_map.2 ⟨t, ?_, hs.threads_labelled g t ht⟩)
  rw [List.mem_filter]
  exact ⟨Table.mem_values_iff.2 ⟨g, ht⟩, rfl⟩

/-! ## Addition -/

/-- A thread is stored after one was added, also if it was known before. -/
theorem addThread_ne_nil (hs : s.Consistent) (id : UInt32) (name : String) :
    (s.addThread id name).2.threadTable.keys ≠ [] := by
  refine List.ne_nil_of_mem (a := (s.addThread id name).1) ?_
  unfold addThread
  split
  · next h hid =>
    obtain ⟨t, ht, -⟩ := hs.threadHandles_iff.1 hid
    exact Table.mem_keys_iff.2 ⟨t, ht⟩
  · exact Table.mem_keys_insert.2 (.inr rfl)

/-- Adding a child adds no thread. -/
theorem threadTable_add (s : Store) (parent : Handle) (entity : Entity) :
    (s.add parent entity).2.threadTable = s.threadTable := by
  unfold add
  split
  · rfl
  split
  · rfl
  split
  · next he _ =>
    cases entity
    case thread => exact absurd rfl he
    all_goals rfl
  · rfl

/-- Only the operations on threads change the thread table. -/
theorem Consistent.threadTable_apply (hs : s.Consistent) {op : Op} (h : ¬op.OnThreads) :
    (op.apply s).threadTable = s.threadTable := by
  cases op with
  | add parent entity => exact threadTable_add s parent entity
  | removeChildren holder => exact hs.threadTable_removeChildren holder
  | updateVariable | setCurrentThread | setCurrentFrame => rfl
  | _ => exact absurd trivial h

/-! ## What is found under a handle -/

/-- What is found when an entity was placed under a handle that nothing was stored under. -/
theorem get?_place {h : Handle} (fresh : ∀ k, h ∉ s.handlesOf k) (e : Entity) (g : Handle) :
    (s.place h e).get? g = if g = h then some e else s.get? g := by
  have thread : s.threadTable.get? h = none := Table.get?_eq_none_iff.2 (fresh .thread)
  have frame : s.frameTable.get? h = none := Table.get?_eq_none_iff.2 (fresh .frame)
  have scope : s.scopeTable.get? h = none := Table.get?_eq_none_iff.2 (fresh .scope)
  by_cases hg : g = h
  · subst hg
    cases e <;> simp [place, get?, Table.get?_insert, thread, frame, scope]
  · cases e <;> simp [place, get?, Table.get?_insert, hg]

/-- Adding an entity leaves what is stored, and the entity is found under the handle it was given. -/
theorem Consistent.get?_add (hs : s.Consistent) (parent : Handle) (entity : Entity) :
    (∀ {g e}, s.get? g = some e → (s.add parent entity).2.get? g = some e) ∧
    ∀ {h}, (s.add parent entity).1 = .ok h → (s.add parent entity).2.get? h = some entity := by
  -- an entity that is placed is found under its own handle, and all others as before
  have found : ∀ g, ((s.issue.place s.nextHandle entity).link parent s.nextHandle).get? g =
      if g = s.nextHandle then some entity else s.get? g :=
    get?_place (s := s.issue) (fun k => handlesOf_issue s k ▸ hs.nextHandle_not_mem k) entity
  -- a refused entity changes nothing but the number of issued handles
  unfold Store.add
  split
  · exact ⟨id, fun hh => by cases hh⟩
  split
  · exact ⟨id, fun hh => by cases hh⟩
  split
  · refine ⟨fun {g e} hg => ?_, fun {h} hh => ?_⟩
    · -- nothing is found under the next handle yet
      have : g ≠ s.nextHandle := by
        rintro rfl
        have unknown : s.get? s.nextHandle = none := by
          have absent : ∀ {α : Type} {t : Table Handle α}, s.nextHandle ∉ t.keys →
              t.get? s.nextHandle = none := Table.get?_eq_none_iff.2
          have fresh := hs.nextHandle_not_mem
          simp [get?, absent (fresh .thread), absent (fresh .frame), absent (fresh .scope),
            absent (fresh .variable)]
        rw [unknown] at hg
        cases hg
      rw [found, if_neg this, hg]
    · obtain rfl : s.nextHandle = h := Except.ok.inj hh
      rw [found, if_pos rfl]
  · exact ⟨id, fun hh => by cases hh⟩

/-- What is in the table of one kind is in no other one. -/
private theorem Consistent.get?_eq_none (hs : s.Consistent) {k : EntityKind} {α : Type}
    {t : Table Handle α} {h : Handle} (hk : h ∈ s.handlesOf k) (k' : EntityKind)
    (ht : t.keys = s.handlesOf k') (ne : k' ≠ k) : t.get? h = none := by
  rw [Table.get?_eq_none_iff, ht]
  exact fun hk' => ne (hs.kind_unique hk' hk)

/-- Frames, scopes and variables that are listed are stored under their handles. -/
theorem Consistent.get?_of_mem_framesOf (hs : s.Consistent) {p : Handle} {r : Registered Frame}
    (h : r ∈ s.framesOf p) : s.get? r.handle = some (.frame r.content) := by
  obtain ⟨g, -, hg⟩ := List.mem_filterMap.1 h
  obtain rfl := hs.frames_labelled g r hg
  have key : r.handle ∈ s.handlesOf .frame := Table.mem_keys_iff.2 ⟨r, hg⟩
  have thread := hs.get?_eq_none (t := s.threadTable) key .thread rfl nofun
  simp [get?, thread, hg]

/-- A scope that is listed below a frame is found under its handle. -/
theorem Consistent.get?_of_mem_scopesOf (hs : s.Consistent) {p : Handle} {r : Registered Scope}
    (h : r ∈ s.scopesOf p) : s.get? r.handle = some (.scope r.content) := by
  obtain ⟨g, -, hg⟩ := List.mem_filterMap.1 h
  obtain rfl := hs.scopes_labelled g r hg
  have key : r.handle ∈ s.handlesOf .scope := Table.mem_keys_iff.2 ⟨r, hg⟩
  have thread := hs.get?_eq_none (t := s.threadTable) key .thread rfl nofun
  have frame := hs.get?_eq_none (t := s.frameTable) key .frame rfl nofun
  simp [get?, thread, frame, hg]

/-- A variable that is listed below its holder is found under its handle. -/
theorem Consistent.get?_of_mem_variablesOf (hs : s.Consistent) {p : Handle}
    {r : Registered Variable} (h : r ∈ s.variablesOf p) :
    s.get? r.handle = some (.variable r.content) := by
  obtain ⟨g, -, hg⟩ := List.mem_filterMap.1 h
  obtain rfl := hs.variables_labelled g r hg
  have key : r.handle ∈ s.handlesOf .variable := Table.mem_keys_iff.2 ⟨r, hg⟩
  have thread := hs.get?_eq_none (t := s.threadTable) key .thread rfl nofun
  have frame := hs.get?_eq_none (t := s.frameTable) key .frame rfl nofun
  have scope := hs.get?_eq_none (t := s.scopeTable) key .scope rfl nofun
  simp [get?, thread, frame, scope, hg]

/-- Nothing is found in an empty store. -/
theorem get?_of_isEmpty (h : s.isEmpty = true) (g : Handle) : s.get? g = none := by
  simp only [isEmpty, Bool.and_eq_true, List.isEmpty_iff] at h
  simp [get?, Table.get?, h]

end Store

end DebugAdapter
