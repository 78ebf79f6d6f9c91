import DebugAdapter.Proofs.InspectionFrame
import Mathlib.Data.List.Basic

/-!
# Stores that grow

What is listed below an entity grows at its end when something is registered there, and the rest of the
store is as it was (`Grown`, `Appends`). So what was listed first is what a later look finds.

The entities above a scope or a variable are its holder and the holder of that, and so on, however the way
up is bounded (`Consistent.ancestor_eq`).

## Key results

- `appends_frame`, `appends_scope`, `appends_variable`: what is registered comes last
- `Consistent.enlist_enlist`: listing the same threads again changes nothing
- `Consistent.placed_iff`: where a frame is, told by the entities above it
- `Consistent.choices_removeChildren`: removal below a scope leaves the choice of a thread and a frame
-/

namespace DebugAdapter.Store

variable {s s' : Store} {h p : Handle}

/-! ## Additions -/

/-- From `s` to `s'` entities were added, and nothing else was done. -/
structure Grown (s s' : Store) : Prop where
  consistent : s.Consistent → s'.Consistent
  mem : ∀ {k h}, h ∈ s.handlesOf k → h ∈ s'.handlesOf k
  has : ∀ {h entity holder}, s.Has h entity holder → s'.Has h entity holder
  threadHandles_eq : s'.threadHandles = s.threadHandles
  currentThread_eq : s'.currentThread = s.currentThread
  currentFrame_eq : s'.currentFrame = s.currentFrame

/-- A store grows by nothing into itself. -/
theorem Grown.refl (s : Store) : s.Grown s :=
  ⟨id, id, id, rfl, rfl, rfl⟩

/-- Growing twice is growing. -/
theorem Grown.trans {s₁ s₂ s₃ : Store} (h : s₁.Grown s₂) (h' : s₂.Grown s₃) : s₁.Grown s₃ where
  consistent := fun hs => h'.consistent (h.consistent hs)
  mem := fun hk => h'.mem (h.mem hk)
  has := fun hh => h'.has (h.has hh)
  threadHandles_eq := h'.threadHandles_eq.trans h.threadHandles_eq
  currentThread_eq := h'.currentThread_eq.trans h.currentThread_eq
  currentFrame_eq := h'.currentFrame_eq.trans h.currentFrame_eq

/-- Placing an entity does not change the current thread. -/
private theorem currentThread_place (s : Store) (h : Handle) (e : Entity) :
    (s.place h e).currentThread = s.currentThread := by
  cases e <;> rfl

/-- Adding an entity lets the store grow. -/
theorem grown_add (s : Store) (parent : Handle) (e : Entity) : s.Grown (s.add parent e).2 := by
  have same : (∀ {k h}, h ∈ s.handlesOf k → h ∈ (s.add parent e).2.handlesOf k) ∧
      (s.add parent e).2.threadHandles = s.threadHandles ∧
      (s.add parent e).2.currentThread = s.currentThread ∧
      (s.add parent e).2.currentFrame = s.currentFrame := by
    -- an unknown holder, an entity that is refused, and one that is placed
    unfold Store.add
    split
    · exact ⟨id, rfl, rfl, rfl⟩
    split
    · exact ⟨fun {k h} hk => (handlesOf_issue s k).symm ▸ hk, rfl, rfl, rfl⟩
    split
    · refine ⟨fun {k h} hk => ?_, threadHandles_place _ _ e, currentThread_place _ _ e,
        currentFrame_place _ _ e⟩
      rw [handlesOf_link, mem_handlesOf_place, handlesOf_issue]
      exact .inl hk
    · exact ⟨fun {k h} hk => (handlesOf_issue s k).symm ▸ hk, rfl, rfl, rfl⟩
  exact ⟨fun hs => hs.add parent e, same.1, fun has => has.add parent e, same.2.1, same.2.2.1,
    same.2.2.2⟩

/-! ## What is listed -/

/-- What is registered below `parent`, an entity of a kind, comes last on a list. -/
def Appends {β : Type} (kind : EntityKind) (parent : Handle) (toEntity : β → Entity)
    (list : Store → List (Registered β)) : Prop :=
  ∀ s : Store, s.Consistent → parent ∈ s.handlesOf kind → ∀ b,
    (s.add parent (toEntity b)).1 = .ok s.nextHandle ∧
      list (s.add parent (toEntity b)).2 = list s ++ [⟨s.nextHandle, b⟩]

/-- An entity that may be held is put into the table of its kind, and at the end of its holder's list. -/
private theorem Consistent.add_eq (hs : s.Consistent) {kind : EntityKind} {e : Entity}
    (live : p ∈ s.handlesOf kind) (hold : kind.mayHold e.kind = true) (child : e.kind ≠ .thread) :
    s.add p e = (.ok s.nextHandle, (s.issue.place s.nextHandle e).link p s.nextHandle) := by
  have known : s.kindOf? p = some kind := hs.kindOf?_eq_some_iff.2 live
  simp only [Store.add, known, if_neg child, hold, if_true]

/-- The new child is the last on the list of its holder. -/
private theorem children_link_place (s : Store) (e : Entity) (p : Handle) :
    ((s.issue.place s.nextHandle e).link p s.nextHandle).children p =
      s.children p ++ [s.nextHandle] := by
  rw [children_link, if_pos rfl]
  have same : (s.issue.place s.nextHandle e).children p = s.issue.children p := by
    simp only [children, childLists_place]
  rw [same]
  rfl

/-- What is listed by a table comes out longer by what was put into the table under a new handle. -/
private theorem filterMap_insert {α : Type} {t : Table Handle α} {l : List Handle} {g : Handle} (a : α)
    (fresh : g ∉ l) : (l ++ [g]).filterMap (t.insert g a).get? = l.filterMap t.get? ++ [a] := by
  have old : l.filterMap (t.insert g a).get? = l.filterMap t.get? := by
    refine List.filterMap_congr fun x hx => ?_
    have ne : x ≠ g := fun e => fresh (e ▸ hx)
    rw [Table.get?_insert, if_neg ne]
  rw [List.filterMap_append, old]
  simp [Table.get?_insert]

/-- A handle that was not issued is on no list. -/
private theorem Consistent.nextHandle_not_mem_children (hs : s.Consistent) (p : Handle) :
    s.nextHandle ∉ s.children p := by
  intro mem
  have held := hs.parent_of_mem_children mem
  rw [hs.parents_nextHandle] at held
  cases held

/-- A frame that is added is the last of those listed for its thread. -/
theorem appends_frame (thread : Handle) : Appends .thread thread .frame (·.framesOf thread) := by
  intro s hs live f
  have added := hs.add_eq (e := .frame f) live rfl nofun
  refine ⟨congrArg Prod.fst added, ?_⟩
  rw [added]
  simp only [framesOf, children_link_place]
  exact filterMap_insert _ (hs.nextHandle_not_mem_children thread)

/-- A scope that is added is the last of those listed for its frame. -/
theorem appends_scope (frame : Handle) : Appends .frame frame .scope (·.scopesOf frame) := by
  intro s hs live c
  have added := hs.add_eq (e := .scope c) live rfl nofun
  refine ⟨congrArg Prod.fst added, ?_⟩
  rw [added]
  simp only [scopesOf, children_link_place]
  exact filterMap_insert _ (hs.nextHandle_not_mem_children frame)

/-- A variable that is added is the last of those listed for its holder. -/
theorem appends_variable {kind : EntityKind} (hold : kind.mayHold .variable = true) (holder : Handle) :
    Appends kind holder .variable (·.variablesOf holder) := by
  intro s hs live v
  have added := hs.add_eq (e := .variable v) live hold nofun
  refine ⟨congrArg Prod.fst added, ?_⟩
  rw [added]
  simp only [variablesOf, children_link_place]
  exact filterMap_insert _ (hs.nextHandle_not_mem_children holder)

/-- All that is held by what may hold variables only is listed as variables. -/
theorem Consistent.children_eq_nil (hs : s.Consistent) {kind : EntityKind} (live : h ∈ s.handlesOf kind)
    (only : ∀ k, kind.mayHold k = true → k = .variable) (none : s.variablesOf h = []) :
    s.children h = [] := by
  rw [List.eq_nil_iff_forall_not_mem]
  intro g mem
  obtain ⟨kp, k, live', held, hold⟩ := hs.parent_live (hs.parent_of_mem_children mem) List.not_mem_nil
  obtain rfl := hs.kind_unique live live'
  obtain rfl := only k hold
  obtain ⟨r, stored⟩ := Table.mem_keys_iff.1 held
  have listed : r ∈ s.variablesOf h := List.mem_filterMap.2 ⟨g, mem, stored⟩
  rw [none] at listed
  cases listed

/-- What hangs below an entity came after it. -/
theorem Consistent.lt_of_below (hs : s.Consistent) (below : s.Below p h) : p.raw < h.raw := by
  obtain ⟨g, held, under⟩ := below
  have older := hs.parent_lt held
  have above := hs.raw_le_of_under under
  omega

/-- What an entity held is gone when that was removed. -/
theorem Consistent.variablesOf_removeChildren (hs : s.Consistent) (h : Handle) :
    (s.removeChildren h).variablesOf h = [] := by
  rw [List.eq_nil_iff_forall_not_mem]
  intro r listed
  have removed := hs.removed_removeChildren h
  have held := (hs.removeChildren h).parent?_of_mem_variablesOf listed
  by_cases below : s.Below h r.handle
  · rw [removed.parent?_eq_none below] at held
    cases held
  · rw [removed.parent?_eq below] at held
    exact below ⟨h, held, .refl⟩

/-- Where nothing is held, nothing is removed. -/
theorem removeChildren_of_children (none : s.children h = []) : s.removeChildren h = s := by
  rw [removeChildren, none]
  rfl

/-! ## The way up -/

/-- What can only be held by entities of one kind is held by one of these, which is the first of them on
the way up. -/
theorem Consistent.exists_holder (hs : s.Consistent) {kind holders : EntityKind}
    (is : h ∈ s.handlesOf kind) (child : kind ≠ .thread) (other : holders ≠ kind)
    (only : ∀ k, k.mayHold kind = true → k = holders) :
    ∃ p, s.parent? h = some p ∧ p ∈ s.handlesOf holders ∧ s.ancestor h holders = p := by
  obtain ⟨p, held⟩ := hs.parent_iff.2 ⟨kind, child, is⟩
  obtain ⟨kp, k, live, mem, hold⟩ := hs.parent_live held List.not_mem_nil
  obtain rfl : kind = k := hs.kind_unique is mem
  obtain rfl : kp = holders := only kp hold
  have here : ¬s.kindOf? h = some kp := fun known =>
    other (hs.kind_unique (hs.kindOf?_eq_some_iff.1 known) is)
  have there : s.kindOf? p = some kp := hs.kindOf?_eq_some_iff.2 live
  -- two steps are enough, out of those that are allowed
  have found : s.climb kp maxAncestorDepth h = some p := by
    change s.climb kp (510 + 1 + 1) h = some p
    rw [climb, if_neg here, show s.parent? h = some p from held, Option.bind_some, climb, if_pos there]
  exact ⟨p, held, live, by rw [ancestor, found, Option.getD_some]⟩

/-- The thread of a frame is its holder. -/
private theorem Consistent.exists_threadOf (hs : s.Consistent) (is : h ∈ s.handlesOf .frame) :
    ∃ p, s.parent? h = some p ∧ p ∈ s.handlesOf .thread ∧ s.threadOf h = p :=
  hs.exists_holder is nofun nofun fun k => by cases k <;> decide

/-- To find a thread by its handle is to find an entity that is a thread. -/
theorem threadAt?_iff {t : Thread} : s.threadAt? h = some t ↔ s.get? h = some (.thread t) := by
  unfold threadAt? get?
  cases s.threadTable.get? h with
  | some r => simp
  | none =>
    cases s.frameTable.get? h with
    | some r => simp
    | none =>
      cases s.scopeTable.get? h with
      | some r => simp
      | none => cases s.variableTable.get? h <;> simp

/-- The handle of a frame is that of no thread. -/
private theorem Consistent.threadTable_eq_none (hs : s.Consistent) (is : h ∈ s.handlesOf .frame) :
    s.threadTable.get? h = none := by
  rw [Table.get?_eq_none_iff]
  intro thread
  cases hs.kind_unique (k := .thread) thread is

/-- To find a frame by its handle is to find an entity that is a frame. -/
theorem Consistent.frameAt?_iff (hs : s.Consistent) {f : Frame} :
    s.frameAt? h = some f ↔ s.get? h = some (.frame f) := by
  constructor
  · intro found
    obtain ⟨r, stored, rfl⟩ := Option.map_eq_some_iff.1 found
    have is : h ∈ s.handlesOf .frame := Table.mem_keys_iff.2 ⟨r, stored⟩
    have unthreaded : s.threadTable.get? h = none := hs.threadTable_eq_none is
    simp [get?, unthreaded, stored]
  · intro found
    obtain ⟨r, stored⟩ := Table.mem_keys_iff.1 (mem_handlesOf_of_get? found)
    have unthreaded : s.threadTable.get? h = none :=
      hs.threadTable_eq_none (mem_handlesOf_of_get? found)
    simpa [get?, frameAt?, unthreaded, stored] using found

/-- A frame is known, and so is the thread whose stack it is on. -/
structure Placed (s : Store) (frame : Handle) (f : Frame) (t : Thread) : Prop where
  frameAt?_eq : s.frameAt? frame = some f
  threadAt?_eq : s.threadAt? (s.threadOf frame) = some t

/-- A frame that is known is placed by what it is, what holds it, and what that is. -/
theorem Consistent.placed_iff (hs : s.Consistent) {f : Frame} {t : Thread} :
    s.Placed h f t ↔ s.get? h = some (.frame f) ∧ ∃ p, s.parent? h = some p ∧
      s.get? p = some (.thread t) := by
  constructor
  · intro placed
    have found := hs.frameAt?_iff.1 placed.frameAt?_eq
    obtain ⟨p, held, -, up⟩ := hs.exists_threadOf (mem_handlesOf_of_get? found)
    exact ⟨found, p, held, threadAt?_iff.1 (up ▸ placed.threadAt?_eq)⟩
  · rintro ⟨found, p, held, root⟩
    obtain ⟨p', held', -, up⟩ := hs.exists_threadOf (mem_handlesOf_of_get? found)
    obtain rfl : p = p' := Option.some.inj (held.symm.trans held')
    exact ⟨hs.frameAt?_iff.2 found, by rw [up]; exact threadAt?_iff.2 root⟩

/-- A frame that is known is placed. -/
theorem Consistent.exists_placed (hs : s.Consistent) {f : Frame} (found : s.frameAt? h = some f) :
    ∃ t, s.Placed h f t := by
  have found := hs.frameAt?_iff.1 found
  obtain ⟨p, held, live, -⟩ := hs.exists_threadOf (mem_handlesOf_of_get? found)
  obtain ⟨r, stored⟩ := Table.mem_keys_iff.1 live
  have root : s.threadAt? p = some r.content := by rw [threadAt?, stored]; rfl
  exact ⟨r.content, hs.placed_iff.2 ⟨found, p, held, threadAt?_iff.1 root⟩⟩

/-- A frame stays placed when it and its thread stay as they are. -/
theorem Consistent.placed_of_has (hs : s.Consistent) (hs' : s'.Consistent) {f : Frame} {t : Thread}
    (placed : s.Placed h f t)
    (has : ∀ g entity holder, g.raw ≤ h.raw → s.Has g entity holder → s'.Has g entity holder) :
    s'.Placed h f t := by
  obtain ⟨found, p, held, root⟩ := hs.placed_iff.1 placed
  have older := hs.parent_lt held
  have issued : ∀ {g e}, s.get? g = some e → g.raw ≤ s.issued :=
    fun found => (hs.handle_range (mem_handlesOf_of_get? found)).2
  have frame := has h _ _ (Int.le_refl _) ⟨hs, issued found, rfl, rfl⟩
  have thread := has p _ _ (Int.le_of_lt older) ⟨hs, issued root, rfl, rfl⟩
  exact hs'.placed_iff.2 ⟨frame.get?_eq.trans found, p, frame.parent?_eq.trans held,
    thread.get?_eq.trans root⟩

/-- The frame of a scope holds it. -/
theorem Consistent.exists_frameOf (hs : s.Consistent) {c : Scope} (found : s.get? h = some (.scope c)) :
    ∃ frame f, s.parent? h = some frame ∧ s.frameOf h = frame ∧ s.frameAt? frame = some f := by
  have is : h ∈ s.handlesOf .scope := mem_handlesOf_of_get? found
  have only : ∀ k : EntityKind, k.mayHold .scope = true → k = .frame := by
    intro k
    cases k <;> decide
  obtain ⟨p, held, live, up⟩ := hs.exists_holder is nofun (by decide : EntityKind.frame ≠ .scope) only
  obtain ⟨r, stored⟩ := Table.mem_keys_iff.1 live
  exact ⟨p, r.content, held, up, by rw [frameAt?, stored]; rfl⟩

/-! ## Choices -/

/-- Choose a thread and a frame; `none` leaves what was chosen. -/
def choose (thread : Option UInt32) (frame : Option Handle) (s : Store) : Store :=
  { s with
    currentThread := thread <|> s.currentThread
    currentFrame := frame <|> s.currentFrame }

/-- What is chosen already is chosen again. -/
theorem choose_of_chosen {thread : Option UInt32} {frame : Option Handle}
    (hthread : s'.currentThread = (s.choose thread frame).currentThread)
    (hframe : s'.currentFrame = (s.choose thread frame).currentFrame) :
    s'.choose thread frame = s' := by
  have same : (thread <|> s'.currentThread) = s'.currentThread ∧
      (frame <|> s'.currentFrame) = s'.currentFrame := by
    rw [hthread, hframe]
    cases thread <;> cases frame <;> exact ⟨rfl, rfl⟩
  rw [choose, same.1, same.2]

/-- Choosing a thread and a stored frame keeps the store consistent. -/
theorem Consistent.choose (hs : s.Consistent) (thread : Option UInt32) {frame : Option Handle}
    (live : ∀ f, frame = some f → f ∈ s.handlesOf .frame) : (s.choose thread frame).Consistent :=
  { hs with
    currentFrame_live := by
      intro f chosen
      cases frame with
      | none => exact hs.currentFrame_live chosen
      | some f' => exact live f chosen }

/-- What is chosen has no part in where a frame is. -/
theorem Consistent.placed_choose (hs : s.Consistent) {f : Frame} {t : Thread} (placed : s.Placed h f t)
    {thread : Option UInt32} {frame : Option Handle} (hs' : (s.choose thread frame).Consistent) :
    (s.choose thread frame).Placed h f t :=
  hs.placed_of_has hs' placed fun _ _ _ _ has => ⟨hs', has.issued, has.get?_eq, has.parent?_eq⟩

/-- Removing what is neither a thread nor a frame leaves the choices. -/
theorem ConsistentExcept.choices_removeAll (stack : List Handle) (s : Store)
    (hs : s.ConsistentExcept stack)
    (hstack : ∀ h ∈ stack, h ∉ s.handlesOf .thread ∧ h ∉ s.handlesOf .frame) :
    (s.removeAll stack).currentThread = s.currentThread ∧
      (s.removeAll stack).currentFrame = s.currentFrame := by
  -- along the removal: neither threads nor frames come onto the stack
  fun_induction Store.removeAll stack s with
  | case1 s => exact ⟨rfl, rfl⟩
  | case2 h rest s ih =>
    obtain ⟨unthreaded, unframed⟩ := hstack h List.mem_cons_self
    -- what is forgotten is no thread and no frame, so neither choice falls with it
    have thread : (s.forget h).currentThread = s.currentThread := by
      simp only [Store.forget, Table.get?_eq_none_iff.2 unthreaded]
    have frame : (s.forget h).currentFrame = s.currentFrame := by
      simp only [Store.forget]
      cases chosen : s.currentFrame with
      | none => rfl
      | some f =>
        have ne : f ≠ h := by
          rintro rfl
          exact unframed (hs.currentFrame_live chosen)
        simp [Option.filter, ne]
    have below : ∀ g ∈ (s.children h).reverse ++ rest,
        g ∉ (s.forget h).handlesOf .thread ∧ g ∉ (s.forget h).handlesOf .frame := by
      intro g mem
      have before : g ∉ s.handlesOf .thread ∧ g ∉ s.handlesOf .frame := by
        rcases List.mem_append.1 mem with mem | mem
        · have mem := List.mem_reverse.1 mem
          refine ⟨hs.not_thread_of_mem_children mem, fun is => ?_⟩
          by_cases on : g ∈ h :: rest
          · exact (hstack g on).2 is
          · -- only a thread may hold a frame
            obtain ⟨kp, k, live, mem', hold⟩ := hs.parent_live (hs.parent_of_mem_children mem) on
            obtain rfl := hs.kind_unique is mem'
            obtain rfl : kp = .thread := by
              revert hold
              cases kp <;> decide
            exact unthreaded live
        · exact hstack g (List.mem_cons_of_mem _ mem)
      exact ⟨fun is => before.1 (mem_handlesOf_forget.1 is).1,
        fun is => before.2 (mem_handlesOf_forget.1 is).1⟩
    have rest := ih hs.forget below
    exact ⟨rest.1.trans thread, rest.2.trans frame⟩

/-- Removing what is below a scope leaves the choices. -/
theorem Consistent.choices_removeChildren (hs : s.Consistent) (scope : h ∈ s.handlesOf .scope) :
    (s.removeChildren h).currentThread = s.currentThread ∧
      (s.removeChildren h).currentFrame = s.currentFrame := by
  rw [removeChildren_eq]
  refine ConsistentExcept.choices_removeAll _ s (hs.except _) fun g mem => ?_
  refine ⟨hs.not_thread_of_mem_children mem, fun is => ?_⟩
  obtain ⟨kp, k, live, mem', hold⟩ := hs.parent_live (hs.parent_of_mem_children mem) List.not_mem_nil
  obtain rfl := hs.kind_unique is mem'
  obtain rfl := hs.kind_unique scope live
  cases hold

/-! ## Threads -/

/-- Keep the threads with a system id from a list, and register the others of the list. -/
def enlist (name : UInt32 → String) (ids : List UInt32) (s : Store) : Store :=
  ids.foldl (fun s id => (s.addThread id (name id)).2) (s.retainThreads ids)

/-- Each thread of a list is registered, and no other one. -/
structure Enlisted (ids : List UInt32) (s : Store) : Prop where
  known : ∀ id ∈ ids, ∃ h, s.threadHandles.get? id = some h
  only : ∀ t ∈ s.threads, t.content.systemId ∈ ids

/-- After adding, a thread is known by its id, and those known before still are. -/
private theorem threadHandles_addThread (s : Store) (id : UInt32) (name : String) :
    (∃ h, (s.addThread id name).2.threadHandles.get? id = some h) ∧
      ∀ i h, s.threadHandles.get? i = some h →
        (s.addThread id name).2.threadHandles.get? i = some h := by
  unfold addThread
  split
  · next h known => exact ⟨⟨h, known⟩, fun _ _ known => known⟩
  · next unknown =>
    refine ⟨⟨s.nextHandle, ?_⟩, fun i h known => ?_⟩
    · simp [Table.get?_insert]
    · have ne : i ≠ id := by
        rintro rfl
        rw [unknown] at known
        cases known
      simpa [Table.get?_insert, ne] using known

/-- A thread that is listed after adding was listed before, or has the id that was added. -/
private theorem mem_threads_addThread {id : UInt32} {name : String} {t : Registered Thread}
    (mem : t ∈ (s.addThread id name).2.threads) : t ∈ s.threads ∨ t.content.systemId = id := by
  unfold addThread at mem
  split at mem
  · exact .inl mem
  · obtain ⟨h, stored⟩ := Table.mem_values_iff.1 mem
    rw [Table.get?_insert] at stored
    split at stored
    · obtain rfl := Option.some.inj stored
      exact .inr rfl
    · exact .inl (Table.mem_values_iff.2 ⟨h, stored⟩)

/-- When the threads of a list are registered, all that were to be there are. -/
private theorem enlisted_foldl {ids : List UInt32} (name : UInt32 → String) (l : List UInt32)
    (sub : ∀ id ∈ l, id ∈ ids) (s : Store) (only : ∀ t ∈ s.threads, t.content.systemId ∈ ids) :
    let s' := l.foldl (fun s id => (s.addThread id (name id)).2) s
    (∀ t ∈ s'.threads, t.content.systemId ∈ ids) ∧
      (∀ i h, s.threadHandles.get? i = some h → s'.threadHandles.get? i = some h) ∧
      ∀ id ∈ l, ∃ h, s'.threadHandles.get? id = some h := by
  -- on the ids still to be added, from the store that the ones before have left
  induction l generalizing s with
  | nil => exact ⟨only, fun _ _ => id, nofun⟩
  | cons id l ih =>
    obtain ⟨here, before⟩ := threadHandles_addThread s id (name id)
    have only' : ∀ t ∈ (s.addThread id (name id)).2.threads, t.content.systemId ∈ ids := by
      intro t mem
      rcases mem_threads_addThread mem with mem | rfl
      · exact only t mem
      · exact sub _ List.mem_cons_self
    obtain ⟨all, known, later⟩ := ih (fun i hi => sub i (List.mem_cons_of_mem _ hi)) _ only'
    refine ⟨all, fun i h hi => known i h (before i h hi), fun i hi => ?_⟩
    rcases List.mem_cons.1 hi with rfl | hi
    · obtain ⟨h, hh⟩ := here
      exact ⟨h, known _ h hh⟩
    · exact later i hi

/-- After enlisting, exactly the threads with these ids are known. -/
theorem Consistent.enlisted (hs : s.Consistent) (name : UInt32 → String) (ids : List UInt32) :
    (s.enlist name ids).Enlisted ids := by
  have retained : ∀ t ∈ (s.retainThreads ids).threads, t.content.systemId ∈ ids := by
    intro t mem
    obtain ⟨h, stored⟩ := Table.mem_values_iff.1 mem
    have removed := hs.removed_retainThreads ids
    have found : (s.retainThreads ids).get? h = some (.thread t.content) :=
      threadAt?_iff.1 (by rw [threadAt?, stored]; rfl)
    by_contra dead
    -- a thread that is gone is not found
    by_cases gone : ∃ id, s.OwnedBy h id ∧ id ∉ ids
    · rw [removed.get?_eq_none gone] at found
      cases found
    · have root := found
      rw [removed.get?_eq gone] at root
      exact gone ⟨_, ⟨h, _, threadAt?_iff.2 root, rfl, .refl⟩, dead⟩
  obtain ⟨only, -, known⟩ := enlisted_foldl name ids (fun _ => id) _ retained
  exact ⟨known, only⟩

/-- Enlisting again changes nothing. -/
theorem Enlisted.enlist_eq {ids : List UInt32} (enlisted : s.Enlisted ids) (name : UInt32 → String) :
    s.enlist name ids = s := by
  have retained : s.retainThreads ids = s := by
    have none : s.threads.filter (fun t => !ids.contains t.content.systemId) = [] := by
      rw [List.filter_eq_nil_iff]
      intro t ht
      simpa using enlisted.only t ht
    rw [retainThreads, none]
    rfl
  -- a thread that is known is not added again
  have added : ∀ l : List UInt32, (∀ id ∈ l, id ∈ ids) →
      l.foldl (fun s id => (s.addThread id (name id)).2) s = s := by
    intro l sub
    induction l with
    | nil => rfl
    | cons id l ih =>
      obtain ⟨h, known⟩ := enlisted.known id (sub id List.mem_cons_self)
      have same : (s.addThread id (name id)).2 = s := by simp only [addThread, known]
      rw [List.foldl_cons, same]
      exact ih fun i hi => sub i (List.mem_cons_of_mem _ hi)
  rw [enlist, retained]
  exact added ids fun _ => id

/-- Listing the same threads again changes nothing. -/
theorem Consistent.enlist_enlist (hs : s.Consistent) (name : UInt32 → String) (ids : List UInt32) :
    (s.enlist name ids).enlist name ids = s.enlist name ids :=
  (hs.enlisted name ids).enlist_eq name

end DebugAdapter.Store
