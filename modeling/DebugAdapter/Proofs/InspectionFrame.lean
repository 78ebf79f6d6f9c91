import DebugAdapter.Proofs.StopFreshness
import DebugAdapter.Proofs.StoreRemoval

/-!
# What inspection leaves as it is

A client keeps the handles it was shown while the debuggee is stopped. So a command that only looks at
the debuggee must not drop or change what is stored under them. Three commands do so, and what they may
do is said here exactly: listing the threads drops what belongs to threads that are gone
(`Worker.Drops`), listing a scope drops what is below it when its symbols are counted anew
(`Worker.Recounts`), and setting a variable drops what is below it and changes it (`Worker.Sets`).

Each piece of work is followed from the store before the command. At any point of it a handle was
dropped, if some condition holds, and else is as it was (`Store.DroppedIf`). Work that chooses what is
current and adds entities keeps this, whatever the condition is. A step that removes entities sets it.

## Key results

- `Store.Has.add`: what was issued before stays as it is when an entity is added
- `Worker.inspected`: what becomes of an entity by each command
- `Observed.run_inspected`: so it is for every worker that a gateway comes to have
-/

namespace DebugAdapter

namespace Store

variable {s s₀ : Store} {h : Handle} {entity : Option Entity} {holder : Option Handle}

/-! ## What is said of a handle -/

/-- A handle that was issued, what is found under it, and what holds that. -/
structure Has (s : Store) (h : Handle) (entity : Option Entity) (holder : Option Handle) : Prop where
  consistent : s.Consistent
  issued : h.raw ≤ s.issued
  get?_eq : s.get? h = entity
  parent?_eq : s.parent? h = holder

/-- What is placed under the next handle is not found under one that was issued before. -/
private theorem Consistent.get?_place_next (hs : s.Consistent) (issued : h.raw ≤ s.issued)
    (e : Entity) : (s.issue.place s.nextHandle e).get? h = s.get? h := by
  have ne : h ≠ s.nextHandle := by
    rintro rfl
    simp only [nextHandle] at issued
    omega
  have placed := get?_place (s := s.issue) (fun k => handlesOf_issue s k ▸ hs.nextHandle_not_mem k) e h
  rw [placed, if_neg ne]
  rfl

/-- An entity that is stored stays as it is when another one is added. -/
theorem Has.add (has : s.Has h entity holder) (parent : Handle) (e : Entity) :
    (s.add parent e).2.Has h entity holder := by
  obtain ⟨hs, issued, rfl, rfl⟩ := has
  have ne : h ≠ s.nextHandle := by
    rintro rfl
    simp only [nextHandle] at issued
    omega
  have later : h.raw ≤ s.issue.issued := by
    simp only [Store.issue]
    omega
  -- the new entity has the next handle, which is greater than any that is stored
  have same : h.raw ≤ (s.add parent e).2.issued ∧ (s.add parent e).2.get? h = s.get? h ∧
      (s.add parent e).2.parent? h = s.parent? h := by
    unfold Store.add
    split
    · exact ⟨issued, rfl, rfl⟩
    -- a full store, an entity that is out of place, and one that is placed
    split
    · exact ⟨later, rfl, rfl⟩
    split
    · refine ⟨?_, hs.get?_place_next issued e, ?_⟩
      · rw [link]
        rwa [issued_place]
      · rw [parent?, parents_link, if_neg ne, parents_place]
        rfl
    · exact ⟨later, rfl, rfl⟩
  exact ⟨hs.add parent e, same.1, same.2.1, same.2.2⟩

/-- An entity that is stored stays as it is when a thread is added. -/
theorem Has.addThread (has : s.Has h entity holder) (id : UInt32) (name : String) :
    (s.addThread id name).2.Has h entity holder := by
  obtain ⟨hs, issued, rfl, rfl⟩ := has
  refine ⟨hs.addThread id name, ?_, ?_, ?_⟩ <;> unfold Store.addThread <;> split
  · exact issued
  · simp only [Store.issue]
    omega
  · rfl
  · exact hs.get?_place_next issued (.thread ⟨id, name⟩)
  · rfl
  · rfl

/-- An entity that is stored stays as it is when a variable is edited, unless it is that variable. -/
theorem Has.updateVariable (has : s.Has h entity holder) (g : Handle) (f : Variable → Variable) :
    (s.updateVariable g f).Has h (entity.map fun e => if h = g then e.update f else e) holder where
  consistent := has.consistent.updateVariable g f
  issued := has.issued
  get?_eq := by rw [get?_updateVariable, has.get?_eq]
  parent?_eq := has.parent?_eq

/-- From `s₀` to `s` a handle was dropped if `p` holds, and nothing was done to it otherwise. -/
structure DroppedIf (p : Prop) (h : Handle) (s₀ s : Store) : Prop where
  dropped : p → s.Has h none none
  kept : ¬p → s.Has h (s₀.get? h) (s₀.parent? h)

/-- What keeps entities as they are keeps it that one is dropped under a condition. -/
theorem DroppedIf.map {p : Prop} {s' : Store} (d : DroppedIf p h s₀ s)
    (keeps : ∀ {entity holder}, s.Has h entity holder → s'.Has h entity holder) :
    DroppedIf p h s₀ s' :=
  ⟨fun hp => keeps (d.dropped hp), fun hp => keeps (d.kept hp)⟩

/-- The condition may be replaced by an equivalent one. -/
theorem DroppedIf.congr {p q : Prop} (d : DroppedIf p h s₀ s) (same : p ↔ q) :
    DroppedIf q h s₀ s := by
  obtain rfl : p = q := propext same
  exact d

/-- A removal drops what it removes and keeps the rest. -/
theorem DroppedIf.of_removed {p : Handle → Prop} (removed : s₀.Removed s p) (hs : s.Consistent)
    (issued : h.raw ≤ s.issued) : DroppedIf (p h) h s₀ s where
  dropped := fun gone => ⟨hs, issued, removed.get?_eq_none gone, removed.parent?_eq_none gone⟩
  kept := fun on => ⟨hs, issued, removed.get?_eq on, removed.parent?_eq on⟩

/-- The stores differ in what is current at most. -/
def Chosen (s₀ s : Store) : Prop :=
  s.Consistent ∧ ∃ currentThread currentFrame, s = { s₀ with currentThread, currentFrame }

/-- The entities are the same. -/
theorem Chosen.get?_eq (chosen : s₀.Chosen s) (h : Handle) : s.get? h = s₀.get? h := by
  obtain ⟨-, thread, frame, rfl⟩ := chosen
  rfl

/-- Choosing a thread or a frame does not change what variables are listed. -/
theorem Chosen.variablesOf_eq (chosen : s₀.Chosen s) (h : Handle) :
    s.variablesOf h = s₀.variablesOf h := by
  obtain ⟨-, thread, frame, rfl⟩ := chosen
  rfl

/-- Choosing a thread or a frame drops nothing. -/
theorem Chosen.droppedIf (chosen : s₀.Chosen s) (issued : h.raw ≤ s₀.issued) {p : Prop}
    (none : ¬p) : DroppedIf p h s₀ s := by
  obtain ⟨hs, thread, frame, rfl⟩ := chosen
  exact ⟨fun hp => absurd hp none, fun _ => ⟨hs, issued, rfl, rfl⟩⟩

/-- What hangs below an entity is a matter of holders only. -/
theorem below_congr {s' : Store} (same : ∀ h, s'.parent? h = s.parent? h) (a h : Handle) :
    s'.Below a h ↔ s.Below a h := by
  have under : ∀ {s s' : Store}, (∀ h, s'.parent? h = s.parent? h) → ∀ {h}, s.Under a h →
      s'.Under a h := by
    intro s s' same h under
    induction under with
    | refl => exact .refl
    | step held _ ih => exact .step ((same _).trans held) ih
  constructor
  · rintro ⟨p, held, below⟩
    exact ⟨p, (same h).symm.trans held, under (fun h => (same h).symm) below⟩
  · rintro ⟨p, held, below⟩
    exact ⟨p, (same h).trans held, under same below⟩

/-- The proper descendants of an entity are dropped. -/
theorem Chosen.removeChildren (chosen : s₀.Chosen s) (issued : h.raw ≤ s₀.issued) (a : Handle) :
    DroppedIf (s₀.Below a h) h s₀ (s.removeChildren a) := by
  obtain ⟨hs, thread, frame, rfl⟩ := chosen
  let s : Store := { s₀ with currentThread := thread, currentFrame := frame }
  have still : s.issued ≤ ((Op.removeChildren a).apply s).issued := issued_le_apply nofun
  have dropped := DroppedIf.of_removed (h := h) (hs.removed_removeChildren a) (hs.removeChildren a)
    (Int.le_trans issued (Int.ofNat_le.2 still))
  have holders : ∀ g, s.parent? g = s₀.parent? g := fun _ => rfl
  exact DroppedIf.congr ⟨dropped.dropped, dropped.kept⟩ (below_congr holders a h)

/-- What threads own that are not to be kept is dropped. -/
theorem Consistent.droppedIf_retainThreads (hs : s.Consistent) (issued : h.raw ≤ s.issued)
    (alive : List UInt32) :
    DroppedIf (∃ id, s.OwnedBy h id ∧ id ∉ alive) h s (s.retainThreads alive) := by
  have still : s.issued ≤ ((Op.retainThreads alive).apply s).issued := issued_le_apply nofun
  exact .of_removed (hs.removed_retainThreads alive) (hs.retainThreads alive)
    (Int.le_trans issued (Int.ofNat_le.2 still))

/-- Nothing hangs below itself. -/
theorem Consistent.not_below_self (hs : s.Consistent) (a : Handle) : ¬s.Below a a := by
  rintro ⟨p, held, under⟩
  have older := hs.parent_lt held
  have := hs.raw_le_of_under under
  omega

/-- What an entity holds is removed, and the entity stays. -/
theorem Consistent.get?_removeChildren_self (hs : s.Consistent) (a : Handle) :
    (s.removeChildren a).get? a = s.get? a :=
  (hs.removed_removeChildren a).get?_eq (hs.not_below_self a)

/-- A variable that is listed has its edge to there. -/
theorem Consistent.parent?_of_mem_variablesOf (hs : s.Consistent) {a : Handle}
    {r : Registered Variable} (listed : r ∈ s.variablesOf a) : s.parent? r.handle = some a := by
  obtain ⟨g, mem, stored⟩ := List.mem_filterMap.1 listed
  obtain rfl := hs.variables_labelled g r stored
  exact hs.parent_of_mem_children mem

/-- An entity that is found is in the table of its kind. -/
theorem mem_handlesOf_of_get? {e : Entity} (found : s.get? h = some e) : h ∈ s.handlesOf e.kind := by
  have mem : ∀ {α : Type} {t : Table Handle α} {a : α}, t.get? h = some a → h ∈ t.keys :=
    fun stored => Table.mem_keys_iff.2 ⟨_, stored⟩
  -- the tables are asked in turn, and the one that answers is that of the entity's kind
  unfold get? at found
  cases ht : s.threadTable.get? h with
  | some t => rw [ht] at found; cases found; exact mem ht
  | none =>
    cases hf : s.frameTable.get? h with
    | some f => rw [ht, hf] at found; cases found; exact mem hf
    | none =>
      cases hc : s.scopeTable.get? h with
      | some c => rw [ht, hf, hc] at found; cases found; exact mem hc
      | none =>
        cases hv : s.variableTable.get? h with
        | some v => rw [ht, hf, hc, hv] at found; cases found; exact mem hv
        | none => rw [ht, hf, hc, hv] at found; cases found

/-- Nothing hangs below a scope that holds no variable. -/
theorem Consistent.not_below_of_variablesOf (hs : s.Consistent) {a : Handle} {scope : Scope}
    (found : s.get? a = some (.scope scope)) (none : s.variablesOf a = []) : ¬s.Below a h := by
  intro below
  obtain ⟨c, held, -⟩ := below.exists_child
  obtain ⟨kp, k, live, mem, hold⟩ := hs.parent_live held List.not_mem_nil
  obtain rfl := hs.kind_unique live (mem_handlesOf_of_get? found)
  -- all that a scope may hold is a variable
  have hold : EntityKind.scope.mayHold k = true := hold
  obtain rfl : k = .variable := by
    revert hold
    cases k <;> decide
  obtain ⟨r, stored⟩ := Table.mem_keys_iff.1 mem
  have listed : r ∈ s.variablesOf a :=
    List.mem_filterMap.2 ⟨c, hs.mem_children_of_parent held List.not_mem_nil, stored⟩
  rw [none] at listed
  cases listed

end Store

namespace Worker

variable {σ : Type}

/-! ## What a command does -/

/-- The thread and the number of a frame. -/
def frameKey? (w : Worker σ) (frame : Handle) : Option (UInt32 × UInt32) :=
  match w.store.frameAt? frame, w.store.threadAt? (w.store.threadOf frame) with
  | some f, some t => some (t.systemId, f.order)
  | _, _ => none

/-- The key under which the symbols of a scope are kept: the thread and the frame of the scope, and its
kind. -/
def groupKey? (w : Worker σ) (scope : Registered Scope) : Option GroupKey :=
  (w.frameKey? (w.store.frameOf scope.handle)).map fun (thread, order) =>
    ⟨thread, order, scope.content.kind⟩

/-- The number of symbols in the group under a key. -/
def countOf (w : Worker σ) (key : GroupKey) : Option UInt32 :=
  (w.groups.find? (·.1 == key)).map (·.2.count)

/-- From `w` to `w'` the symbols of a scope were counted anew, with another result or for the first
time. -/
def Recounts (w w' : Worker σ) (scope : Registered Scope) : Prop :=
  ∃ key count, w.groupKey? scope = some key ∧ w'.countOf key = some count ∧ w.countOf key ≠ some count

variable [Engine σ]

/-- The worker after a command. -/
def after (w : Worker σ) (c : Command) : Worker σ :=
  ((execute c).run w).2

/-- The command sets a variable and succeeds; `r` is the variable as it is then. -/
def Sets (w : Worker σ) (c : Command) (r : Registered Variable) : Prop :=
  ∃ holder name value, c = .setVariable holder name value ∧
    ((execute c).run w).1 = .answered (.variableSet (.ok r))

/-- The entities that a command drops: those of threads that the engine does not list, what hangs below a
scope when its symbols are counted anew, and what hangs below a variable that is set. -/
def Drops (w : Worker σ) (c : Command) (h : Handle) : Prop :=
  match c with
  | .threads => ∃ ids, ((Engine.threadIds : EngineM σ _).call w.session.engine).1 = .ok ids ∧
      ∃ id, w.store.OwnedBy h id ∧ id ∉ ids
  | .variables reference => ∃ scope, w.store.get? reference = some (.scope scope) ∧
      w.Recounts (w.after c) ⟨reference, scope⟩ ∧ w.store.Below reference h
  | .setVariable .. => ∃ r, w.Sets c r ∧ w.store.Below r.handle h
  | _ => False

/-- What becomes of an entity by a command that inspects. -/
structure Inspected (w : Worker σ) (c : Command) (h : Handle) (e : Entity) : Prop where
  dropped : w.Drops c h → (w.after c).store.get? h = none
  parent?_eq : ¬w.Drops c h → (w.after c).store.parent? h = w.store.parent? h
  /-- Only setting a variable changes an entity. -/
  get?_eq : ¬w.Drops c h → (∀ shown, ¬w.Sets c ⟨h, shown⟩) → (w.after c).store.get? h = some e
  /-- The variable that is set is one of the given name, and keeps its name and its type. -/
  set : ∀ {shown}, w.Sets c ⟨h, shown⟩ → ¬w.Drops c h ∧
    (w.after c).store.get? h = some (.variable shown) ∧
    ∃ holder name value v, c = .setVariable holder name value ∧ w.store.parent? h = some holder ∧
      e = .variable v ∧ v.name = name ∧ shown.name = v.name ∧ shown.typeName = v.typeName

/-! ## Work that looks and adds -/

variable {h : Handle} {s₀ : Store} {p : Prop} {groups : List (GroupKey × CachedGroup)}

/-- Choices keep it that only choices were made. -/
theorem chosen_frame : ChoosingFrame fun w : Worker σ =>
    s₀.Chosen w.store ∧ w.groups = groups where
  call := fun _ _ h => h
  choose := by
    rintro w thread ⟨⟨hs, t, f, same⟩, same'⟩
    exact ⟨⟨hs.setCurrentThread thread, some thread, f, by rw [same]; rfl⟩, same'⟩
  chooseFrame := by
    rintro w frame live ⟨⟨hs, t, f, same⟩, same'⟩
    exact ⟨⟨hs.setCurrentFrame live, t, some frame, by rw [same]; rfl⟩, same'⟩

/-- Additions keep what is dropped and what is kept. -/
private theorem droppedIf_frame : ThreadAddingFrame fun w : Worker σ =>
    Store.DroppedIf p h s₀ w.store ∧ w.groups = groups where
  call := fun _ _ h => h
  typeNames := fun _ _ h => h
  choose := fun _ thread d => ⟨d.1.map fun has =>
    { has with consistent := has.consistent.setCurrentThread thread }, d.2⟩
  chooseFrame := fun _ _ live d => ⟨d.1.map fun has =>
    { has with consistent := has.consistent.setCurrentFrame live }, d.2⟩
  add := fun _ parent entity d => ⟨d.1.map (·.add parent entity), d.2⟩
  addThread := fun _ thread name d => ⟨d.1.map (·.addThread thread name), d.2⟩

/-- The answer when a frame is selected is the thread and the number of the frame. -/
theorem ensures_selectFrame (frame : Handle) (w : Worker σ) :
    Ensures (· = w) (selectFrame frame).run fun r _ =>
      ∀ answer, r = .ok (some answer) → w.frameKey? frame = some answer := by
  let Answers := fun (r : Except EngineError (Option (UInt32 × UInt32))) (_ : Worker σ) =>
    ∀ answer, r = .ok (some answer) → w.frameKey? frame = some answer
  have failed : ∀ (e : EngineError) (w' : Worker σ), Answers (.error e) w' :=
    fun e w' answer h => nomatch h
  -- what is asked of the engine has no part in the answer
  have asked : ∀ {α : Type} {m : ExceptT EngineError (WorkerM σ) α},
      Ensures (fun _ => True) m.run fun _ _ => True := fun _ _ => trivial
  refine Ensures.bindExcept (R := fun r _ => r = .ok w) (fun w' e => congrArg _ e) (fun w' => ?_)
    fun e w' _ => failed e w'
  dsimp only
  split
  · next f t hf ht =>
    intro w₁ same
    obtain rfl : w' = w := Except.ok.inj same
    -- the answer is read off the store before the selection
    have finish : Ensures (fun _ => True) (do
        ExceptT.lift (modifyStore (·.setCurrentFrame frame))
        return some (t.systemId, f.order) :
        ExceptT EngineError (WorkerM σ) (Option (UInt32 × UInt32))).run Answers := by
      intro _ _ answer e
      cases e
      simp only [frameKey?, hf, ht]
    refine Ensures.bindExcept asked (fun _ => ?_) (fun e w' _ => failed e w') w₁ trivial
    refine asked.bindExcept (fun index => ?_) fun e w' _ => failed e w'
    refine .iteExcept (fun _ => ?_) fun _ => finish
    exact asked.bindExcept (fun _ => finish) fun e w' _ => failed e w'
  · exact .pure fun _ _ answer e => nomatch e

/-! ## Threads -/

/-- Listing the threads drops what belongs to a thread that is not listed. -/
private theorem ensures_retained (w : Worker σ) (hs : w.store.Consistent)
    (issued : h.raw ≤ w.store.issued) :
    Ensures (· = w) threads fun _ w' => Store.DroppedIf (w.Drops .threads h) h w.store w'.store := by
  refine Ensures.bind (R := fun ids w' => w'.store = w.store ∧ w'.groups = w.groups ∧
    ids = ((Engine.threadIds : EngineM σ _).call w.session.engine).1.toOption) ?_ fun ids => ?_
  · rintro _ rfl
    exact ⟨rfl, rfl, rfl⟩
  cases given : ((Engine.threadIds : EngineM σ _).call w.session.engine).1 with
  | error e =>
    -- without a list of threads nothing is removed
    have none : ¬w.Drops .threads h := by
      rintro ⟨ids, given', -⟩
      exact nomatch given.symm.trans given'
    rintro w' ⟨same, -, rfl⟩
    refine ⟨fun gone => absurd gone none, fun _ => ?_⟩
    change w'.store.Has h _ _
    rw [same]
    exact ⟨hs, issued, rfl, rfl⟩
  | ok ids =>
    -- what is dropped hung below a thread that is not listed any more
    have drops : w.Drops .threads h ↔ ∃ id, w.store.OwnedBy h id ∧ id ∉ ids := by
      constructor
      · rintro ⟨ids', given', gone⟩
        obtain rfl := Except.ok.inj (given.symm.trans given')
        exact gone
      · exact fun gone => ⟨ids, given, gone⟩
    -- threads that are not listed are removed, and then threads are only added
    have listed : Ensures (fun w' : Worker σ => w'.store = w.store ∧ w'.groups = w.groups) (do
        modifyStore (·.retainThreads ids)
        for id in ids do
          let _ ← withStore (·.addThread id (threadName id))
        return (← get).store.threads) fun _ w' =>
          Store.DroppedIf (w.Drops .threads h) h w.store w'.store ∧ w'.groups = w.groups := by
      refine Ensures.bind (R := fun _ w' =>
        Store.DroppedIf (w.Drops .threads h) h w.store w'.store ∧ w'.groups = w.groups) ?_ fun _ => ?_
      · rintro w' ⟨same, groups⟩
        refine ⟨?_, groups⟩
        have dropped := (hs.droppedIf_retainThreads issued ids).congr drops.symm
        rwa [← same] at dropped ⊢
      · refine Ensures.of_keeps ((Keeps.forIn (fun id _ => ?_) ids _).bind fun _ => ?_)
        · exact (droppedIf_frame.keeps_addThread id).bind fun _ => .pure _
        · exact Keeps.get.bind fun _ => .pure _
    rintro w' ⟨same, groups, rfl⟩
    exact (listed w' ⟨same, groups⟩).1

/-! ## Variables -/

omit [Engine σ] in
/-- A group that was taken out has no count. -/
private theorem countOf_of_filter {w : Worker σ} {key : GroupKey}
    (same : w.groups = groups.filter (·.1 != key)) : w.countOf key = none := by
  rw [countOf, same, List.find?_eq_none.2, Option.map_none]
  intro e mem
  simpa using (List.mem_filter.1 mem).2

omit [Engine σ] in
/-- A group that was put back has its count. -/
private theorem countOf_of_cons {w : Worker σ} {key : GroupKey} {group : CachedGroup}
    (same : w.groups = (key, group) :: groups) : w.countOf key = some group.count := by
  have first : ((key, group) :: groups).find? (·.1 == key) = some (key, group) :=
    List.find?_cons_of_pos (beq_self_eq_true key)
  rw [countOf, same, first, Option.map_some]

/-- While the new group of a scope is in use, the entry for it is taken. -/
private structure Taken (w : Worker σ) (key : GroupKey) (previous : Option CachedGroup)
    (w' : Worker σ) : Prop where
  chosen : w.store.Chosen w'.store
  groups_eq : w'.groups = w.groups.filter (·.1 != key)
  previous_eq : previous.map (·.count) = w.countOf key

/-- When the new group is counted, what is shown below the scope stays if the count is as before, and is
dropped otherwise. -/
private theorem ensures_counted {w : Worker σ} (hs : w.store.Consistent)
    (issued : h.raw ≤ w.store.issued) {scope : Registered Scope}
    (found : w.store.get? scope.handle = some (.scope scope.content)) {key : GroupKey}
    (keyed : w.groupKey? scope = some key) (previous : Option CachedGroup) (group : GroupId)
    (count : UInt32) :
    Ensures (w.Taken key previous) (do
      let known := (← get).store.variablesOf scope.handle
      let found ←
        if previous.map (·.count) = some count && !known.isEmpty then pure known
        else do
          modifyStore (·.removeChildren scope.handle)
          materialize scope.handle group count
      putGroup key ⟨group, count⟩
      return found) fun _ w' =>
        Store.DroppedIf (w.Recounts w' scope ∧ w.store.Below scope.handle h) h w.store w'.store := by
  -- once the group is put back, its count is the one the engine has told
  have recounts : ∀ {w' : Worker σ} {groups}, w'.groups = (key, ⟨group, count⟩) :: groups →
      (w.Recounts w' scope ↔ w.countOf key ≠ some count) := by
    intro w' groups same
    constructor
    · rintro ⟨key', count', keyed', counted, other⟩
      obtain rfl := Option.some.inj (keyed.symm.trans keyed')
      rw [countOf_of_cons same] at counted
      rwa [← Option.some.inj counted] at other
    · exact fun other => ⟨key, count, keyed, countOf_of_cons same, other⟩
  -- putting the group back changes no variable
  have put : ∀ (shown : List (Registered Variable)),
      Ensures (fun w' => Store.DroppedIf (w.countOf key ≠ some count ∧ w.store.Below scope.handle h) h
          w.store w'.store ∧ w'.groups = w.groups.filter (·.1 != key))
        (do putGroup key ⟨group, count⟩; return shown) fun _ w' =>
          Store.DroppedIf (w.Recounts w' scope ∧ w.store.Below scope.handle h) h w.store w'.store := by
    rintro shown w' ⟨dropped, groups⟩
    exact dropped.congr (and_congr_left' (recounts rfl).symm)
  refine .bindGet fun w₁ hw₁ => .ite (fun counted => ?_) fun uncounted => ?_
  · -- the count is as before
    refine (put _).mono ?_ fun _ _ h => h
    rintro _ ⟨hw, rfl⟩
    refine ⟨hw.chosen.droppedIf issued fun both => both.1 ?_, hw.groups_eq⟩
    rw [← hw.previous_eq]
    simpa using (Bool.and_eq_true_iff.1 counted).1
  · refine Ensures.bind (R := fun _ w' => Store.DroppedIf (w.countOf key ≠ some count ∧
      w.store.Below scope.handle h) h w.store w'.store ∧ w'.groups = w.groups.filter (·.1 != key))
      ?_ fun _ => ?_
    · rintro w₁ ⟨hw, rfl⟩
      refine ⟨(hw.chosen.removeChildren issued scope.handle).congr ⟨fun below => ⟨fun same => ?_, below⟩,
        And.right⟩, hw.groups_eq⟩
      -- if the count is as before, nothing was shown
      obtain ⟨hs', thread, frame, chosen⟩ := hw.chosen
      have none : w.store.variablesOf scope.handle = [] := by
        have none : w₁.store.variablesOf scope.handle = [] := by
          simpa [hw.previous_eq, same] using uncounted
        rwa [chosen] at none
      exact hs.not_below_of_variablesOf found none below
    · refine (Ensures.of_keeps ?_).bind fun shown => put shown
      exact droppedIf_frame.materialize scope.handle group count

/-- Listing the variables of a scope drops what hangs below it, if its count has changed. -/
private theorem ensures_scopeVariables {w : Worker σ} (hs : w.store.Consistent)
    (issued : h.raw ≤ w.store.issued) (scope : Registered Scope)
    (found : w.store.get? scope.handle = some (.scope scope.content)) :
    Ensures (· = w) (scopeVariables scope) fun _ w' =>
      Store.DroppedIf (w.Recounts w' scope ∧ w.store.Below scope.handle h) h w.store w'.store := by
  have kept : ∀ {w' : Worker σ}, w.store.Chosen w'.store → ¬w.Recounts w' scope →
      Store.DroppedIf (w.Recounts w' scope ∧ w.store.Below scope.handle h) h w.store w'.store :=
    fun chosen uncounted => chosen.droppedIf issued fun both => uncounted both.1
  -- as long as no group is put back, no count is another one
  have same : ∀ {w' : Worker σ}, w'.groups = w.groups → ¬w.Recounts w' scope := by
    rintro w' same ⟨key, count, -, counted, other⟩
    rw [countOf, same] at counted
    exact other counted
  refine .bindGet fun w₀ e => ?_
  -- `w` stays the name of the worker before, against which what follows is measured
  replace e := e.symm
  subst e
  refine Ensures.bind (R := fun r w' => (w.store.Chosen w'.store ∧ w'.groups = w.groups) ∧
    ∀ answer, r = .ok (some answer) → w.frameKey? (w.store.frameOf scope.handle) = some answer)
    ?_ fun selected => ?_
  · rintro w₁ ⟨rfl, -⟩
    have chosen : w₁.store.Chosen w₁.store := ⟨hs, _, _, rfl⟩
    exact ⟨chosen_frame.selectFrame _ w₁ ⟨chosen, rfl⟩, ensures_selectFrame _ w₁ w₁ rfl⟩
  split
  · -- a scope whose frame cannot be selected shows nothing
    exact .pure fun w' hw => kept hw.1.1 (same hw.1.2)
  · exact .pure fun w' hw => kept hw.1.1 (same hw.1.2)
  next thread order =>
  let key : GroupKey := ⟨thread, order, scope.content.kind⟩
  refine .assume (c := w.groupKey? scope = some key) (fun w' hw => ?_) fun keyed => ?_
  · rw [groupKey?, hw.2 _ rfl]
    rfl
  refine Ensures.bind (R := w.Taken key) ?_ fun previous => ?_
  · rintro w' ⟨⟨chosen, groups⟩, -⟩
    refine ⟨chosen, congrArg (List.filter _) groups, ?_⟩
    rw [countOf, ← groups]
    exact Option.map_map ..
  refine Ensures.bind (R := fun _ => w.Taken key previous)
    (fun _ hw => ⟨hw.chosen, hw.groups_eq, hw.previous_eq⟩) fun group => ?_
  cases group with
  -- the engine gives no group, so none is put back and none has a count
  | none =>
    refine .pure fun w' hw => kept hw.chosen ?_
    rintro ⟨key', count, keyed', counted, -⟩
    obtain rfl := Option.some.inj (keyed.symm.trans keyed')
    rw [countOf_of_filter hw.groups_eq] at counted
    exact nomatch counted
  | some group =>
    refine Ensures.bind (R := fun _ => w.Taken key previous)
      (fun _ hw => ⟨hw.chosen, hw.groups_eq, hw.previous_eq⟩) fun count => ?_
    exact ensures_counted hs issued found keyed previous group _

/-! ## Setting a variable -/

/-- What is read anew after a variable was written keeps its name and its type. -/
private theorem ensures_overwrite (target : Variable) (value : String) :
    Ensures (S := Memory σ) (fun _ => True) (overwrite target value).run fun r _ =>
      ∀ shown, r = .ok shown → shown.name = target.name ∧ shown.typeName = target.typeName := by
  let Names := fun (r : Except ValueFailure Variable) (_ : Memory σ) =>
    ∀ shown, r = .ok shown → shown.name = target.name ∧ shown.typeName = target.typeName
  have failed : ∀ (e : ValueFailure) (mem : Memory σ), Names (.error e) mem :=
    fun e mem shown h => nomatch h
  -- what is looked up has no part in the names
  have asked : ∀ {α : Type} {m : ExceptT ValueFailure (MemoryM σ) α},
      Ensures (fun _ => True) m.run fun _ _ => True := fun _ _ => trivial
  have refused : ∀ {α : Type} (e : ValueFailure) (f : α → ExceptT ValueFailure (MemoryM σ) Variable),
      Ensures (fun _ => True) ((throw e : ExceptT ValueFailure (MemoryM σ) α) >>= f).run Names :=
    fun e f mem _ => failed e mem
  refine asked.bindExcept (fun new => ?_) fun e mem _ => failed e mem
  refine .iteExcept (fun _ => refused _ _) fun _ => .iteExcept (fun _ => refused _ _) fun _ => ?_
  refine asked.bindExcept (fun written => ?_) fun e mem _ => failed e mem
  refine .iteExcept (fun _ => refused _ _) fun _ => ?_
  refine asked.bindExcept (fun refreshed => ?_) fun e mem _ => failed e mem
  rintro mem - shown e
  obtain rfl := Except.ok.inj e
  exact ⟨rfl, rfl⟩

/-- A variable is set, with all that hangs below it dropped before, or nothing is done. -/
private theorem ensures_setVariable (w : Worker σ) (hs : w.store.Consistent)
    (issued : h.raw ≤ w.store.issued) (holder : Handle) (name value : String) :
    Ensures (· = w) (setVariable holder name value) fun r w' =>
      match r with
      | .error _ => Store.DroppedIf False h w.store w'.store
      | .ok r => ∃ v s, ⟨r.handle, v⟩ ∈ w.store.variablesOf holder ∧ v.name = name ∧
          r.content.name = v.name ∧ r.content.typeName = v.typeName ∧
          Store.DroppedIf (w.store.Below r.handle h) h w.store s ∧
          w'.store = s.updateVariable r.handle fun _ => r.content := by
  refine .bindGet fun w₀ e => ?_
  replace e := e.symm
  subst e
  have start : w.store.Chosen w.store ∧ w.groups = w.groups := ⟨⟨hs, _, _, rfl⟩, rfl⟩
  -- a variable of the name is looked for below its holder
  split
  · refine .pure ?_
    rintro _ ⟨rfl, -⟩
    exact start.1.droppedIf issued id
  next target first =>
  refine .bindGet fun w₁ e => ?_
  replace e := e.1.symm
  subst e
  refine Ensures.bind (R := fun _ w' => w.store.Chosen w'.store) ?_ fun _ => ?_
  · rintro w₁ ⟨⟨rfl, -⟩, -⟩
    exact (chosen_frame.selectFrame _ w₁ start).1
  -- looking at the memory does not touch the store
  refine Ensures.bind (R := fun r w' => w.store.Chosen w'.store ∧ ∀ shown, r = .ok shown →
    shown.name = target.content.name ∧ shown.typeName = target.content.typeName) ?_ fun r => ?_
  · exact fun w' hw => ⟨hw, ensures_overwrite target.content value _ trivial⟩
  cases r with
  | error e => exact .pure fun w' hw => hw.1.droppedIf issued id
  | ok shown =>
    -- what hung below the old value is dropped with it
    rintro w' ⟨chosen, names⟩
    obtain ⟨sameName, sameType⟩ := names shown rfl
    have named : target.content.name = name := by simpa using List.find?_some first
    exact ⟨target.content, _, List.mem_of_find?_eq_some first, named, sameName, sameType,
      chosen.removeChildren issued target.handle, rfl⟩

/-! ## Commands -/

/-- A command that sets nothing changes no entity. -/
private theorem Inspected.of_droppedIf {w : Worker σ} {c : Command} {e : Entity}
    (found : w.store.get? h = some e)
    (other : ∀ holder name value, c ≠ .setVariable holder name value)
    (dropped : Store.DroppedIf (w.Drops c h) h w.store (w.after c).store) : w.Inspected c h e where
  dropped := fun gone => (dropped.dropped gone).get?_eq
  parent?_eq := fun on => (dropped.kept on).parent?_eq
  get?_eq := fun on _ => (dropped.kept on).get?_eq.trans found
  set := by
    rintro shown ⟨holder, name, value, e, -⟩
    exact absurd e (other holder name value)

/-- Listing variables drops what hangs below the reference, if that is a scope whose count has changed. -/
private theorem inspected_variables {w : Worker σ} {e : Entity} (hs : w.store.Consistent)
    (found : w.store.get? h = some e) (issued : h.raw ≤ w.store.issued) (reference : Handle) :
    w.Inspected (.variables reference) h e := by
  have start : Store.DroppedIf False h w.store w.store :=
    Store.Chosen.droppedIf ⟨hs, _, _, rfl⟩ issued id
  refine .of_droppedIf found nofun ?_
  have below : w.after (.variables reference) = ((variablesBelow reference).run w).2 := rfl
  simp only [variablesBelow, StateT.run_bind, StateT.run_get, pure_bind] at below
  -- below what is not a scope nothing is dropped
  have undropped : (∀ scope, w.store.get? reference ≠ some (.scope scope)) →
      ¬w.Drops (.variables reference) h := by
    rintro other ⟨scope, found, -⟩
    exact other scope found
  have same : ¬w.Drops (.variables reference) h → ∀ {w' : Worker σ},
      Store.DroppedIf False h w.store w'.store →
      Store.DroppedIf (w.Drops (.variables reference) h) h w.store w'.store :=
    fun none _ d => d.congr (iff_of_false id none)
  cases held : w.store.get? reference with
  | none =>
    refine same (undropped (by simp [held])) ?_
    rw [below, held]
    exact start
  | some entity =>
    cases entity with
    | thread | frame =>
      refine same (undropped (by simp [held])) ?_
      rw [below, held]
      exact start
    -- expanding a variable only adds to the store
    | «variable» v =>
      refine same (undropped (by simp [held])) ?_
      rw [below, held]
      exact (droppedIf_frame.expand ⟨reference, v⟩ w ⟨start, rfl⟩).1
    | scope s =>
      have dropped := ensures_scopeVariables (h := h) hs issued ⟨reference, s⟩ held w rfl
      rw [held] at below
      change w.after (.variables reference) = ((scopeVariables ⟨reference, s⟩).run w).2 at below
      rw [← below] at dropped
      refine dropped.congr ⟨fun gone => ⟨s, held, gone⟩, ?_⟩
      rintro ⟨s', held', gone⟩
      cases held.symm.trans held'
      exact gone

/-- Setting a variable drops what hangs below it and edits it, and leaves the rest alone. -/
private theorem inspected_setVariable {w : Worker σ} {e : Entity} (hs : w.store.Consistent)
    (found : w.store.get? h = some e) (issued : h.raw ≤ w.store.issued) (holder : Handle)
    (name value : String) : w.Inspected (.setVariable holder name value) h e := by
  let c : Command := .setVariable holder name value
  have done := ensures_setVariable w hs issued holder name value w rfl
  -- the command sets a variable exactly if it succeeds
  have outcome : ∀ r, w.Sets c r ↔ ((setVariable holder name value).run w).1 = .ok r := by
    intro r
    constructor
    · rintro ⟨-, -, -, -, given⟩
      exact Reply.variableSet.inj (Outcome.answered.inj given)
    · intro given
      exact ⟨holder, name, value, rfl, congrArg (Outcome.answered ∘ Reply.variableSet) given⟩
  have after : w.after c = ((setVariable holder name value).run w).2 := rfl
  rw [← after] at done
  cases given : ((setVariable holder name value).run w).1 with
  | error failure =>
    -- a variable that is not set drops nothing
    have unset : ∀ r, ¬w.Sets c r := fun r sets => nomatch given.symm.trans ((outcome r).1 sets)
    have undropped : ¬w.Drops c h := fun ⟨r, sets, _⟩ => unset r sets
    rw [given] at done
    have kept := done.kept id
    exact ⟨fun gone => absurd gone undropped, fun _ => kept.parent?_eq,
      fun _ _ => kept.get?_eq.trans found, fun sets => absurd sets (unset _)⟩
  | ok r =>
    -- what is dropped is what hung below the variable
    have sets : ∀ r', w.Sets c r' ↔ r' = r := by
      intro r'
      rw [outcome, given, Except.ok.injEq, eq_comm]
    have drops : w.Drops c h ↔ w.store.Below r.handle h :=
      ⟨fun ⟨r', set, below⟩ => (sets r').1 set ▸ below, fun below => ⟨r, (sets r).2 rfl, below⟩⟩
    rw [given] at done
    obtain ⟨v, s, listed, named, sameName, sameType, removed, store⟩ := done
    have gone := fun below => (removed.dropped below).updateVariable r.handle fun _ => r.content
    have kept := fun on => (removed.kept on).updateVariable r.handle fun _ => r.content
    rw [← store] at gone kept
    refine ⟨fun d => (gone (drops.1 d)).get?_eq, fun on => (kept (on ∘ drops.2)).parent?_eq,
      fun on unset => ?_, fun {shown} set => ?_⟩
    · have ne : h ≠ r.handle := by
        rintro rfl
        exact unset r.content ((sets _).2 rfl)
      rw [(kept (on ∘ drops.2)).get?_eq, found, Option.map_some, if_neg ne]
    · -- the variable itself has the new value, and keeps its name and its type
      obtain rfl := (sets _).1 set
      have on := hs.not_below_self h
      have target : w.store.get? h = some (.variable v) := hs.get?_of_mem_variablesOf listed
      refine ⟨on ∘ drops.1, ?_, holder, name, value, v, rfl, hs.parent?_of_mem_variablesOf listed,
        Option.some.inj (found.symm.trans target), named, sameName, sameType⟩
      rw [(kept on).get?_eq, target, Option.map_some, if_pos rfl]
      rfl

/-- What becomes of what is stored by a command that inspects. -/
theorem inspected {w : Worker σ} {c : Command} {e : Entity} (hs : w.store.Consistent)
    (inspects : c.inspects = true) (found : w.store.get? h = some e) : w.Inspected c h e := by
  have issued : h.raw ≤ w.store.issued := (hs.handle_range (Store.mem_handlesOf_of_get? found)).2
  have start : Store.DroppedIf False h w.store w.store ∧ w.groups = w.groups :=
    ⟨Store.Chosen.droppedIf ⟨hs, _, _, rfl⟩ issued id, rfl⟩
  -- only four commands drop anything or edit anything
  cases c with
  | pause => exact .of_droppedIf found nofun start.1
  | processInfo => exact .of_droppedIf found nofun start.1
  | setBreakpoints file lines =>
    have F := breakpointFrame_of_store (σ := σ) (P := Store.DroppedIf False h w.store)
    exact .of_droppedIf found nofun (F.setBreakpoints file lines w start.1)
  | threads => exact .of_droppedIf found nofun (ensures_retained w hs issued w rfl)
  | stackTrace thread => exact .of_droppedIf found nofun (droppedIf_frame.stackTrace thread w start).1
  | scopes frame => exact .of_droppedIf found nofun (droppedIf_frame.scopes frame w start).1
  | evaluate expression frame =>
    exact .of_droppedIf found nofun (droppedIf_frame.evaluate expression frame w start).1
  | «variables» reference => exact inspected_variables hs found issued reference
  | setVariable holder name value => exact inspected_setVariable hs found issued holder name value
  | launch | attach | «continue» | step | terminate => cases inspects

end Worker

/-! ## Every worker there is -/

namespace Observed

variable {σ : Type}

/-- The worker is the present one, or one that has carried out a command. -/
def Reaches (o : Observed σ) (w : Worker σ) : Prop :=
  w = o.gateway.worker ∨ ∃ e ∈ o.executed, w = e.worker

variable [Engine σ]

/-- When the engine thread has ended, nothing is stored. -/
private theorem store_of_finished (engine : σ) (options : GatewayOptions) (turns : List Turn) :
    ((new engine options).run turns).gateway.phase = .finished →
      ((new engine options).run turns).gateway.worker.store = {} := by
  refine run_induction (P := fun g _ _ => g.phase = .finished → g.worker.store = {}) ?_
    (fun _ => rfl) turns
  -- the engine thread empties the store in its last step, and nothing is done to it after that
  intro g _ _ ended a finished
  cases a with
  | advance =>
    have moved := g.moves_advance
    rw [show g.advance.phase = .finished from finished] at moved
    cases moved with
    | finish phase =>
      rcases phase with leaving | finished'
      · have left : g.act .advance = g.leave := by simp only [Gateway.act, Gateway.advance, leaving]
        rw [left, Gateway.leave_eq]
        rfl
      · rw [Gateway.act, Gateway.advance_of_finished finished']
        exact ended finished'
  -- callers never touch the store
  | submit | closeQueue | interrupt =>
    revert finished
    simp only [Gateway.act, Gateway.submit, Gateway.closeQueue, Gateway.interrupt]
    split <;> exact ended
  | markDisposed | cancel | silence => exact ended finished

/-- Any worker that a run reaches has a consistent store. -/
theorem Reaches.consistent {engine : σ} {options : GatewayOptions} {turns : List Turn}
    {w : Worker σ} (reached : ((new engine options).run turns).Reaches w) : w.store.Consistent := by
  have tracked := tracked_run engine options turns
  rcases reached with rfl | ⟨e, mem, rfl⟩
  · by_cases finished : ((new engine options).run turns).gateway.phase = .finished
    · rw [store_of_finished engine options turns finished]
      exact Store.consistent_empty
    · exact (tracked.store finished).1
  · exact tracked.consistent e mem

/-- A command that inspects does nothing to what is stored but what it is to do: drop what belongs to
threads that are gone, what was shown of symbols that are counted anew, and what was below a variable that
is set; and change that variable. -/
theorem run_inspected (engine : σ) (options : GatewayOptions) (turns : List Turn) {w : Worker σ}
    (reached : ((new engine options).run turns).Reaches w) {c : Command} (inspects : c.inspects = true)
    {h : Handle} {e : Entity} (live : w.store.get? h = some e) : w.Inspected c h e :=
  Worker.inspected reached.consistent inspects live

/-- A debuggee whose first thread has ended when it stops. -/
def endingThread : Scripted.World where
  callStacks := [(1, [⟨0x1000, 0⟩])]
  stops := [{ threads := some [2] }]

/-- The stack of the first thread is listed when the debuggee is told to resume and the native wait is
not entered yet. -/
def stoppedAfter : Observed Scripted.World :=
  (new endingThread {}).run ([.call (.submit (.launch ⟨"app", "app", [], []⟩)),
    .call (.submit .continue), .call (.submit (.stackTrace 1))] ++ List.replicate 11 .engine)

/-- The frame is dropped when the threads are listed, and is not when its scopes are. -/
theorem run_inspected_endingThread :
    let w := stoppedAfter.gateway.worker
    w.store.get? ⟨2⟩ = some (.frame ⟨0x1000, 0, none, 0, "0x1000"⟩) ∧
    (w.after .threads).store.get? ⟨2⟩ = none ∧
    (w.after (.scopes ⟨2⟩)).store.get? ⟨2⟩ = some (.frame ⟨0x1000, 0, none, 0, "0x1000"⟩) := by
  intro w
  have reached : stoppedAfter.Reaches w := .inl rfl
  have live : w.store.get? ⟨2⟩ = some (.frame ⟨0x1000, 0, none, 0, "0x1000"⟩) := by decide +kernel
  -- the frame hangs below the thread that is not listed any more
  have drops : w.Drops .threads ⟨2⟩ := by
    have thread : w.store.threadAt? ⟨1⟩ = some ⟨1, "Thread #1"⟩ := by decide +kernel
    have held : w.store.parent? ⟨2⟩ = some ⟨1⟩ := by decide +kernel
    exact ⟨[2], by decide +kernel, 1, ⟨⟨1⟩, _, thread, rfl, .step held .refl⟩, by decide⟩
  refine ⟨live, ?_, ?_⟩
  · exact (run_inspected endingThread {} _ reached (c := .threads) rfl live).dropped drops
  · refine (run_inspected endingThread {} _ reached (c := .scopes ⟨2⟩) rfl live).get?_eq id ?_
    rintro shown ⟨_, _, _, e, -⟩
    cases e

end Observed

end DebugAdapter
