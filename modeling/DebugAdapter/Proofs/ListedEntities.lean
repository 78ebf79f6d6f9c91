import DebugAdapter.Proofs.RepeatedInspection
import DebugAdapter.Proofs.VariableWrites

/-!
# What a client is told of entities

A reply tells of threads, of the frames of a thread, of scopes and of variables, and the value of an
expression may be told with a reference to a variable. Whatever the engine answers on the way, all this is
in the store when the reply is given: under the handle it is told with, as it is told, and below the
entity that the client has asked about.

Lists are either what the store lists after the command, or they are empty, so most of this follows from
what a store lists (`Store.Consistent.holds_framesOf` and its siblings).

## Key results

- `Worker.tells_execute`: what a command replies is in the store
-/

namespace DebugAdapter

namespace Store

variable {s : Store} {β : Type} {toEntity : β → Entity}

/-- Entities are stored as they are listed, each under a handle of its own, and `holder` holds them. -/
structure Holds (s : Store) (holder : Handle) (toEntity : β → Entity) (found : List (Registered β)) :
    Prop where
  nodup : (found.map (·.handle)).Nodup
  stored : ∀ r ∈ found, s.get? r.handle = some (toEntity r.content)
  held : ∀ r ∈ found, s.parent? r.handle = some holder

/-- Every holder holds nothing. -/
theorem Holds.nil (s : Store) (holder : Handle) (toEntity : β → Entity) : s.Holds holder toEntity [] :=
  ⟨List.nodup_nil, nofun, nofun⟩

/-- A part of what is listed is listed. -/
theorem Holds.single {holder : Handle} {found : List (Registered β)} (h : s.Holds holder toEntity found)
    {r : Registered β} (mem : r ∈ found) : s.Holds holder toEntity [r] where
  nodup := List.pairwise_singleton ..
  stored := List.forall_mem_singleton.2 (h.stored r mem)
  held := List.forall_mem_singleton.2 (h.held r mem)

/-- A holder holds the children of one kind. -/
private theorem Consistent.holds_filterMap (hs : s.Consistent) {t : Table Handle (Registered β)}
    (labelled : t.Labelled) (holder : Handle)
    (stored : ∀ r ∈ (s.children holder).filterMap t.get?, s.get? r.handle = some (toEntity r.content)) :
    s.Holds holder toEntity ((s.children holder).filterMap t.get?) where
  stored := stored
  -- the handles of children increase, so no two are the same
  nodup := by
    refine List.pairwise_map.2 (List.Pairwise.filterMap _ ?_ (hs.children_increasing holder))
    rintro h h' older r found r' found' same
    obtain rfl := labelled h r found
    obtain rfl := labelled h' r' found'
    rw [same] at older
    omega
  held := by
    intro r mem
    obtain ⟨h, listed, found⟩ := List.mem_filterMap.1 mem
    obtain rfl := labelled h r found
    exact hs.parent_of_mem_children listed

/-- A thread holds its frames. -/
theorem Consistent.holds_framesOf (hs : s.Consistent) (thread : Handle) :
    s.Holds thread .frame (s.framesOf thread) :=
  hs.holds_filterMap hs.frames_labelled thread fun _ mem => hs.get?_of_mem_framesOf mem

/-- A frame holds its scopes. -/
theorem Consistent.holds_scopesOf (hs : s.Consistent) (frame : Handle) :
    s.Holds frame .scope (s.scopesOf frame) :=
  hs.holds_filterMap hs.scopes_labelled frame fun _ mem => hs.get?_of_mem_scopesOf mem

/-- A scope or a variable holds its variables. -/
theorem Consistent.holds_variablesOf (hs : s.Consistent) (holder : Handle) :
    s.Holds holder .variable (s.variablesOf holder) :=
  hs.holds_filterMap hs.variables_labelled holder fun _ mem => hs.get?_of_mem_variablesOf mem

/-- What is told of entities in the reply to a command is stored as it is told, below what the command
names. The value of an expression belongs to the frame that is asked about, or to the current one. -/
def Tells (s : Store) (current : Option Handle) : Command → Reply → Prop
  | .threads, .threads found =>
    (found.map (·.handle)).Nodup ∧ ∀ t ∈ found, s.get? t.handle = some (.thread t.content)
  | .stackTrace id, .frames found => found = [] ∨
    ∃ holder name, s.get? holder = some (.thread ⟨id, name⟩) ∧ s.Holds holder .frame found
  | .scopes frame, .scopes found => s.Holds frame .scope found
  | .variables reference, .variables found => s.Holds reference .variable found
  | .setVariable holder _ _, .variableSet (.ok r) => s.Holds holder .variable [r]
  | .evaluate _ frame, .evaluated (.ok r) => r.reference ≠ .none →
    ∃ v f, (frame <|> current) = some f ∧ v.value = r.value ∧ v.typeName = r.typeName ∧
      s.Holds f .variable [⟨r.reference, v⟩]
  | _, .variableSet (.error _) | _, .evaluated (.error _) => True
  -- the other replies tell of no entity
  | _, .launched _ | _, .executed _ | _, .breakpoints _ | _, .process _ => True
  | _, _ => False

end Store

namespace Worker

variable {σ : Type} [Engine σ] {w : Worker σ}

/-- A command leaves a consistent store consistent. -/
theorem consistent_after (hs : w.store.Consistent) (c : Command) : (w.after c).store.Consistent := by
  have start : w.store.EmptyIs !!w.store.isEmpty := ⟨hs, (Bool.not_not _).symm⟩
  exact (emptyIs_execute start c).1

/-! ## Threads and frames -/

/-- The threads that are listed are none, or all that are in the store. -/
private theorem threads_listed (w : Worker σ) :
    (threads.run w).1 = [] ∨ (threads.run w).1 = (threads.run w).2.store.threads := by
  have listed : Ensures (fun _ => True) (threads (σ := σ)) fun found w =>
      found = [] ∨ found = w.store.threads := by
    refine Ensures.bind (R := fun _ _ => True) (fun _ _ => trivial) fun ids => ?_
    cases ids with
    | none => exact .pure fun _ _ => .inl rfl
    | some ids =>
      refine Ensures.bind (R := fun _ _ => True) (fun _ _ => trivial) fun _ => ?_
      exact Ensures.bind (R := fun _ _ => True) (fun _ _ => trivial) fun _ _ _ => .inr rfl
  exact listed w trivial

/-- The list of threads tells what is in the store. -/
private theorem tells_threads (hs : w.store.Consistent) :
    (threads.run w).2.store.Tells w.store.currentFrame .threads (.threads (threads.run w).1) := by
  have hs' : (threads.run w).2.store.Consistent := consistent_after hs .threads
  rcases threads_listed w with none | listed
  · rw [none]
    exact ⟨List.nodup_nil, nofun⟩
  · rw [listed]
    have labelled : ∀ e ∈ (threads.run w).2.store.threadTable.entries, e.2.handle = e.1 :=
      fun e mem => hs'.threads_labelled e.1 e.2 (Table.get?_eq_some_iff.2 mem)
    refine ⟨?_, fun t mem => ?_⟩
    · -- the threads have the handles under which they are entered, and each is entered once
      have same : (threads.run w).2.store.threads.map (·.handle) =
          (threads.run w).2.store.threadTable.keys := by
        rw [Store.threads, Table.values, List.map_map]
        exact List.map_congr_left labelled
      rw [same]
      exact Table.nodup _
    · obtain ⟨e, listed, rfl⟩ := List.mem_map.1 mem
      refine Store.threadAt?_iff.1 ?_
      rw [Store.threadAt?, labelled e listed, Table.get?_eq_some_iff.2 listed]
      rfl

/-- Every call leads to some state. -/
private theorem lookedFrom_any : LookedFrom fun _ : σ => True :=
  fun _ _ _ => trivial

omit [Engine σ] in
/-- What is registered one after the other comes last on the list. -/
private theorem exists_run_registered {α β : Type} {kind : EntityKind} {parent : Handle}
    {toEntity : β → Entity} {list : Store → List (Registered β)} {describe : α → WorkerM σ (Option β)}
    (appends : Store.Appends kind parent toEntity list) (glances : ∀ a, Glances (fun _ => True) (describe a))
    (elements : List α) (hs : w.store.Consistent) (live : parent ∈ w.store.handlesOf kind) :
    ∃ found w', (registerAll parent toEntity describe elements).run w = (found, w') ∧
      Registering (fun _ => True) list w w' found := by
  obtain ⟨found, w', run, registering, -⟩ := exists_run_registerAll (I := fun _ _ _ => True) appends
    glances (fun _ _ _ _ _ _ => trivial) (fun _ _ _ _ _ => trivial) elements trivial hs live trivial
  exact ⟨found, w', run, registering⟩

omit [Engine σ] in
/-- What is listed already, or is registered when nothing is, is listed afterwards. -/
private theorem listed_listOr {β : Type} {list : Store → List (Registered β)}
    {lookUp : WorkerM σ (List (Registered β))}
    (registers : ∃ found w', lookUp.run w = (found, w') ∧
      (found = [] ∨ Registering (fun _ => True) list w w' found)) :
    ((listOr list lookUp).run w).1 = [] ∨
      ((listOr list lookUp).run w).1 = list ((listOr list lookUp).run w).2.store ∧
        w.store.Grown ((listOr list lookUp).run w).2.store := by
  rw [run_listOr]
  split
  · next empty =>
    -- what is looked up is registered behind an empty list
    obtain ⟨found, w', run, none | registering⟩ := registers
    · exact .inl (by rw [run, none])
    · have listed := registering.listed
      rw [List.isEmpty_iff.1 empty, List.nil_append] at listed
      rw [run]
      exact .inr ⟨listed.symm, registering.grown⟩
  · exact .inr ⟨rfl, .refl _⟩

/-- Reading a stack registers its frames below the thread, or gives nothing. -/
private theorem registers_lookUpStack {holder : Handle} (hs : w.store.Consistent)
    (live : holder ∈ w.store.handlesOf .thread) :
    ∃ found w', (lookUpStack holder).run w = (found, w') ∧
      (found = [] ∨ Registering (fun _ => True) (·.framesOf holder) w w' found) := by
  have looked : ∀ k : Worker σ → WorkerM σ (List (Registered DebugAdapter.Frame)),
      (get >>= k).run w = (k w).run w := fun _ => rfl
  unfold lookUpStack
  let asked := (ask? (Engine.stackTrace w.options.maxFrames)).run w
  have answered : ∀ {β} (k : Option (List NativeFrame) → WorkerM σ β),
      (ask? (Engine.stackTrace w.options.maxFrames) >>= k).run w = (k asked.1).run asked.2 := fun _ => rfl
  rw [looked, answered]
  cases asked.1 with
  -- a stack that is not told registers nothing
  | none => exact ⟨[], asked.2, rfl, .inl rfl⟩
  | some frames =>
    obtain ⟨found, w', run, registering⟩ := exists_run_registered (w := asked.2)
      (Store.appends_frame holder) (fun f => (glances_describeFrame lookedFrom_any f).map some) frames
      hs live
    refine ⟨found, w', run, .inr { registering with beside := ?_ }⟩
    obtain ⟨engine, typeNames, store, rfl⟩ := registering.beside
    exact ⟨engine, typeNames, store, rfl⟩

/-- A stack trace tells what is in the store. -/
private theorem tells_stackTrace (hs : w.store.Consistent) (thread : UInt32) :
    ((stackTrace thread).run w).2.store.Tells w.store.currentFrame (.stackTrace thread)
      (.frames ((stackTrace thread).run w).1) := by
  have hs' : ((stackTrace thread).run w).2.store.Consistent := consistent_after hs (.stackTrace thread)
  cases selected : (selectThread thread).run.run w with
  | mk r w₁ =>
    cases r with
    | error e => exact .inl (congrArg Prod.fst (run_stackTrace_error selected))
    | ok done =>
      have hs₁ : w₁.store.Consistent := by
        have kept := consistent_frame.selecting.selectThread (σ := σ) thread w hs
        rwa [selected] at kept
      -- the thread is registered if it is not known
      let w₂ : Worker σ := { w₁ with store := (w₁.store.addThread thread (threadName thread)).2 }
      let holder := (w₁.store.addThread thread (threadName thread)).1
      have hs₂ : w₂.store.Consistent := hs₁.addThread thread (threadName thread)
      have known : w₂.store.threadHandles.get? thread = some holder :=
        addThread_known w₁.store thread (threadName thread)
      -- then its frames are listed as they are, or read first
      have listing : (stackTrace thread).run w =
          (listOr (·.framesOf holder) (lookUpStack holder)).run w₂ := run_stackTrace_ok selected
      rw [listing] at hs' ⊢
      rcases listed_listOr (registers_lookUpStack hs₂ (mem_threads_of_known hs₂ known)) with
        none | ⟨listed, grown⟩
      · exact .inl none
      · obtain ⟨⟨_, _, name⟩, stored, rfl⟩ := hs'.threadHandles_iff.1
          ((congrArg (·.get? thread) grown.threadHandles_eq).trans known)
        refine .inr ⟨holder, name, Store.threadAt?_iff.1 ?_, listed ▸ hs'.holds_framesOf holder⟩
        rw [Store.threadAt?, stored]
        rfl

/-! ## Scopes -/

omit [Engine σ] in
/-- A frame holds the first scope of each kind. -/
private theorem holds_scoped {s : Store} (hs : s.Consistent) {frame : Handle} {kinds : List ScopeKind}
    {scopes : List (Registered Scope)} (distinct : kinds.Nodup)
    (first : List.Forall₂ (Scoped s frame) kinds scopes) : s.Holds frame .scope scopes := by
  have listed : ∀ r ∈ scopes, r ∈ s.scopesOf frame := by
    induction first with
    | nil => exact nofun
    | cons here _ ih => exact List.forall_mem_cons.2 ⟨List.mem_of_find?_eq_some here, ih distinct.of_cons⟩
  have same : scopes.map (·.content.kind) = kinds := by
    -- induction on the kinds once more, now for the kinds themselves
    clear listed distinct
    induction first with
    | nil => rfl
    | @cons kind scope _ _ here _ ih =>
      have known : (s.scopesOf frame).find? (·.content.kind == kind) = some scope := here
      have kind_eq := List.find?_some known
      rw [List.map_cons, ih, eq_of_beq kind_eq]
  have whole := hs.holds_scopesOf frame
  refine ⟨?_, fun r mem => whole.stored r (listed r mem), fun r mem => whole.held r (listed r mem)⟩
  -- scopes of different kinds are not stored under one handle
  have apart : scopes.Pairwise fun r r' => r.content.kind ≠ r'.content.kind :=
    List.pairwise_map.1 (same ▸ distinct)
  refine List.pairwise_map.2 (apart.imp_of_mem fun {r r'} mem mem' other same => other ?_)
  have stored := whole.stored r (listed r mem)
  rw [same, whole.stored r' (listed r' mem')] at stored
  rw [Entity.scope.inj (Option.some.inj stored)]

/-- Selecting a frame changes in the store only what is selected. -/
theorem chosen_selecting (hs : w.store.Consistent) (frame : Handle) :
    w.store.Chosen (w.selecting frame).store ∧ (w.selecting frame).groups = w.groups :=
  chosen_frame.selectFrame frame w ⟨⟨hs, _, _, rfl⟩, rfl⟩

/-- The list of scopes tells what is in the store. -/
private theorem tells_scopes (hs : w.store.Consistent) (frame : Handle) :
    ((scopes frame).run w).2.store.Tells w.store.currentFrame (.scopes frame)
      (.scopes ((scopes frame).run w).1) := by
  cases known : w.store.frameAt? frame with
  | none =>
    rw [run_scopes_of_unknown known]
    exact .nil ..
  | some f =>
    obtain ⟨hs₁, thread, current, chosen⟩ := (chosen_selecting hs frame).1
    have live : frame ∈ (w.selecting frame).store.handlesOf .frame := by
      rw [chosen]
      exact Store.mem_handlesOf_of_get? (hs.frameAt?_iff.1 known)
    obtain ⟨found, s, run, grown, first, -⟩ :=
      exists_run_mapM_scopeOfKind (w := w.selecting frame) ScopeKind.all hs₁ live
    -- the scopes are listed if the frame could be selected, and none if not
    obtain ⟨k, step, refused, listed⟩ : ∃ k, (scopes frame).run w = ((selectFrame frame).run >>= k).run w ∧
        (∀ e, k (.error e) = pure []) ∧
        ∀ place, k (.ok place) = do return (← ScopeKind.all.mapM (scopeOfKind frame)).filterMap id := by
      rw [run_scopes_eq, known]
      exact ⟨_, rfl, fun _ => rfl, fun _ => rfl⟩
    rw [step, StateT.run_bind]
    change ((k ((selectFrame frame).run.run w).1).run (w.selecting frame)).2.store.Tells _ _
      (.scopes ((k ((selectFrame frame).run.run w).1).run (w.selecting frame)).1)
    cases ((selectFrame frame).run.run w).1 with
    | error e =>
      rw [refused]
      exact .nil ..
    | ok answer =>
      rw [listed, StateT.run_bind, run]
      change s.Holds frame .scope ((found.map some).filterMap id)
      rw [List.filterMap_map, Function.id_comp, List.filterMap_some]
      exact holds_scoped (grown.consistent hs₁) (by decide) first

/-! ## Variables -/

/-- Let the engine list the symbols of a scope, in the place of those it has listed before. -/
def askGroup (key : GroupKey) : WorkerM σ (Option GroupId) := do
  let previous ← takeGroup? key
  ask? (Engine.scopeSymbolGroup key.kind (previous.map (·.group)))

/-- Taking the group of a key and asking for it anew is asking for the group. -/
private theorem run_takeGroup_ask {β : Type} (key : GroupKey)
    (k : Option CachedGroup → Option GroupId → WorkerM σ β) :
    (takeGroup? key >>= fun previous =>
      ask? (Engine.scopeSymbolGroup key.kind (previous.map (·.group))) >>= k previous).run w =
    (k ((w.groups.find? (·.1 == key)).map (·.2)) ((askGroup key).run w).1).run ((askGroup key).run w).2 :=
  rfl

/-- How the variables of a scope come to be listed, from a worker `w` to another one. They are decoded anew
unless there are as many symbols as before. -/
inductive ListsScope (w : Worker σ) (scope : Registered Scope) :
    List (Registered Variable) → Worker σ → Prop
  /-- The frame of the scope is not selected. -/
  | unselected : ListsScope w scope [] (w.selecting (w.store.frameOf scope.handle))
  /-- The engine does not list the symbols. -/
  | refused {key : GroupKey} {w₁ : Worker σ} (keyed : w.groupKey? scope = some key)
      (asked : (askGroup key).run (w.selecting (w.store.frameOf scope.handle)) = (none, w₁)) :
      ListsScope w scope [] w₁
  | known {key : GroupKey} {group : GroupId} {count : Option UInt32} {w₁ w₂ : Worker σ}
      (keyed : w.groupKey? scope = some key)
      (asked : (askGroup key).run (w.selecting (w.store.frameOf scope.handle)) = (some group, w₁))
      (counted : (ask? (Engine.groupCount group)).run w₁ = (count, w₂))
      (chosen : w.store.Chosen w₂.store) (same : w.countOf key = some (count.getD 0))
      (known : w.store.variablesOf scope.handle ≠ []) :
      ListsScope w scope (w.store.variablesOf scope.handle)
        { w₂ with groups := (key, ⟨group, count.getD 0⟩) :: w₂.groups }
  | anew {key : GroupKey} {group : GroupId} {count : Option UInt32} {w₁ w₂ w₃ : Worker σ}
      {found : List (Registered Variable)} (keyed : w.groupKey? scope = some key)
      (asked : (askGroup key).run (w.selecting (w.store.frameOf scope.handle)) = (some group, w₁))
      (counted : (ask? (Engine.groupCount group)).run w₁ = (count, w₂))
      (chosen : w.store.Chosen w₂.store)
      (other : w.countOf key = some (count.getD 0) → w.store.variablesOf scope.handle = [])
      (shown : (materialize scope.handle group (count.getD 0)).run
        { w₂ with store := w₂.store.removeChildren scope.handle } = (found, w₃)) :
      ListsScope w scope found { w₃ with groups := (key, ⟨group, count.getD 0⟩) :: w₃.groups }

/-- The frame of the scope is selected, and its symbols are listed. -/
private theorem listsScope_listSymbols (hs : w.store.Consistent) (scope : Registered Scope) {key : GroupKey}
    (keyed : w.groupKey? scope = some key) :
    let selected := w.selecting (w.store.frameOf scope.handle)
    ListsScope w scope ((listSymbols scope.handle key).run selected).1
      ((listSymbols scope.handle key).run selected).2 := by
  intro selected
  obtain ⟨chosen, groups⟩ := chosen_selecting hs (w.store.frameOf scope.handle)
  let previous := (selected.groups.find? (·.1 == key)).map (·.2)
  -- selecting the frame has changed no group, so the number is the one remembered before
  have remembered : w.countOf key = previous.map (·.count) := by
    rw [countOf, ← groups]
    exact (Option.map_map ..).symm
  let asked := (askGroup key).run selected
  rw [listSymbols, run_takeGroup_ask]
  cases listed : asked.1 with
  | none => exact .refused keyed (Prod.ext listed rfl)
  | some group =>
    let counting := (ask? (Engine.groupCount group)).run asked.2
    have step : (do
        showSymbols scope.handle key previous group ((← ask? (Engine.groupCount group)).getD 0) :
        WorkerM σ _).run asked.2 =
      (showSymbols scope.handle key previous group (counting.1.getD 0)).run counting.2 := rfl
    dsimp only
    rw [step]
    have same : counting.2.store.variablesOf scope.handle = w.store.variablesOf scope.handle :=
      chosen.variablesOf_eq scope.handle
    -- the symbols are listed from the store only if there are any and their number is as before
    by_cases known : w.countOf key = some (counting.1.getD 0) ∧ w.store.variablesOf scope.handle ≠ []
    · rw [run_showSymbols_of_known (remembered ▸ known.1) (same ▸ known.2), same]
      exact .known keyed (Prod.ext listed rfl) rfl chosen known.1 known.2
    · have other : w.countOf key = some (counting.1.getD 0) →
          w.store.variablesOf scope.handle = [] := by
        intro count
        by_contra some
        exact known ⟨count, some⟩
      rw [run_showSymbols_of_other (by rw [← remembered, same]; exact other) rfl]
      exact .anew keyed (Prod.ext listed rfl) rfl chosen other rfl

/-- The variables of a scope are listed in one of the four ways. -/
theorem listsScope_scopeVariables (hs : w.store.Consistent) (scope : Registered Scope) :
    ListsScope w scope ((scopeVariables scope).run w).1 ((scopeVariables scope).run w).2 := by
  let frame := w.store.frameOf scope.handle
  have answer := ensures_selectFrame frame w w rfl
  have looked : ∀ k : Worker σ → WorkerM σ (List (Registered Variable)),
      (get >>= k).run w = (k w).run w := fun _ => rfl
  unfold scopeVariables
  rw [looked]
  dsimp only
  rw [StateT.run_bind]
  cases given : (selectFrame frame).run.run w with
  | mk place w₁ =>
  obtain rfl : w₁ = w.selecting frame := (congrArg Prod.snd given).symm
  cases place with
  -- a frame that cannot be selected, or is none, lists nothing
  | error e => exact .unselected
  | ok place =>
    cases place with
    | none => exact .unselected
    | some place =>
      obtain ⟨thread, order⟩ := place
      -- the frame is in its place, and so the key of the scope is known
      have keyed : w.groupKey? scope = some ⟨thread, order, scope.content.kind⟩ := by
        rw [groupKey?, answer _ (congrArg Prod.fst given)]
        rfl
      exact listsScope_listSymbols hs scope keyed

/-- The variables of a scope are all that is stored below it then, or nothing is listed. -/
private theorem ListsScope.listed {scope : Registered Scope} {found : List (Registered Variable)}
    {w' : Worker σ} (lists : ListsScope w scope found w')
    (is : w.store.get? scope.handle = some (.scope scope.content)) :
    found = [] ∨ found = w'.store.variablesOf scope.handle := by
  -- nothing is listed, or what was there, or what is registered anew
  cases lists with
  | unselected => exact .inl rfl
  | refused => exact .inl rfl
  | known keyed asked counted chosen => exact .inr (chosen.variablesOf_eq _).symm
  | @anew key group count w₁ w₂ w₃ found keyed asked counted chosen other shown =>
    have hs₂ : w₂.store.Consistent := chosen.1
    have kept : (w₂.store.removeChildren scope.handle).get? scope.handle = some (.scope scope.content) := by
      rw [hs₂.get?_removeChildren_self, chosen.get?_eq, is]
    obtain ⟨found', w', run, registering⟩ := exists_run_registered
      (w := { w₂ with store := w₂.store.removeChildren scope.handle })
      (Store.appends_variable rfl scope.handle) (glances_describeSymbol lookedFrom_any group)
      ((List.range (count.getD 0).toNat).map UInt32.ofNat) (hs₂.removeChildren scope.handle)
      (Store.mem_handlesOf_of_get? kept)
    obtain ⟨rfl, rfl⟩ := Prod.mk.inj (shown.symm.trans run)
    have listed := registering.listed
    dsimp only at listed
    rw [hs₂.variablesOf_removeChildren, List.nil_append] at listed
    exact .inr listed.symm

/-- Decoding children registers them below their holder, or gives nothing. -/
private theorem registers_lookUpChildren {holder : Handle} (origin : NamedValue)
    (hs : w.store.Consistent) (live : holder ∈ w.store.handlesOf .variable) :
    ∃ found w', (lookUpChildren holder origin).run w = (found, w') ∧
      (found = [] ∨ Registering (fun _ => True) (·.variablesOf holder) w w' found) := by
  let decoding := (inMemory (VisualizerRegistry.standard.children origin)).run w
  have glances : ∀ c, Glances (fun _ => True) (some <$> inMemory (σ := σ) (present c)) :=
    fun c => (Glances.inMemory fun size => keeps_present (readFrame lookedFrom_any size) c).map some
  obtain ⟨found, w', run, registering⟩ := exists_run_registered (w := decoding.2)
    (Store.appends_variable rfl holder) glances decoding.1 hs live
  refine ⟨found, w', run, .inr { registering with beside := ?_ }⟩
  obtain ⟨engine, typeNames, store, rfl⟩ := registering.beside
  exact ⟨engine, typeNames, store, rfl⟩

/-- A list of variables tells what is in the store. -/
private theorem tells_variables (hs : w.store.Consistent) (reference : Handle) :
    ((variablesBelow reference).run w).2.store.Tells w.store.currentFrame (.variables reference)
      (.variables ((variablesBelow reference).run w).1) := by
  let w' := ((variablesBelow reference).run w).2
  have hs' : w'.store.Consistent := consistent_after hs (.variables reference)
  -- what is listed is empty, or it is what the store has below the reference then
  have listed : ((variablesBelow reference).run w).1 = [] ∨
      ((variablesBelow reference).run w).1 = w'.store.variablesOf reference := by
    have run := run_variablesBelow reference w
    -- only a scope and a variable have variables below them
    cases is : w.store.get? reference with
    | none => exact .inl (by rw [run, is]; rfl)
    | some e =>
      cases e with
      | thread t => exact .inl (by rw [run, is]; rfl)
      | frame f => exact .inl (by rw [run, is]; rfl)
      | scope c =>
        rw [is] at run
        have lists := (listsScope_scopeVariables hs ⟨reference, c⟩).listed is
        rwa [← run] at lists
      | «variable» x =>
        have live : reference ∈ w.store.handlesOf .variable := Store.mem_handlesOf_of_get? is
        rw [is] at run
        have listed : (expand ⟨reference, x⟩).run w =
            (listOr (·.variablesOf reference) (lookUpChildren reference x.origin)).run w := rfl
        rw [listed] at run
        have lists := listed_listOr (registers_lookUpChildren x.origin hs live)
        rw [← run] at lists
        exact lists.imp id And.left
  -- either way every one of them is stored below the reference
  rcases listed with none | listed
  · rw [none]
    exact .nil ..
  · rw [listed]
    exact hs'.holds_variablesOf reference

/-! ## Values -/

/-- The reply to a write tells what is in the store. -/
private theorem tells_setVariable (hs : w.store.Consistent) (holder : Handle) (name value : String) :
    ((setVariable holder name value).run w).2.store.Tells w.store.currentFrame
      (.setVariable holder name value) (.variableSet ((setVariable holder name value).run w).1) := by
  cases named : w.variableNamed? holder name with
  | none =>
    rw [run_setVariable_none value named]
    trivial
  | some target =>
    have listed : target ∈ w.store.variablesOf holder := List.mem_of_find?_eq_some named
    let c : Command := .setVariable holder name value
    have inspected : w.Inspected c target.handle (.variable target.content) :=
      Worker.inspected hs rfl (hs.get?_of_mem_variablesOf listed)
    have after : w.after c = ((setVariable holder name value).run w).2 := rfl
    have run := run_setVariable value named
    -- an error names no variable
    cases outcome : ((overwrite target.content value).run.run
        (w.selecting (w.store.frameOf holder)).memory).1 with
    | error f =>
      rw [run, run_overwriteSelected_error outcome]
      trivial
    | ok shown =>
      have set : ((setVariable holder name value).run w).1 = .ok ⟨target.handle, shown⟩ := by
        rw [run, run_overwriteSelected_ok outcome]
      -- what an inspection does to a variable that is set is known already
      obtain ⟨kept, stored, -⟩ := inspected.set ⟨holder, name, value, rfl,
        congrArg (Outcome.answered ∘ Reply.variableSet) set⟩
      rw [set, ← after]
      exact ⟨List.pairwise_singleton .., List.forall_mem_singleton.2 stored,
        List.forall_mem_singleton.2
          ((inspected.parent?_eq kept).trans (hs.parent?_of_mem_variablesOf listed))⟩

/-- Without a frame there is no reference. -/
private theorem reference_of_unframed (expression : String) {given : Option Handle}
    (unframed : (given <|> w.store.currentFrame).filter (fun f => (w.store.frameAt? f).isSome) = none) :
    ∀ r, ((evaluate expression given).run w).1 = .ok r → r.reference = .none := by
  have ends : Ensures (· = w) (evaluate expression given) fun r _ =>
      ∀ e, r = .ok e → e.reference = .none := by
    refine .bindGet fun w₀ e => ?_
    replace e := e.symm
    subst e
    dsimp only
    rw [unframed]
    refine Ensures.bind (R := fun _ _ => True) (fun _ _ => trivial) fun found => ?_
    cases found with
    | none => exact .pure fun _ _ e given => nomatch given
    | some shown => exact .pure fun _ _ e given => Except.ok.inj given ▸ rfl
  exact ends w rfl

omit [Engine σ] in
/-- An entity that can be added is registered under its new handle. -/
private theorem run_register {parent h : Handle} {entity : Entity}
    (added : (w.store.add parent entity).1 = .ok h) :
    (register parent entity).run w = (some h, { w with store := (w.store.add parent entity).2 }) := by
  change ((w.store.add parent entity).1.toOption, _) = _
  rw [added]
  rfl

/-- The reply to an evaluation tells what is in the store, if it has a reference. -/
private theorem tells_evaluate (hs : w.store.Consistent) (expression : String) (given : Option Handle) :
    ((evaluate expression given).run w).2.store.Tells w.store.currentFrame (.evaluate expression given)
      (.evaluated ((evaluate expression given).run w).1) := by
  have hs' : ((evaluate expression given).run w).2.store.Consistent :=
    consistent_after hs (.evaluate expression given)
  cases framed : (given <|> w.store.currentFrame).filter (fun f => (w.store.frameAt? f).isSome) with
  | none =>
    -- without a frame nothing is registered, and the value has no reference
    have unreferenced := reference_of_unframed expression framed
    cases answer : ((evaluate expression given).run w).1 with
    | error f => trivial
    | ok r => exact fun some => absurd (unreferenced r answer) some
  | some frame =>
    obtain ⟨chosen, known⟩ := Option.filter_eq_some_iff.1 framed
    obtain ⟨f, known⟩ := Option.isSome_iff_exists.1 known
    obtain ⟨hs₁, thread, current, same⟩ := (chosen_selecting hs frame).1
    have live : frame ∈ (w.selecting frame).store.handlesOf .frame := by
      rw [same]
      exact Store.mem_handlesOf_of_get? (hs.frameAt?_iff.1 known)
    rw [run_evaluate expression chosen known] at hs' ⊢
    -- the value is looked up and shown, and nothing else is done with the memory
    let looks : MemoryM σ (Option Variable) := do
      let data ← Memory.evaluate expression
      if data.isNone then return none
      return some (← present (← Memory.named expression data))
    let looking := (inMemory looks).run (w.selecting frame)
    have step : ∀ {β} (k : Option Variable → WorkerM σ β),
        (inMemory looks >>= k).run (w.selecting frame) = (k looking.1).run looking.2 := fun _ => rfl
    rw [evaluateSelected, step] at hs' ⊢
    cases seen : looking.1 with
    | none => trivial
    | some shown =>
      rw [seen] at hs'
      -- the value is registered below its frame if it can be expanded
      obtain ⟨added, listed⟩ := Store.appends_variable rfl frame looking.2.store hs₁ live shown
      dsimp only at hs' ⊢
      by_cases expandable : shown.hasChildren = true
      · rw [if_pos expandable, StateT.run_bind, run_register added] at hs' ⊢
        -- what is registered is the last of its list
        have mem : ⟨looking.2.store.nextHandle, shown⟩ ∈
            (looking.2.store.add frame (.variable shown)).2.variablesOf frame := by
          dsimp only at listed
          rw [listed]
          exact List.mem_append_right _ List.mem_cons_self
        exact fun _ => ⟨shown, frame, chosen, rfl, rfl, (hs'.holds_variablesOf frame).single mem⟩
      · rw [if_neg expandable]
        exact fun some => absurd rfl some

/-! ## Commands -/

/-- What a command replies is in the store as it is told, below what the command names. -/
theorem tells_execute (hs : w.store.Consistent) {c : Command} {reply : Reply}
    (answered : ((execute c).run w).1 = .answered reply) :
    (w.after c).store.Tells w.store.currentFrame c reply := by
  -- the reply to a start tells of no entity
  have ofStart : ∀ start : WorkerM σ (Except LaunchFailure NewDebuggee),
      Outcome.ofStart (start.run w).1 = .answered reply →
      (w.after c).store.Tells w.store.currentFrame c reply := by
    intro start given
    cases started : (start.run w).1 with
    | ok d => exact nomatch (started ▸ given : Outcome.ofStart (.ok d) = .answered reply)
    | error e =>
      obtain rfl := Outcome.answered.inj (started ▸ given : Outcome.ofStart (.error e) = .answered reply)
      cases c <;> trivial
  -- one case for each command that lists entities, and one for all the others
  cases c with
  | threads => exact Outcome.answered.inj answered ▸ tells_threads hs
  | stackTrace thread => exact Outcome.answered.inj answered ▸ tells_stackTrace hs thread
  | scopes frame => exact Outcome.answered.inj answered ▸ tells_scopes hs frame
  | «variables» reference => exact Outcome.answered.inj answered ▸ tells_variables hs reference
  | setVariable holder name value =>
    exact Outcome.answered.inj answered ▸ tells_setVariable hs holder name value
  | evaluate expression frame =>
    exact Outcome.answered.inj answered ▸ tells_evaluate hs expression frame
  | launch r => exact ofStart (Worker.launch r) answered
  | attach r => exact ofStart (Worker.attach r) answered
  | «continue» | step kind thread | pause | terminate | setBreakpoints file lines | processInfo =>
    exact Outcome.answered.inj answered ▸ trivial

end Worker

end DebugAdapter
