import DebugAdapter.Proofs.EngineAnswers
import DebugAdapter.Proofs.ListedEntities
import Mathlib.Data.List.Forall2

/-!
# Variables that are listed

When the symbols of a scope are decoded anew, the variables shown are those of the symbols that the engine
has read out and that are shown below no other symbol: one for each, in the order of the symbols, under its
name. It does not matter which of them can be decoded. When a variable is expanded of which nothing is
known, the variables shown are the children that its visualizer lists, one for each and in that order.

The engine puts down what it was asked about symbols (`AnswerLog`), so a reply can be compared with what
was read out.

## Key results

- `Worker.shows_materialize`: the variables of a scope are those of its symbols
- `Observed.run_tells`: what is replied about a stopped debuggee is stored, and lists what it is to list
-/

namespace DebugAdapter

/-- The name of a symbol that was read out and is shown below no other symbol. -/
def topName? (entry : Option SymbolEntry) : Option String :=
  (entry.filter (·.parent.isNone)).map (·.name)

/-- The answers when symbols of a group are read out. -/
def readings (group : GroupId) (read : List (UInt32 × Option SymbolEntry)) : List EngineAnswer :=
  read.map fun r => .entered group r.1 r.2

namespace Worker

variable {σ : Type} [Engine σ]

/-- What the engine was asked for and has answered. -/
def answers (w : Worker (AnswerLog σ)) : List EngineAnswer :=
  w.session.engine.answers

/-! ## Symbols -/

section

variable {w : Worker (AnswerLog σ)}

omit [Engine σ] in
/-- A value is presented under its name. -/
private theorem name_present {τ : Type} [Engine τ] (v : NamedValue) (mem : Memory τ) :
    ((present v).run mem).1.name = v.name :=
  rfl

/-- Looking at the memory gives no answers that are logged. -/
private theorem readFrame_answers (l : List EngineAnswer) :
    Memory.ReadFrame fun mem : Memory (AnswerLog σ) => mem.engine.answers = l where
  call := fun h mem same => (AnswerLog.answers_of_dataCall h.data mem.engine).trans same
  typeNames := fun _ _ same => same

/-- A symbol is read out once, and shown under its name if it is shown below no other one. -/
private theorem exists_describeSymbol (group : GroupId) (index : UInt32) (w : Worker (AnswerLog σ)) :
    ∃ entry, ((describeSymbol group index).run w).2.answers = w.answers ++ [.entered group index entry] ∧
      ((describeSymbol group index).run w).1.map (·.name) = topName? entry := by
  let entry := ((Engine.groupEntry group index : EngineM (AnswerLog σ) SymbolEntry).call
    w.session.engine).1.toOption
  let l := w.answers ++ [.entered group index entry]
  have F := readFrame_answers (σ := σ) l
  have described : Ensures (· = w) (describeSymbol group index) fun shown w' =>
      w'.answers = l ∧ shown.map (·.name) = topName? entry := by
    refine Ensures.bind (R := fun e w' => w'.answers = l ∧ e = entry) ?_ fun e => ?_
    · rintro _ rfl
      exact ⟨rfl, rfl⟩
    refine Ensures.assume (fun _ h => h.2) fun same => ?_
    rw [← same]
    -- an entry that cannot be read, or that is part of another symbol, is hidden
    cases e with
    | none => exact .pure fun w' h => ⟨h.1, rfl⟩
    | some e =>
      refine .ite (fun parent => .pure fun w' h => ⟨h.1, ?_⟩) fun parent => ?_
      · -- hidden, it is no name at the top
        have below : ¬e.parent.isNone = true := fun none =>
          Option.isSome_iff_ne_none.1 parent (Option.isNone_iff_eq_none.1 none)
        rw [topName?, Option.filter_some, if_neg below]
        rfl
      have top : topName? (some e) = some e.name := by
        rw [topName?, Option.filter_some, if_pos (by simpa using parent)]
        rfl
      rw [top]
      -- whatever is found in memory, it is shown under the name of the symbol
      have shown : Ensures (fun mem : Memory (AnswerLog σ) => mem.engine.answers = l) (do
          let data ← Memory.create e.moduleBase e.offset e.typeId
          let typeName ← if e.typeName.isEmpty then Memory.typeName data else pure e.typeName
          let v : NamedValue := ⟨e.name, typeName, data⟩
          if data.isNone then return some (.ofRendering v (.leaf e.valueText))
          return some (← present v)) fun (shown : Option Variable) mem =>
            mem.engine.answers = l ∧ shown.map (·.name) = some e.name := by
        refine (Ensures.of_keeps (F.create _ _ _)).bind fun data => ?_
        refine .ite (fun _ => (Ensures.of_keeps (F.typeName data)).bind fun typeName => ?_)
          fun _ => (Ensures.of_keeps (.pure _)).bind fun typeName => ?_
        all_goals
          refine .ite (fun _ => .pure fun mem same => ⟨same, rfl⟩) fun _ => ?_
          refine Ensures.bind (R := fun v mem => mem.engine.answers = l ∧ v.name = e.name) ?_
            fun v => .pure fun mem h => ⟨h.1, congrArg some h.2⟩
          exact fun mem same => ⟨keeps_present F _ mem same, name_present _ mem⟩
      exact fun w' h => shown _ h.1
  exact ⟨entry, described w rfl⟩

/-- Each symbol of a group is read out once, in order, and there is one variable for each that was read out
and is shown below no other one. -/
private theorem exists_materialize {scope : Handle} (group : GroupId) (count : UInt32)
    (hs : w.store.Consistent) (live : scope ∈ w.store.handlesOf .scope) :
    let shown := (materialize scope group count).run w
    ∃ read, shown.2.answers = w.answers ++ readings group read ∧
      read.map (·.1.toNat) = List.range count.toNat ∧
      shown.1.map (·.content.name) = read.filterMap (topName? ·.2) := by
  -- while symbols are registered one by one, each has been read out, and has a name or is hidden
  let I : List UInt32 → List Variable → Worker (AnswerLog σ) → Prop := fun done given w' =>
    ∃ read, read.map (·.1) = done ∧ w'.answers = w.answers ++ readings group read ∧
      given.map (·.name) = read.filterMap (topName? ·.2)
  have each : ∀ done given index w', True → I done given w' →
      I (done ++ [index]) (given ++ ((describeSymbol group index).run w').1.toList)
        ((describeSymbol group index).run w').2 := by
    rintro done given index w' - ⟨read, rfl, answers, names⟩
    obtain ⟨entry, answered, name⟩ := exists_describeSymbol group index w'
    refine ⟨read ++ [(index, entry)], by simp, ?_, ?_⟩
    · rw [answered, answers]
      simp [readings]
    · rw [List.map_append, names, List.filterMap_append, List.filterMap_cons, ← name]
      cases ((describeSymbol group index).run w').1 <;> rfl
  have looked : LookedFrom fun _ : AnswerLog σ => True := fun _ _ _ => trivial
  obtain ⟨found, w', run, -, read, all, answers, names⟩ := exists_run_registerAll (I := I)
    (Store.appends_variable rfl scope) (glances_describeSymbol looked group) each
    (fun _ _ _ _ h => h) ((List.range count.toNat).map UInt32.ofNat) trivial hs live
    ⟨[], rfl, (List.append_nil _).symm, rfl⟩
  have run : (materialize scope group count).run w = (found, w') := run
  rw [run]
  refine ⟨read, answers, ?_, by rwa [List.map_map] at names⟩
  -- the indices that were read out are those counted up to the number of symbols
  have numbers : read.map (·.1.toNat) = (read.map (·.1)).map UInt32.toNat := by
    rw [List.map_map]
    rfl
  rw [numbers, all, List.map_map]
  refine (List.map_congr_left fun i below => ?_).trans (List.map_id _)
  have below := List.mem_range.1 below
  exact Nat.mod_eq_of_lt (Nat.lt_trans below count.toNat_lt)

/-- What is asked and shown for the symbols of a scope. The frame of the scope may not be selected, or the
engine may not list the symbols; then there is nothing to be shown. Otherwise they are counted, and the
variables are shown that are known already if there are any and there were as many symbols before. If not,
each symbol below the count is read out once, in order, and shown is one variable for each that was read out
and that is shown below no other one, under its name. A group that cannot be counted counts as empty. -/
inductive ShowsScope (w : Worker (AnswerLog σ)) (scope : Registered Scope) :
    List EngineAnswer → List (Registered Variable) → Prop
  | unselected : ShowsScope w scope [] []
  | refused {previous : Option GroupId} :
      ShowsScope w scope [.grouped scope.content.kind previous none] []
  | known {key : GroupKey} {previous : Option GroupId} {group : GroupId} {count : Option UInt32}
      (keyed : w.groupKey? scope = some key) (same : w.countOf key = some (count.getD 0))
      (known : w.store.variablesOf scope.handle ≠ []) :
      ShowsScope w scope [.grouped scope.content.kind previous (some group), .counted group count]
        (w.store.variablesOf scope.handle)
  | anew {key : GroupKey} {previous : Option GroupId} {group : GroupId} {count : Option UInt32}
      {read : List (UInt32 × Option SymbolEntry)} {found : List (Registered Variable)}
      (keyed : w.groupKey? scope = some key)
      (other : w.countOf key = some (count.getD 0) → w.store.variablesOf scope.handle = [])
      (all : read.map (·.1.toNat) = List.range (count.getD 0).toNat)
      (names : found.map (·.content.name) = read.filterMap (topName? ·.2)) :
      ShowsScope w scope
        (.grouped scope.content.kind previous (some group) :: .counted group count :: readings group read)
        found

/-- Selecting a frame gives no answers that are logged. -/
private theorem answers_selecting (w : Worker (AnswerLog σ)) (frame : Handle) :
    (w.selecting frame).answers = w.answers :=
  keeps_selectFrame (P := fun s : AnswerLog σ => s.answers = w.answers)
    (fun h s same => by cases h <;> exact same) frame w rfl

omit [Engine σ] in
/-- The key of a scope is for symbols of its kind. -/
private theorem kind_of_groupKey? {scope : Registered Scope} {key : GroupKey}
    (keyed : w.groupKey? scope = some key) : key.kind = scope.content.kind := by
  obtain ⟨place, -, rfl⟩ := Option.map_eq_some_iff.1 keyed
  rfl

/-- Asking for a group logs the one answer to it. -/
private theorem answers_askGroup (w : Worker (AnswerLog σ)) (key : GroupKey) :
    ∃ previous, ((askGroup key).run w).2.answers =
      w.answers ++ [.grouped key.kind previous ((askGroup key).run w).1] :=
  ⟨((w.groups.find? (·.1 == key)).map (·.2)).map (·.group), rfl⟩

/-- The engine is asked for the symbols of a scope, and how many there are. -/
private theorem answers_counted {scope : Registered Scope} {key : GroupKey} {group : GroupId}
    {count : Option UInt32} {w₁ w₂ : Worker (AnswerLog σ)} (keyed : w.groupKey? scope = some key)
    (asked : (askGroup key).run (w.selecting (w.store.frameOf scope.handle)) = (some group, w₁))
    (counted : (ask? (Engine.groupCount group)).run w₁ = (count, w₂)) :
    ∃ previous, w₂.answers = w.answers ++
      [.grouped scope.content.kind previous (some group), .counted group count] := by
  obtain ⟨previous, answered⟩ := answers_askGroup (w.selecting (w.store.frameOf scope.handle)) key
  have count_answered : ((ask? (Engine.groupCount group)).run w₁).2.answers =
      w₁.answers ++ [.counted group ((ask? (Engine.groupCount group)).run w₁).1] := rfl
  rw [asked, answers_selecting, kind_of_groupKey? keyed] at answered
  rw [counted, answered, List.append_assoc] at count_answered
  exact ⟨previous, count_answered⟩

/-- The variables of a scope show what the engine answered, or what was shown before. -/
theorem showsScope_scopeVariables (hs : w.store.Consistent) (scope : Registered Scope)
    (is : w.store.get? scope.handle = some (.scope scope.content)) :
    ∃ answers, ((scopeVariables scope).run w).2.answers = w.answers ++ answers ∧
      w.ShowsScope scope answers ((scopeVariables scope).run w).1 := by
  have lists := listsScope_scopeVariables hs scope
  generalize ((scopeVariables scope).run w).1 = found, ((scopeVariables scope).run w).2 = w' at lists ⊢
  -- each way of listing goes with what was asked for it
  cases lists with
  | unselected => exact ⟨[], by rw [answers_selecting, List.append_nil], .unselected⟩
  | @refused key _ keyed asked =>
    obtain ⟨previous, answered⟩ := answers_askGroup (w.selecting (w.store.frameOf scope.handle)) key
    rw [asked, answers_selecting, kind_of_groupKey? keyed] at answered
    exact ⟨_, answered, .refused⟩
  -- symbols that are known are not asked for again
  | known keyed asked counted chosen same known =>
    obtain ⟨previous, answered⟩ := answers_counted keyed asked counted
    exact ⟨_, answered, .known keyed same known⟩
  | @anew key group count w₁ w₂ w₃ found keyed asked counted chosen other shown =>
    obtain ⟨previous, answered⟩ := answers_counted keyed asked counted
    have hs₂ : w₂.store.Consistent := chosen.1
    -- the scope is still there when what was below it is removed
    have kept : (w₂.store.removeChildren scope.handle).get? scope.handle = some (.scope scope.content) := by
      rw [hs₂.get?_removeChildren_self, chosen.get?_eq, is]
    obtain ⟨read, reads, all, names⟩ := exists_materialize
      (w := { w₂ with store := w₂.store.removeChildren scope.handle }) group (count.getD 0)
      (hs₂.removeChildren scope.handle) (Store.mem_handlesOf_of_get? kept)
    rw [shown] at reads names
    refine ⟨.grouped scope.content.kind previous (some group) :: .counted group count :: readings group read,
      ?_, .anew keyed other all names⟩
    change w₃.answers = _
    rw [reads]
    change w₂.answers ++ _ = _
    rw [answered, List.append_assoc]
    rfl

end

/-! ## Children -/

/-- What is shown below a variable: what is known there, if there is anything. If not, as when it is expanded
for the first time, one variable is shown for each child that the visualizer lists, in that order. -/
def ShowsChildren (w : Worker σ) (holder : Registered Variable) (found : List (Registered Variable)) : Prop :=
  let known := w.store.variablesOf holder.handle
  (known ≠ [] → found = known) ∧
  (known = [] →
    let listed := ((inMemory (VisualizerRegistry.standard.children holder.content.origin)).run w).1
    List.Forall₂ (fun child r => ∃ shown, r.content = .ofRendering child shown) listed found)

/-- An expansion shows what is known, or else one variable for each child that is decoded. -/
theorem showsChildren_expand {w : Worker σ} (hs : w.store.Consistent) (holder : Registered Variable)
    (live : holder.handle ∈ w.store.handlesOf .variable) :
    w.ShowsChildren holder ((expand holder).run w).1 := by
  have run : (expand holder).run w =
      (listOr (·.variablesOf holder.handle) (lookUpChildren holder.handle holder.content.origin)).run w := rfl
  rw [run, run_listOr]
  -- known children are shown again, and others are decoded
  refine ⟨fun known => ?_, fun unknown => ?_⟩
  · rw [if_neg (mt List.isEmpty_iff.1 known)]
  · rw [if_pos (List.isEmpty_iff.2 unknown)]
    let decoding := (inMemory (VisualizerRegistry.standard.children holder.content.origin)).run w
    let I : List NamedValue → List Variable → Worker σ → Prop := fun done given _ =>
      List.Forall₂ (fun child v => ∃ shown, v = .ofRendering child shown) done given
    have looked : LookedFrom fun _ : σ => True := fun _ _ _ => trivial
    have glances : ∀ c, Glances (fun _ => True) (some <$> inMemory (σ := σ) (present c)) :=
      fun c => (Glances.inMemory fun size => keeps_present (readFrame looked size) c).map some
    -- each child is shown as it is presented
    have each : ∀ done given child (w' : Worker σ), True → I done given w' →
        I (done ++ [child])
          (given ++ ((some <$> inMemory (σ := σ) (present child)).run w').1.toList)
          ((some <$> inMemory (σ := σ) (present child)).run w').2 :=
      fun done given child w' _ h => List.rel_append h (.cons ⟨_, rfl⟩ .nil)
    obtain ⟨found, w', run, -, shown⟩ := exists_run_registerAll (w := decoding.2) (I := I)
      (Store.appends_variable rfl holder.handle) glances each (fun _ _ _ _ h => h) decoding.1 trivial hs
      live .nil
    have run : (lookUpChildren holder.handle holder.content.origin).run w = (found, w') := run
    rw [run]
    exact List.forall₂_map_right_iff.1 shown

end Worker

namespace Observed

variable {σ : Type} [Engine σ]

/-- Whatever worker a gateway comes to have, and whatever its engine answers: a reply tells of entities as they
are stored then, below what the command names. The variables of a scope that are decoded anew are those of the
symbols that were read out and are shown below no other one, and below a variable of which nothing is known
are the children that the visualizer lists. -/
theorem run_tells (engine : AnswerLog σ) (options : GatewayOptions) (turns : List Turn)
    {w : Worker (AnswerLog σ)} (reached : ((new engine options).run turns).Reaches w) {c : Command}
    {reply : Reply} (answered : ((Worker.execute c).run w).1 = .answered reply) :
    (w.after c).store.Tells w.store.currentFrame c reply ∧
      ∀ reference found, c = .variables reference → reply = .variables found →
        (∀ scope, w.store.get? reference = some (.scope scope) → ∃ answers,
          (w.after c).answers = w.answers ++ answers ∧ w.ShowsScope ⟨reference, scope⟩ answers found) ∧
        (∀ v, w.store.get? reference = some (.variable v) → w.ShowsChildren ⟨reference, v⟩ found) := by
  have hs : w.store.Consistent := reached.consistent
  refine ⟨Worker.tells_execute hs answered, ?_⟩
  rintro reference found rfl rfl
  have lists : ((Worker.variablesBelow reference).run w).1 = found :=
    Reply.variables.inj (Worker.Outcome.answered.inj answered)
  have after : w.after (.variables reference) = ((Worker.variablesBelow reference).run w).2 := rfl
  have run := Worker.run_variablesBelow reference w
  -- a scope is compared with what the engine answered, a variable with what is decoded
  refine ⟨fun scope is => ?_, fun v is => ?_⟩
  · rw [is] at run
    have shows := Worker.showsScope_scopeVariables hs ⟨reference, scope⟩ is
    rwa [← run, ← after, lists] at shows
  · rw [is] at run
    have shows := Worker.showsChildren_expand hs ⟨reference, v⟩ (Store.mem_handlesOf_of_get? is)
    rwa [← run, lists] at shows

/-- A debuggee with a local variable that has a part of its own, after another symbol that cannot be read. -/
def symbolWithPart : Scripted.World where
  callStacks := [(1, [⟨0x1000, 0⟩])]
  symbols := [("Locals", [none, some ⟨"x", "i32", "7", 0, 0, 0, none, 0⟩,
    some ⟨"part", "i32", "7", 0, 0, 0, some 1, 0⟩])]

/-- The scopes of its frame are listed. -/
def partsListed : Observed (AnswerLog Scripted.World) :=
  (new { engine := symbolWithPart } {}).run ([.call (.submit (.launch ⟨"app", "app", [], []⟩)),
    .call (.submit (.stackTrace 1)), .call (.submit (.scopes ⟨2⟩))] ++ List.replicate 11 .engine)

/-- One variable is shown, and stored as it is shown. -/
theorem run_tells_parts :
    let w := partsListed.gateway.worker
    let x : Registered Variable := ⟨⟨5⟩, .ofRendering ⟨"x", "i32", .none⟩ (.leaf "7")⟩
    ((Worker.execute (.variables ⟨3⟩)).run w).1 = .answered (.variables [x]) ∧
      (w.after (.variables ⟨3⟩)).store.Holds ⟨3⟩ .variable [x] ∧
      ∃ answers, (w.after (.variables ⟨3⟩)).answers = w.answers ++ answers ∧
        w.ShowsScope ⟨⟨3⟩, ⟨.locals⟩⟩ answers [x] := by
  intro w x
  have shown : ((Worker.variablesBelow ⟨3⟩).run w).1 = [x] := by decide +kernel
  have answered : ((Worker.execute (.variables ⟨3⟩)).run w).1 = .answered (.variables [x]) := by
    rw [Worker.run_execute_variables, shown]
  have is : w.store.get? ⟨3⟩ = some (.scope ⟨.locals⟩) := by decide +kernel
  have reached : partsListed.Reaches w := .inl rfl
  have told := run_tells { engine := symbolWithPart } {} _ reached answered
  exact ⟨answered, told.1, (told.2 ⟨3⟩ [x] rfl rfl).1 ⟨.locals⟩ is⟩

end Observed

end DebugAdapter
