import DebugAdapter.Proofs.GatewayOrder

/-!
# The journal of an engine

An engine that keeps a journal: of the ends of native sessions, of the symbol groups handed out and
released, and of its own release. All else is done by an engine below it. So what is true of a journal
is true of the calls that reach any engine.

The invariant (`Accounted`) is that the groups handed out are those released, those in the worker's
list, and the one that is in use while the variables of a scope are looked up.

## Key results

- `Worker.accounted_execute`: commands keep the journal accounted for
- `Worker.journal_release`: what a journal says when the engine was let go
-/

namespace DebugAdapter

/-- What is put down of the calls of an engine. -/
inductive EngineMark
  | sessionEnded
  | groupOpened (g : GroupId)
  | groupReleased (g : GroupId)
  | released
  deriving DecidableEq, Repr

/-- An engine with a journal. -/
structure Journaled (σ : Type) where
  engine : σ
  journal : List EngineMark := []

namespace Journaled

variable {σ : Type}

/-- Put marks down. -/
def mark (marks : List EngineMark) (s : Journaled σ) : Journaled σ :=
  { s with journal := s.journal ++ marks }

/-- A call of the engine below. -/
def pass {α : Type} (m : EngineM σ α) : EngineM (Journaled σ) α := fun s =>
  ((m.call s.engine).1, { s with engine := (m.call s.engine).2 })

/-- A call of the engine below that is put down. -/
def note {α : Type} (marks : Except EngineError α → List EngineMark) (m : EngineM σ α) :
    EngineM (Journaled σ) α := fun s =>
  (((pass m).call s).1, ((pass m).call s).2.mark (marks ((pass m).call s).1))

/-- The marks of a call for a symbol group. -/
def groupMarks (previous : Option GroupId) (answer : Except EngineError GroupId) : List EngineMark :=
  previous.toList.map .groupReleased ++ answer.toOption.toList.map .groupOpened

instance [DataSpaces σ] : DataSpaces (Journaled σ) where
  typedData r := pass (DataSpaces.typedData r)
  typedText r data := pass (DataSpaces.typedText r data)
  fieldNames data := pass (DataSpaces.fieldNames data)
  typeName moduleBase typeId := pass (DataSpaces.typeName moduleBase typeId)
  readVirtual offset size := pass (DataSpaces.readVirtual offset size)
  readString offset maxLength := pass (DataSpaces.readString offset maxLength)
  writeVirtual offset bytes := pass (DataSpaces.writeVirtual offset bytes)

instance [Engine σ] : Engine (Journaled σ) where
  clearBreakpoints := pass Engine.clearBreakpoints
  createProcess commandLine := pass (Engine.createProcess commandLine)
  attachProcess pid := pass (Engine.attachProcess pid)
  endSession := note (fun _ => [.sessionEnded]) Engine.endSession
  waitForEvent := fun s =>
    ((Engine.waitForEvent.run s.engine).1, { s with engine := (Engine.waitForEvent.run s.engine).2 })
  interrupt s := { s with engine := Engine.interrupt s.engine }
  executionStatus := pass Engine.executionStatus
  setExecutionStatus s := pass (Engine.setExecutionStatus s)
  execute command := pass (Engine.execute command)
  applySettings s := pass (Engine.applySettings s)
  setSymbolPath path := pass (Engine.setSymbolPath path)
  setSourcePath path := pass (Engine.setSourcePath path)
  mainModuleName := pass Engine.mainModuleName
  reloadSymbols moduleName := pass (Engine.reloadSymbols moduleName)
  offsetByLine file line := pass (Engine.offsetByLine file line)
  lineByOffset offset := pass (Engine.lineByOffset offset)
  findSourceFile file := pass (Engine.findSourceFile file)
  nameByOffset offset := pass (Engine.nameByOffset offset)
  addCodeBreakpoint id offset := pass (Engine.addCodeBreakpoint id offset)
  removeBreakpoint id := pass (Engine.removeBreakpoint id)
  threadIds := pass Engine.threadIds
  currentThread := pass Engine.currentThread
  setCurrentThread thread := pass (Engine.setCurrentThread thread)
  currentProcess := pass Engine.currentProcess
  isPointer64 := pass Engine.isPointer64
  stackTrace maxFrames := pass (Engine.stackTrace maxFrames)
  currentFrameIndex := pass Engine.currentFrameIndex
  setFrameIndex index := pass (Engine.setFrameIndex index)
  scopeSymbolGroup kind previous :=
    note (groupMarks previous) (Engine.scopeSymbolGroup kind previous)
  groupCount g := pass (Engine.groupCount g)
  groupEntry g index := pass (Engine.groupEntry g index)
  releaseGroup g s := { s with engine := Engine.releaseGroup g s.engine }.mark [.groupReleased g]
  release s := { s with engine := Engine.release s.engine }.mark [.released]

variable [Engine σ]

/-- Ordinary calls are not put down. -/
theorem journal_of_ordinaryCall {α : Type} {m : EngineM (Journaled σ) α} (h : OrdinaryCall m)
    (s : Journaled σ) : (m.call s).2.journal = s.journal := by
  cases h with
  | data h => cases h <;> rfl
  | _ => rfl

/-- Calls on breakpoints are not put down. -/
theorem journal_of_breakpointCall {α : Type} {m : EngineM (Journaled σ) α} (h : BreakpointCall m)
    (s : Journaled σ) : (m.call s).2.journal = s.journal := by
  cases h <;> rfl

/-- Releasing groups is put down one by one. -/
theorem journal_foldl_releaseGroup (l : List GroupId) (s : Journaled σ) :
    (l.foldl (fun s g => Engine.releaseGroup g s) s).journal =
      s.journal ++ l.map .groupReleased := by
  induction l generalizing s with
  | nil => exact (List.append_nil _).symm
  | cons g l ih =>
    rw [List.foldl_cons, ih]
    simp [Engine.releaseGroup, mark]

end Journaled

namespace Worker

variable {σ : Type}

/-- The groups in the list of a worker. -/
def groupIds (w : Worker σ) : List GroupId :=
  w.groups.map (·.2.group)

/-- The journal accounts for the native session and for the symbol groups, with those in `held` besides
those in the worker's list. -/
structure Accounted (held : List GroupId) (w : Worker (Journaled σ)) : Prop where
  keys_nodup : (w.groups.map (·.1)).Nodup
  count_opened : ∀ g, w.session.engine.journal.count (.groupOpened g) =
    w.session.engine.journal.count (.groupReleased g) + w.groupIds.count g + held.count g
  count_ended : w.session.engine.journal.count .sessionEnded = if w.session.ended then 1 else 0
  not_released : .released ∉ w.session.engine.journal

/-- A new worker has opened and released nothing. -/
theorem accounted_new (engine : σ) (options : GatewayOptions) :
    (Gateway.new (⟨engine, []⟩ : Journaled σ) options).worker.Accounted [] where
  keys_nodup := .nil
  count_opened := fun _ => rfl
  count_ended := rfl
  not_released := nofun

namespace Accounted

variable {held : List GroupId} {w : Worker (Journaled σ)}

/-- Only the groups, the native session and the journal count. -/
theorem congr (h : w.Accounted held) {w' : Worker (Journaled σ)} (groups : w'.groups = w.groups)
    (ended : w'.session.ended = w.session.ended)
    (journal : w'.session.engine.journal = w.session.engine.journal) : w'.Accounted held where
  keys_nodup := groups ▸ h.keys_nodup
  count_opened := by
    rw [journal, groupIds, groups]
    exact h.count_opened
  count_ended := by
    rw [journal, ended]
    exact h.count_ended
  not_released := journal ▸ h.not_released

end Accounted

/-! ## Groups in lists -/

/-- Releasing a list of groups is noted once for each time a group is on it. -/
private theorem count_map_groupReleased (l : List GroupId) (g : GroupId) :
    (l.map EngineMark.groupReleased).count (.groupReleased g) = l.count g := by
  induction l with
  | nil => rfl
  | cons a l ih => simp [List.count_cons, ih]

/-- Releasing groups notes nothing but releases. -/
private theorem count_map_groupReleased_of_ne (l : List GroupId) {m : EngineMark}
    (h : ∀ g, m ≠ .groupReleased g) : (l.map EngineMark.groupReleased).count m = 0 := by
  rw [List.count_eq_zero, List.mem_map]
  rintro ⟨g, -, e⟩
  exact h g e.symm

/-- A group that the engine gives out is noted as opened. -/
private theorem count_groupOpened_groupMarks (previous : Option GroupId)
    (answer : Except EngineError GroupId) (g : GroupId) :
    (Journaled.groupMarks previous answer).count (.groupOpened g) =
      answer.toOption.toList.count g := by
  rw [Journaled.groupMarks, List.count_append, count_map_groupReleased_of_ne _ (by simp)]
  cases answer with
  | error e => rfl
  | ok g' => simp [Except.toOption, List.count_cons]

/-- A group that is handed back in exchange is noted as released. -/
private theorem count_groupReleased_groupMarks (previous : Option GroupId)
    (answer : Except EngineError GroupId) (g : GroupId) :
    (Journaled.groupMarks previous answer).count (.groupReleased g) =
      previous.toList.count g := by
  rw [Journaled.groupMarks, List.count_append, count_map_groupReleased]
  cases answer with
  | error e => rfl
  | ok g' => simp [Except.toOption]

/-- The groups that are kept, and those that are not, are all. -/
private theorem count_filter_add (l : List (GroupKey × CachedGroup)) (keep : GroupKey → Bool)
    (g : GroupId) :
    ((l.filter fun e => keep e.1).map (·.2.group)).count g +
      ((l.filter fun e => !keep e.1).map (·.2.group)).count g = (l.map (·.2.group)).count g := by
  -- on the list: each entry is on one side of the split
  induction l with
  | nil => rfl
  | cons e l ih =>
    cases he : keep e.1 with
    | true =>
      simp only [List.filter_cons, he, if_true, Bool.not_true, Bool.false_eq_true, if_false,
        List.map_cons, List.count_cons]
      omega
    | false =>
      simp only [List.filter_cons, he, if_true, Bool.not_false, Bool.false_eq_true, if_false,
        List.map_cons, List.count_cons]
      omega

/-- Under a key there is at most one group. -/
private theorem filter_eq_find? (l : List (GroupKey × CachedGroup)) (key : GroupKey)
    (nodup : (l.map (·.1)).Nodup) :
    l.filter (fun e => !(e.1 != key)) = (l.find? (·.1 == key)).toList := by
  induction l with
  | nil => rfl
  | cons e l ih =>
    obtain ⟨hnot, nodup⟩ := List.nodup_cons.1 nodup
    -- the keys are distinct, so behind the first entry under the key there is no other
    by_cases he : e.1 = key
    · have none : l.filter (fun e => !(e.1 != key)) = [] := by
        rw [List.filter_eq_nil_iff]
        intro e' he' hk
        have hk : e'.1 = key := by simpa using hk
        exact hnot (List.mem_map.2 ⟨e', he', hk.trans he.symm⟩)
      rw [List.filter_cons_of_pos (by simp [he]), none, List.find?_cons_of_pos (by simp [he])]
      rfl
    · rw [List.filter_cons_of_neg (by simp [he]), ih nodup, List.find?_cons_of_neg (by simp [he])]

variable [Engine σ]

/-! ## Work that is accounted for -/

/-- Dropping groups from the list keeps them accounted for, since they are released. -/
theorem Accounted.retainGroups {held : List GroupId} {w : Worker (Journaled σ)}
    (h : w.Accounted held) (keep : GroupKey → Bool) : (w.retainGroups keep).Accounted held := by
  rw [retainGroups_eq]
  exact
  { keys_nodup := h.keys_nodup.sublist (List.filter_sublist.map _)
    count_opened := by
      intro g
      have opened := h.count_opened g
      -- what is dropped from the list is released, so the sum stays
      have all := count_filter_add w.groups keep g
      rw [groupIds] at opened
      rw [Journaled.journal_foldl_releaseGroup, List.count_append, List.count_append,
        count_map_groupReleased, count_map_groupReleased_of_ne _ (by simp)]
      simp only [groupIds]
      omega
    count_ended := by
      rw [Journaled.journal_foldl_releaseGroup, List.count_append,
        count_map_groupReleased_of_ne _ (by simp)]
      exact h.count_ended
    not_released := by
      rw [Journaled.journal_foldl_releaseGroup, List.mem_append]
      -- a release is no end of the session
      rintro (hm | hm)
      · exact h.not_released hm
      · obtain ⟨g, -, e⟩ := List.mem_map.1 hm
        exact nomatch e }

/-- Being accounted for is kept by all the work on threads. -/
theorem accounted_frame (held : List GroupId) :
    ThreadFrame fun w : Worker (Journaled σ) => w.Accounted held where
  call := fun m w h => h.congr rfl rfl (Journaled.journal_of_ordinaryCall m w.session.engine)
  wait := fun _ h => h.congr rfl rfl rfl
  interrupt := fun _ h => h.congr rfl rfl rfl
  store := fun _ _ _ _ h => h.congr rfl rfl rfl
  anyStore := fun _ _ _ h => h.congr rfl rfl rfl
  retainGroups := fun _ keep h => h.retainGroups keep
  publish := fun _ _ _ h => h.congr rfl rfl rfl
  typeNames := fun _ _ h => h.congr rfl rfl rfl
  process := fun _ _ h => h.congr rfl rfl rfl
  resume := fun _ _ h => h.congr rfl rfl rfl
  knownThreads := fun _ _ h => h.congr rfl rfl rfl
  exited := fun _ _ h => h.congr rfl rfl rfl
  stalled := fun _ _ h => h.congr rfl rfl rfl

/-- Being accounted for is kept by the work on breakpoints. -/
theorem accounted_breakpointFrame :
    BreakpointFrame fun w : Worker (Journaled σ) => w.Accounted [] where
  call := (accounted_frame []).looking.call
  breakpointCall := fun m w h =>
    h.congr rfl rfl (Journaled.journal_of_breakpointCall m w.session.engine)
  breakpoints := fun _ _ h => h.congr rfl rfl rfl

/-- While the variables of a scope are looked up, the group for them is not in the list. -/
def AccountedBeside (key : GroupKey) (g : Option GroupId) (w : Worker (Journaled σ)) : Prop :=
  w.Accounted g.toList ∧ key ∉ w.groups.map (·.1)

/-- A group beside the list stays accounted for while the store is changed. -/
private theorem accountedBeside_frame (key : GroupKey) (g : Option GroupId) :
    StoreFrame (AccountedBeside (σ := σ) key g) :=
  have F := (accounted_frame (σ := σ) g.toList).toFrame
  { call := fun m w h => ⟨F.looking.call m w h.1, h.2⟩
    store := fun w op on legal h => ⟨F.store w op on legal h.1, h.2⟩
    typeNames := fun w t h => ⟨F.typeNames w t h.1, h.2⟩ }

omit [Engine σ] in
/-- A group that is taken out of the list is held beside it. -/
private theorem accounted_take (key : GroupKey) :
    Ensures (fun w : Worker (Journaled σ) => w.Accounted []) (takeGroup? key) fun previous =>
      AccountedBeside key (previous.map (·.group)) := by
  intro w h
  have all := count_filter_add w.groups (· != key)
  rw [filter_eq_find? w.groups key h.keys_nodup] at all
  have run : (takeGroup? key).run w = ((w.groups.find? (·.1 == key)).map (·.2),
      { w with groups := w.groups.filter (·.1 != key) }) := rfl
  -- what is taken is what the list loses
  have taken : ∀ g, ((w.groups.find? (·.1 == key)).toList.map (·.2.group)).count g =
      (((w.groups.find? (·.1 == key)).map (·.2)).map (·.group)).toList.count g := by
    intro g
    cases w.groups.find? (·.1 == key) <;> rfl
  rw [run]
  refine ⟨?_, ?_⟩
  · exact
    { keys_nodup := h.keys_nodup.sublist (List.filter_sublist.map _)
      count_opened := by
        intro g
        have opened := h.count_opened g
        have all := all g
        have taken := taken g
        rw [groupIds] at opened
        simp only [List.count_nil, Nat.add_zero] at opened
        simp only [groupIds]
        omega
      count_ended := h.count_ended
      not_released := h.not_released }
  · -- no entry of this key is left
    intro hk
    obtain ⟨e, he, rfl⟩ := List.mem_map.1 hk
    simpa using (List.mem_filter.1 he).2

omit [Engine σ] in
/-- A call for symbols that has been answered: the journal says that the previous group is released,
whatever the answer is, and that the group of the answer is handed out. -/
private theorem Accounted.of_groupMarks {previous : Option GroupId} {w : Worker (Journaled σ)}
    (h : w.Accounted previous.toList) (w' : Worker (Journaled σ)) (answer : Except EngineError GroupId)
    (groups : w'.groups = w.groups) (ended : w'.session.ended = w.session.ended)
    (journal : w'.session.engine.journal =
      w.session.engine.journal ++ Journaled.groupMarks previous answer) :
    w'.Accounted answer.toOption.toList where
  keys_nodup := groups ▸ h.keys_nodup
  count_opened := by
    intro g
    -- one release for what was held beside the list, one opening for what is held there now
    have opened := h.count_opened g
    rw [groupIds] at opened
    rw [journal, groupIds, groups, List.count_append, List.count_append,
      count_groupOpened_groupMarks, count_groupReleased_groupMarks]
    omega
  count_ended := by
    have none : (Journaled.groupMarks previous answer).count .sessionEnded = 0 :=
      List.count_eq_zero.2 (by simp [Journaled.groupMarks])
    rw [journal, ended, List.count_append, none]
    exact h.count_ended
  not_released := by
    rw [journal]
    simp [Journaled.groupMarks, h.not_released]

/-- Exchanging the group beside the list keeps it accounted for; if the engine refuses, none is held there any
more. -/
private theorem accounted_replace (key : GroupKey) (kind : ScopeKind) (previous : Option GroupId) :
    Ensures (AccountedBeside (σ := σ) key previous)
      (ask? (Engine.scopeSymbolGroup kind previous)) fun
        | none => fun w => w.Accounted []
        | some g => AccountedBeside key (some g) := by
  rintro w ⟨h, free⟩
  have accounted := h.of_groupMarks ((ask? (Engine.scopeSymbolGroup kind previous)).run w).2
    ((Engine.scopeSymbolGroup kind previous).call w.session.engine.engine).1 rfl rfl rfl
  have answer : ((ask? (Engine.scopeSymbolGroup kind previous)).run w).1 =
      ((Engine.scopeSymbolGroup kind previous).call w.session.engine.engine).1.toOption := rfl
  rw [answer]
  -- the group handed in is gone in either case
  cases given : ((Engine.scopeSymbolGroup kind previous).call w.session.engine.engine).1 with
  | error e =>
    rw [given] at accounted
    exact accounted
  | ok g =>
    rw [given] at accounted
    exact ⟨accounted, free⟩

omit [Engine σ] in
/-- A group that was held beside the list is put into it, under a key that is free. -/
private theorem accounted_put (key : GroupKey) (g : GroupId) (count : UInt32) :
    Ensures (AccountedBeside (σ := σ) key (some g)) (putGroup key ⟨g, count⟩) fun _ w =>
      w.Accounted [] := by
  rintro w ⟨h, free⟩
  have run : (putGroup key ⟨g, count⟩).run w =
      ((), { w with groups := (key, ⟨g, count⟩) :: w.groups }) := rfl
  rw [run]
  exact
  { keys_nodup := List.nodup_cons.2 ⟨free, h.keys_nodup⟩
    count_opened := by
      -- the group moves from beside the list onto it
      intro g'
      have opened := h.count_opened g'
      rw [groupIds] at opened
      simp only [Option.toList_some, List.count_singleton] at opened
      simp only [groupIds, List.map_cons, List.count_cons, List.count_nil]
      omega
    count_ended := h.count_ended
    not_released := h.not_released }

/-- Being accounted for is kept while a group is taken out and put back. -/
theorem accounted_groupFrame :
    GroupFrame (fun w : Worker (Journaled σ) => w.Accounted []) AccountedBeside where
  frame := accountedBeside_frame
  take := accounted_take
  replace := accounted_replace
  put := accounted_put

/-- Every command but the one to terminate. -/
theorem accounted_execute {c : Command} (hc : c ≠ .terminate) :
    Keeps (fun w : Worker (Journaled σ) => w.Accounted []) (execute c) :=
  (accounted_frame []).commands.execute accounted_groupFrame accounted_breakpointFrame.setBreakpoints hc

/-! ## The end -/

/-- Finishing a session is noted, unless it has ended already. -/
private theorem journal_finish (s : EngineSession (Journaled σ)) :
    s.finish.2.engine.journal = s.engine.journal ++ if s.ended then [] else [.sessionEnded] := by
  unfold EngineSession.finish
  split
  · exact (List.append_nil _).symm
  · rfl

/-- The native session is ended, unless that was done before. -/
theorem Accounted.finish {w : Worker (Journaled σ)} (h : w.Accounted []) :
    ({ w with session := w.session.finish.2 } : Worker (Journaled σ)).Accounted [] where
  keys_nodup := h.keys_nodup
  count_opened := by
    intro g
    have opened := h.count_opened g
    rw [journal_finish, List.count_append, List.count_append]
    split <;> simpa [groupIds] using opened
  count_ended := by
    -- the end is noted once, and a session that has ended is not finished again
    have before := h.count_ended
    rw [journal_finish, List.count_append, before, EngineSession.ended_finish]
    split <;> rfl
  not_released := by
    rw [journal_finish]
    split <;> simp [h.not_released]

/-- Terminating keeps the groups accounted for: all of them are released. -/
theorem Accounted.terminate {w : Worker (Journaled σ)} (h : w.Accounted []) :
    (Worker.terminate.run w).2.Accounted [] := by
  -- terminating ends the native session and then empties the list
  have cleared := h.finish.retainGroups fun _ => false
  rw [← clearGroups, clearGroups_eq] at cleared
  rw [terminate_eq]
  exact cleared.congr rfl rfl rfl

/-- What a journal says when the engine was let go: that is the last mark, the native session was ended
once, and each group that was handed out was released. -/
theorem journal_release {w : Worker (Journaled σ)} (h : w.Accounted []) :
    ∃ before, w.release.session.engine.journal = before ++ [.released] ∧
      .released ∉ before ∧ before.count .sessionEnded = 1 ∧
      ∀ g, before.count (.groupOpened g) = before.count (.groupReleased g) := by
  have closed := (h.retainGroups fun _ => false).finish
  rw [← clearGroups] at closed
  -- before the last mark the list is emptied and the native session ended
  refine ⟨w.clearGroups.session.finish.2.engine.journal, rfl, closed.not_released, ?_, fun g => ?_⟩
  · have ended := closed.count_ended
    rwa [EngineSession.ended_finish, if_pos rfl] at ended
  · have opened := closed.count_opened g
    have none : w.clearGroups.groups = [] := by rw [clearGroups_eq]
    simpa [groupIds, none] using opened

end Worker

end DebugAdapter
