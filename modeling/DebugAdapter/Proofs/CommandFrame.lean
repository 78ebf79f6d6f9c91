import DebugAdapter.Proofs.WorkerFrame

/-!
# What commands leave as it is

Every command but the one to terminate keeps what the changes of a worker keep.

## Key results

- `Worker.GroupFrame.execute`: the commands that do not touch the list of threads
- `Worker.ListingFrame.execute`: the commands that inspect
- `Worker.CommandFrame.execute`: these, and those that start a debuggee or let it run
-/

namespace DebugAdapter

/-- The command may add or remove threads of the store. -/
def Command.OnThreads : Command → Prop
  | .launch _ | .attach _ | .continue | .step .. | .terminate | .threads | .stackTrace _ => True
  | _ => False

/-- A command that looks at the debuggee, and neither starts, resumes nor ends it. -/
def Command.inspects : Command → Bool
  | .launch _ | .attach _ | .continue | .step .. | .terminate => false
  | _ => true

namespace Worker

variable {σ : Type} [Engine σ] {I : Worker σ → Prop}

/-! ## Looking at what is shown -/

/-- Presenting a value only reads. -/
theorem keeps_present {J : Memory σ → Prop} (G : Memory.ReadFrame J) (v : NamedValue) :
    Keeps J (present v) :=
  (G.resolve v).bind fun _ => .pure _

namespace LookingFrame

variable (F : LookingFrame I)
include F

/-- Describing a stack frame keeps what a frame keeps. -/
theorem describeFrame (f : NativeFrame) : Keeps I (Worker.describeFrame f) := by
  refine Keeps.bind ?_ fun source => (F.ask? (.nameByOffset _)).bind fun name => .pure _
  refine (F.ask? (.lineByOffset f.instructionOffset)).bind fun source => ?_
  split
  · exact .pure _
  · exact (F.ask? (.findSourceFile _)).bind fun file => .pure _

/-- Describing a symbol keeps what a frame keeps. -/
theorem describeSymbol (group : GroupId) (index : UInt32) :
    Keeps I (Worker.describeSymbol (σ := σ) group index) := by
  refine (F.ask? (.groupEntry group index)).bind fun entry => ?_
  split
  · exact .pure _
  · refine .ite (fun _ => .pure _) fun _ => F.inMemory fun G => ?_
    refine (G.reading.create _ _ _).bind fun data => ?_
    -- the type name is asked for only if the entry has none
    refine .ite (fun _ => (G.reading.typeName data).bind fun typeName => ?_)
      fun _ => (Keeps.pure _).bind fun typeName => ?_
    all_goals
      refine .ite (fun _ => .pure _) fun _ => ?_
      exact (keeps_present G.reading _).bind fun _ => .pure _

/-- Describing a value keeps what a frame keeps. -/
theorem describeValue (v : NamedValue) :
    Keeps I (some <$> Worker.inMemory (σ := σ) (present v)) :=
  (F.inMemory fun G => keeps_present G.reading v).map _

end LookingFrame

/-! ## Breakpoints -/

namespace BreakpointFrame

variable (F : BreakpointFrame I)
include F

/-- Changing the engine's breakpoints keeps what a frame for breakpoints keeps. -/
theorem change? {α : Type} {m : EngineM σ α} (h : BreakpointCall m) : Keeps I (Worker.ask? m) :=
  Keeps.bind (fun w hw => F.breakpointCall h w hw) fun _ => .pure _

/-- Adding a breakpoint keeps what a frame for breakpoints keeps. -/
theorem addBreakpoint (b : Breakpoint) : Keeps I (Worker.addBreakpoint b) := by
  refine (F.ask? (.offsetByLine b.file b.line)).bind fun offset => ?_
  split
  · exact .pure _
  · refine Keeps.get.bind fun w => ?_
    refine (Keeps.modify fun w hw => F.breakpoints w _ hw).bind fun _ => ?_
    refine (F.change? (.addCodeBreakpoint _ _)).bind fun added => ?_
    split
    · exact .pure _
    · exact (Keeps.modify fun w hw => F.breakpoints w _ hw).bind fun _ => .pure _

/-- Replacing the breakpoints of a file keeps what a frame for breakpoints keeps. -/
theorem setBreakpoints (file : String) (lines : List UInt32) :
    Keeps I (Worker.setBreakpoints file lines) := by
  refine Keeps.get.bind fun w => ?_
  refine (Keeps.modify fun w hw => F.breakpoints w _ hw).bind fun _ => ?_
  refine (Keeps.forIn (fun id _ => ?_) _ _).bind fun _ => .mapM (fun line => ?_) lines
  · exact (F.change? (.removeBreakpoint id)).bind fun _ => .pure _
  · exact (F.addBreakpoint _).bind fun _ => .pure _

end BreakpointFrame

/-! ## Frames and scopes -/

omit [Engine σ] in
/-- A frame that is found is stored. -/
private theorem mem_of_frameAt? {s : Store} {frame : Handle} {f : DebugAdapter.Frame}
    (h : s.frameAt? frame = some f) : frame ∈ s.handlesOf .frame := by
  obtain ⟨r, hr, -⟩ := Option.map_eq_some_iff.1 h
  exact Table.mem_keys_iff.2 ⟨r, hr⟩

/-- Selecting a stack frame keeps what choices keep; it becomes the current one only while it is stored. -/
theorem ChoosingFrame.selectFrame (F : ChoosingFrame I) (frame : Handle) :
    Keeps I (Worker.selectFrame frame).run := by
  -- the frame is in the store until it is made the current one
  let Live := fun w : Worker σ => I w ∧ frame ∈ w.store.handlesOf .frame
  have live : SelectingFrame Live :=
    { call := fun h w hw => ⟨F.call h w hw.1, hw.2⟩
      choose := fun w thread hw => ⟨F.choose w thread hw.1, hw.2⟩ }
  refine Keeps.of_ensures ?_
  refine Ensures.bindExcept (R := fun r w => I w ∧ r = .ok w) (fun w hw => ⟨hw, rfl⟩) (fun w₀ => ?_)
    fun _ _ h => h.1
  dsimp only
  split
  · next f t hf _ =>
    -- the frame is noted in the store, which needs that it is still there
    have finish : Ensures Live (do
        ExceptT.lift (modifyStore (·.setCurrentFrame frame))
        return some (t.systemId, f.order) :
        ExceptT EngineError (WorkerM σ) (Option (UInt32 × UInt32))).run fun _ => I :=
      fun w hw => F.chooseFrame w frame hw.2 hw.1
    refine Ensures.mono (P := Live) (Q := fun _ => I) ?_ (fun w hw => ?_) fun _ _ h => h
    · -- the frame of the engine is set only if it is another one
      refine (Ensures.of_keeps (live.selectThread _)).bindExcept (fun _ => ?_) fun _ _ h => h.1
      refine (Ensures.of_keeps (live.require .currentFrameIndex)).bindExcept (fun index => ?_)
        fun _ _ h => h.1
      refine .iteExcept (fun _ => ?_) fun _ => finish
      exact (Ensures.of_keeps (live.require (.setFrameIndex _))).bindExcept (fun _ => finish)
        fun _ _ h => h.1
    · obtain ⟨hw, e⟩ := hw
      cases e
      exact ⟨hw, mem_of_frameAt? hf⟩
  · exact .pure fun w hw => hw.1

omit [Engine σ] in
/-- What is registered is looked up before. -/
theorem keeps_registerAll {α β : Type} {parent : Handle} {toEntity : β → Entity}
    {describe : α → WorkerM σ (Option β)} (looked : ∀ a, Keeps I (describe a))
    (added : ∀ b, Keeps I (Worker.register (σ := σ) parent (toEntity b))) (elements : List α) :
    Keeps I (Worker.registerAll parent toEntity describe elements) := by
  refine (Keeps.mapM (fun a => ?_) elements).bind fun _ => .pure _
  refine (looked a).bind fun found => ?_
  split
  · exact .pure _
  · exact (added _).bind fun _ => .pure _

namespace ShowingFrame

variable (F : ShowingFrame I)
include F

/-- Finding or making the scope of a kind keeps what additions keep. -/
theorem scopeOfKind (frame : Handle) (kind : ScopeKind) :
    Keeps I (Worker.scopeOfKind (σ := σ) frame kind) := by
  refine Keeps.get.bind fun w => ?_
  split
  · exact .pure _
  · exact (F.registerScope frame _).bind fun _ => .pure _

/-- Listing the scopes of a frame keeps what additions keep. -/
theorem scopes (frame : Handle) : Keeps I (Worker.scopes (σ := σ) frame) := by
  refine Keeps.get.bind fun w => .ite (fun _ => .pure _) fun _ => ?_
  refine (F.selectFrame frame).bind fun selected => ?_
  split
  · exact .pure _
  · exact (Keeps.mapM (F.scopeOfKind frame) _).bind fun _ => .pure _

/-! ## Variables and values -/

/-- Listing the symbols of a group keeps what additions keep. -/
theorem materialize (scope : Handle) (group : GroupId) (count : UInt32) :
    Keeps I (Worker.materialize (σ := σ) scope group count) :=
  keeps_registerAll (F.describeSymbol group) (F.registerVariable scope) _

/-- Listing the children of a variable keeps what additions keep. -/
theorem expand (holder : Registered Variable) : Keeps I (Worker.expand (σ := σ) holder) := by
  refine Keeps.get.bind fun w => .ite (fun _ => .pure _) fun _ => ?_
  refine (F.inMemory fun G => G.reading.children _).bind fun children => ?_
  exact keeps_registerAll F.describeValue (F.registerVariable _) children

/-- Evaluating an expression, in a frame or in none, keeps what additions keep. -/
theorem evaluate (expression : String) (frame : Option Handle) :
    Keeps I (Worker.evaluate (σ := σ) expression frame) := by
  refine Keeps.get.bind fun w => ?_
  dsimp only
  generalize (frame <|> w.store.currentFrame).filter (fun f => (w.store.frameAt? f).isSome) = frame
  cases frame
  case' some f => refine (F.selectFrame f).bind fun _ => ?_
  -- what is done when the frame is selected, if there is one
  all_goals
    refine Keeps.bind (F.inMemory fun G => ?_) fun found => ?_
    · refine (G.reading.evaluate expression).bind fun data => .ite (fun _ => .pure _) fun _ => ?_
      refine (G.reading.named expression data).bind fun v => ?_
      exact (keeps_present G.reading v).bind fun _ => .pure _
  · cases found with
    | none => exact .pure _
    | some shown =>
      exact .ite (fun _ => (F.registerVariable _ _).bind fun _ => .pure _)
        fun _ => (Keeps.pure _).bind fun _ => .pure _
  · cases found <;> exact .pure _

end ShowingFrame

namespace AddingFrame

variable (F : AddingFrame I)
include F

/-- Registering described elements keeps what is kept at each of them. -/
theorem registerAll {α β : Type} (parent : Handle) (toEntity : β → Entity)
    {describe : α → WorkerM σ (Option β)} (h : ∀ a, Keeps I (describe a)) (elements : List α) :
    Keeps I (Worker.registerAll parent toEntity describe elements) :=
  keeps_registerAll h (fun _ => F.register parent _) elements

/-- Listing the scopes keeps what any addition keeps. -/
theorem scopes (frame : Handle) : Keeps I (Worker.scopes (σ := σ) frame) :=
  F.showing.scopes frame

/-- Listing the symbols keeps what any addition keeps. -/
theorem materialize (scope : Handle) (group : GroupId) (count : UInt32) :
    Keeps I (Worker.materialize (σ := σ) scope group count) :=
  F.showing.materialize scope group count

/-- Listing the children keeps what any addition keeps. -/
theorem expand (holder : Registered Variable) : Keeps I (Worker.expand (σ := σ) holder) :=
  F.showing.expand holder

/-- Evaluating keeps what any addition keeps. -/
theorem evaluate (expression : String) (frame : Option Handle) :
    Keeps I (Worker.evaluate (σ := σ) expression frame) :=
  F.showing.evaluate expression frame

end AddingFrame

/-- Overwriting a value keeps what reading and writing the memory keep. -/
theorem keeps_overwrite {J : Memory σ → Prop} (G : Memory.Frame J)
    (target : Variable) (value : String) : Keeps J (overwrite target value).run := by
  have refused : ∀ {α β : Type} (e : ValueFailure) (f : α → ExceptT ValueFailure (MemoryM σ) β),
      Keeps J ((throw e : ExceptT ValueFailure (MemoryM σ) α) >>= f).run := by
    intro α β e f
    exact fun _ h => h
  refine (G.reading.evaluate value).lift.bindExcept fun new => ?_
  refine .iteExcept (fun _ => refused _ _) fun _ => .iteExcept (fun _ => refused _ _) fun _ => ?_
  refine (G.writeBytes _ _).lift.bindExcept fun written => ?_
  refine .iteExcept (fun _ => refused _ _) fun _ => ?_
  refine (G.reading.create _ _ _).lift.bindExcept fun refreshed => ?_
  exact (keeps_present G.reading _).lift

/-- Setting a variable keeps what changes of the store keep: its children are removed and it is edited. -/
theorem StoreFrame.setVariable (F : StoreFrame I) (holder : Handle) (name value : String) :
    Keeps I (Worker.setVariable (σ := σ) holder name value) := by
  refine Keeps.get.bind fun w => ?_
  split
  · exact .pure _
  · next target _ =>
    refine Keeps.get.bind fun w => (F.adding.selectFrame _).bind fun _ => ?_
    refine (F.inMemory fun G => keeps_overwrite G target.content value).bind fun result => ?_
    split
    · exact .pure _
    · next shown =>
      refine (Keeps.modify fun w hw => ?_).bind fun _ => .pure _
      have removed := F.store w (.removeChildren target.handle) id trivial hw
      exact F.store _ (.updateVariable target.handle fun _ => shown) id trivial removed

/-! ## Symbol groups -/

variable {J : GroupKey → Option GroupId → Worker σ → Prop}

/-- What holds but while a symbol group is in use is kept when the variables of a scope are shown, if what
holds meanwhile is kept as well. -/
theorem keeps_scopeVariables (scope : Registered Scope)
    (selected : ∀ frame, Keeps I (Worker.selectFrame (σ := σ) frame).run)
    (take : ∀ key, Ensures I (takeGroup? key) fun previous => J key (previous.map (·.group)))
    (replace : ∀ key previous,
      Ensures (J key previous) (ask? (Engine.scopeSymbolGroup scope.content.kind previous)) fun
        | none => I
        | some g => J key (some g))
    (put : ∀ key g count, Ensures (J key (some g)) (putGroup key ⟨g, count⟩) fun _ => I)
    (counted : ∀ key g, Keeps (J key (some g)) (ask? (Engine.groupCount g)))
    (removed : ∀ key g, Keeps (J key (some g)) (modifyStore (·.removeChildren scope.handle)))
    (shown : ∀ key g count, Keeps (J key (some g)) (materialize scope.handle g count)) :
    Keeps I (Worker.scopeVariables scope) := by
  refine Keeps.get.bind fun w => (selected _).bind fun answer => ?_
  split
  · exact .pure _
  · exact .pure _
  · next thread order =>
    -- from here the group is held beside the list, until it is put back
    refine Keeps.of_ensures ((take _).bind fun previous => (replace _ _).bind fun group => ?_)
    cases group with
    | none => exact .pure fun _ h => h
    | some group =>
      let key : GroupKey := ⟨thread, order, scope.content.kind⟩
      have put : ∀ count (found : List (Registered Variable)),
          Ensures (J key (some group)) (do putGroup key ⟨group, count⟩; return found) fun _ => I :=
        fun count found => (put key group count).bind fun _ => .pure fun _ h => h
      refine (Ensures.of_keeps (counted key group)).bind fun count => ?_
      refine (Ensures.of_keeps Keeps.get).bind fun w' => ?_
      refine .ite (fun _ => ?_) fun _ => ?_
      · -- the variables that are known are given again, or all are shown anew
        exact (Ensures.of_keeps (.pure _)).bind fun known => put _ known
      · refine (Ensures.of_keeps (removed key group)).bind fun _ => ?_
        exact (Ensures.of_keeps (shown key group _)).bind fun found => put _ found

/-- Listing the variables of a scope keeps what is kept while its group is taken out and put back. -/
theorem GroupFrame.scopeVariables (F : StoreFrame I) (G : GroupFrame I J)
    (scope : Registered Scope) : Keeps I (Worker.scopeVariables scope) := by
  refine keeps_scopeVariables scope F.adding.selectFrame G.take (fun key => G.replace key _) G.put
    (fun key g => (G.frame key (some g)).ask? (.groupCount g)) (fun key g => ?_)
    fun key g => (G.frame key (some g)).adding.materialize scope.handle g
  exact .modify fun w hw => (G.frame key (some g)).store w (.removeChildren scope.handle) id trivial hw

/-- Listing the variables below a reference keeps it for scopes and for variables. -/
theorem GroupFrame.variablesBelow (F : StoreFrame I) (G : GroupFrame I J) (reference : Handle) :
    Keeps I (Worker.variablesBelow (σ := σ) reference) := by
  refine Keeps.get.bind fun w => ?_
  split
  · exact G.scopeVariables F _
  · exact F.adding.expand _
  · exact .pure _

/-! ## Commands -/

/-- A command that does not touch the list of threads. What setting breakpoints keeps is a matter of
its own. -/
theorem GroupFrame.execute (F : StoreFrame I) (G : GroupFrame I J)
    (set : ∀ file lines, Keeps I (Worker.setBreakpoints (σ := σ) file lines)) {c : Command}
    (hc : ¬c.OnThreads) : Keeps I (Worker.execute c) := by
  cases c with
  | pause => exact .pure _
  | setBreakpoints file lines => exact (set file lines).bind fun _ => .pure _
  | scopes frame => exact (F.adding.scopes frame).bind fun _ => .pure _
  | «variables» reference => exact (G.variablesBelow F reference).bind fun _ => .pure _
  | setVariable reference name value =>
    exact (F.setVariable reference name value).bind fun _ => .pure _
  | evaluate expression frame => exact (F.adding.evaluate expression frame).bind fun _ => .pure _
  | processInfo => exact Keeps.get.bind fun _ => .pure _
  | _ => exact absurd trivial hc

/-! ## The list of threads -/

namespace ThreadAddingFrame

variable (F : ThreadAddingFrame I)
include F

/-- Making a thread known keeps what adding threads keeps. -/
theorem keeps_addThread (thread : UInt32) :
    Keeps I (withStore (σ := σ) (·.addThread thread (threadName thread))) :=
  .modifyGet fun w hw => F.addThread w thread _ hw

/-- Reading a stack keeps what adding threads and frames keeps. -/
theorem stackTrace (thread : UInt32) : Keeps I (Worker.stackTrace thread) := by
  refine (F.selectThread thread).bind fun selected => ?_
  cases selected with
  | error e => exact .pure _
  | ok a =>
    refine (F.keeps_addThread thread).bind fun holder => Keeps.get.bind fun w => ?_
    refine .ite (fun _ => .pure _) fun _ => Keeps.get.bind fun w' => ?_
    refine (F.ask? (.stackTrace _)).bind fun frames => ?_
    cases frames with
    | none => exact .pure _
    | some frames =>
      exact F.registerAll holder .frame (fun f => (F.describeFrame f).map _) frames

end ThreadAddingFrame

namespace ListingFrame

variable (F : ListingFrame I)
include F

/-- Clearing the store is one of its changes. -/
theorem clearStore : Keeps I (modifyStore (σ := σ) Store.clear) :=
  .modify fun w hw => F.anyStore w .clear trivial hw

/-- Listing the threads keeps what changes of the store keep. -/
theorem threads : Keeps I (Worker.threads (σ := σ)) := by
  refine (F.ask? .threadIds).bind fun ids => ?_
  cases ids with
  | none => exact .pure _
  | some ids =>
    refine (Keeps.modify fun w hw => F.anyStore w (.retainThreads ids) trivial hw).bind fun _ => ?_
    refine (Keeps.forIn (fun id _ => ?_) ids _).bind fun _ => Keeps.get.bind fun _ => .pure _
    exact (F.threadAdding.keeps_addThread id).bind fun _ => .pure _

/-- A command that inspects. -/
theorem execute (G : GroupFrame I J)
    (set : ∀ file lines, Keeps I (Worker.setBreakpoints (σ := σ) file lines)) {c : Command}
    (hc : c.inspects = true) : Keeps I (Worker.execute c) := by
  cases c with
  | threads => exact F.threads.bind fun _ => .pure _
  | stackTrace thread => exact (F.threadAdding.stackTrace thread).bind fun _ => .pure _
  | launch | attach | «continue» | step | terminate => cases hc
  | _ => exact G.execute F.storing set id

end ListingFrame

namespace CommandFrame

variable (F : CommandFrame I)
include F

/-- An ordinary call keeps what a frame for commands keeps. -/
theorem ask {α : Type} {m : EngineM σ α} (h : OrdinaryCall m) : Keeps I (Worker.ask m) :=
  F.ordinary h

/-- Launching a debuggee keeps what a frame for commands keeps. -/
theorem launch (r : LaunchRequest) : Keeps I (Worker.launch r) := by
  refine F.clearStore.bind fun _ => (F.ask (.createProcess _)).bind fun answer => ?_
  cases answer with
  | ok a => exact .pure _
  | error e => exact .pure _

/-- Attaching to a process keeps what a frame for commands keeps. -/
theorem attach (r : AttachRequest) : Keeps I (Worker.attach r) := by
  refine F.clearStore.bind fun _ => (F.ask (.attachProcess _)).bind fun answer => ?_
  cases answer with
  | ok a => exact .pure _
  | error e => exact .pure _

/-- Resuming, in whatever way, keeps what a frame for commands keeps. -/
theorem resumeBy (how : Resume) (failure : EngineError → ExecutionFailure) {m : EngineM σ Unit}
    (hm : OrdinaryCall m) : Keeps I (Worker.resumeBy how failure m) := by
  refine F.clearStore.bind fun _ => (F.ask hm).bind fun answer => ?_
  cases answer with
  | ok a =>
    exact (Keeps.modify fun w hw => F.resumed w how hw).bind fun _ => .pure _
  | error e => exact .pure _

omit F in
/-- A step of either kind is an ordinary call. -/
private theorem ordinary_stepCall (kind : StepKind) : OrdinaryCall (stepCall (σ := σ) kind) := by
  match kind with
  | .into | .over => exact .setExecutionStatus _
  | .out => exact .execute _

/-- Stepping keeps what a frame for commands keeps. -/
theorem step (kind : StepKind) (thread : Option UInt32) : Keeps I (Worker.step kind thread) := by
  have stepped := F.resumeBy .stepped .stepping (ordinary_stepCall kind)
  cases thread with
  | none => exact stepped
  | some id =>
    refine (F.storing.adding.selectThread id).bind fun selected => ?_
    cases selected with
    | error e => exact .pure _
    | ok a => exact stepped

/-- Every command but the one to terminate. -/
theorem execute (G : GroupFrame I J)
    (set : ∀ file lines, Keeps I (Worker.setBreakpoints (σ := σ) file lines)) {c : Command}
    (hc : c ≠ .terminate) : Keeps I (Worker.execute c) := by
  cases c with
  | launch r => exact (F.launch r).bind fun _ => .pure _
  | attach r => exact (F.attach r).bind fun _ => .pure _
  | «continue» =>
    exact (F.resumeBy .continued .continuing (.setExecutionStatus .go)).bind fun _ => .pure _
  | step kind thread => exact (F.step kind thread).bind fun _ => .pure _
  | terminate => exact absurd rfl hc
  | _ => exact F.toListingFrame.execute G set rfl

end CommandFrame

end Worker

end DebugAdapter
