import DebugAdapter.Proofs.FrameSelection
import DebugAdapter.Proofs.SteadyRendering

/-!
# Setting a variable

To set a variable is to write the value of an expression over its bytes, as many as it has but at most
eight, and to look at it anew. What was shown below it was decoded from the old value, and is forgotten.
The memory is seen through a `MemoryView`.

## Key results

- `Observed.run_assigns`: what becomes of the memory and of all that is stored when a variable is set
-/

namespace DebugAdapter

namespace Worker

variable {σ : Type} [Engine σ] {V : MemoryView σ}

/-! ## Writing a value -/

/-- What is shown for a variable when it is decoded anew where it is stored. -/
def lookAnew (v : Variable) : MemoryM σ Variable := do
  let data ← Memory.create v.origin.data.moduleBase v.origin.data.offset v.origin.data.typeId
  present ⟨v.name, v.typeName, data⟩

/-- The bytes of a value in a variable: as many as the variable has but at most 8, the lowest ones of the
value's word, least significant byte first. -/
def bytesFor (target : Variable) (new : TypedData) : List UInt8 :=
  littleEndianBytes (min target.origin.data.size.toNat 8) new.word.toNat

/-- The engine gives a value for an expression. -/
def HasValue (s : σ) (expression : String) (new : TypedData) : Prop :=
  ((DataSpaces.typedData (.evaluate expression)).call s).1 = .ok new ∧ new.isNone = false

/-- In `s`, fewer bytes are written for an expression into a variable than there are, `n`, as the engine
tells. -/
def WritesShort (s : σ) (target : Variable) (expression : String) (new : TypedData) (n : UInt32) : Prop :=
  HasValue s expression new ∧ n.toNat < (bytesFor target new).length ∧
    ((DataSpaces.writeVirtual target.origin.data.offset (bytesFor target new)).call
      ((DataSpaces.typedData (.evaluate expression)).call s).2).1 = .ok n

/-- What comes of writing the value of an expression into a variable. -/
private def Overwrites (V : MemoryView σ) (target : Variable) (expression : String) (mem₀ : Memory σ) :
    Except ValueFailure Variable → Memory σ → Prop
  | .ok shown, mem =>
    target.origin.data.size ≠ 0 ∧ target.origin.data.offset ≠ 0 ∧
      (∃ new, HasValue mem₀.engine expression new ∧ V.bytes mem.engine =
        overlay (bytesFor target new) target.origin.data.offset (V.bytes mem₀.engine)) ∧
      ∀ typeNames, ((lookAnew target).run ⟨mem.engine, typeNames, mem₀.pointerSize⟩).1 = shown
  | .error f, mem =>
    V.bytes mem.engine = V.bytes mem₀.engine ∨
      ∃ new n, f = .notWritten target.name ∧ WritesShort mem₀.engine target expression new n ∧
        V.bytes mem.engine =
          overlay ((bytesFor target new).take n.toNat) target.origin.data.offset (V.bytes mem₀.engine)

/-- The engine answers the same as long as it is only asked to read, so a variable that is looked at again
shows the same. -/
private theorem lookAnew_again (law : V.Lawful) (target : Variable) (mem : Memory σ) :
    V.bytes ((lookAnew target).run mem).2.engine = V.bytes mem.engine ∧
      ∀ typeNames, ((lookAnew target).run
        ⟨((lookAnew target).run mem).2.engine, typeNames, mem.pointerSize⟩).1 =
        ((lookAnew target).run mem).1 := by
  constructor
  · have F : Memory.ReadFrame fun mem' : Memory σ => V.bytes mem'.engine = V.bytes mem.engine :=
      { call := fun h mem' same => (law.read h _).trans same
        typeNames := fun _ _ same => same }
    exact (F.create _ _ _).bind (fun _ => keeps_present F _) mem rfl
  · -- a look does not depend on the names that are cached
    intro typeNames
    obtain ⟨P, here, same⟩ := law.readsSame mem.engine
    have settled : Settles (Memory.In P mem.pointerSize) id (lookAnew target) :=
      Settles.bind (same.request _) fun _ => (same.resolve _).bind fun _ => .pure id _
    obtain ⟨shown, settled⟩ := settled
    obtain ⟨first, there⟩ := settled mem ⟨here, rfl⟩
    exact (settled ⟨_, typeNames, mem.pointerSize⟩ ⟨there.1, rfl⟩).1.trans first.symm

/-- An expression has a value if what is given for it is not the absent value. -/
private theorem hasValue_of_some {s : σ} {expression : String}
    (some : ¬(((DataSpaces.typedData (.evaluate expression)).call s).1.toOption.getD .none).isNone = true) :
    HasValue s expression (((DataSpaces.typedData (.evaluate expression)).call s).1.toOption.getD .none) := by
  cases answer : ((DataSpaces.typedData (.evaluate expression)).call s).1 with
  | error e =>
    rw [answer] at some
    exact absurd rfl some
  | ok new =>
    rw [answer] at some
    exact ⟨answer, Bool.not_eq_true _ ▸ some⟩

/-- All bytes are written, or none are, or the engine tells how many. -/
private theorem bytes_of_write (law : V.Lawful) (s : σ) (offset : UInt64) {new : List UInt8}
    (few : new.length < UInt32.size) :
    let answer := (DataSpaces.writeVirtual offset new).call s
    if answer.1.toOption.any (·.toNat == new.length) then
      V.bytes answer.2 = overlay new offset (V.bytes s)
    else V.bytes answer.2 = V.bytes s ∨ ∃ n, answer.1 = .ok n ∧ n.toNat < new.length ∧
      V.bytes answer.2 = overlay (new.take n.toNat) offset (V.bytes s) := by
  intro answer
  cases given : answer.1 with
  | error e => exact .inl (law.refused s offset new few e given)
  | ok n =>
    obtain ⟨le, bytes⟩ := law.written s offset new few n given
    -- a write that is short has written the first bytes
    by_cases all : n.toNat = new.length
    · rw [all, List.take_length] at bytes
      rw [if_pos (by simp [Except.toOption, all])]
      exact bytes
    · rw [if_neg (by simp [Except.toOption, all])]
      exact .inr ⟨n, rfl, by omega, bytes⟩

/-- An overwriting succeeds with all bytes written, or it fails with none or only the first of them written. -/
private theorem ensures_overwritten (law : V.Lawful) (target : Variable) (expression : String)
    (mem₀ : Memory σ) :
    Ensures (· = mem₀) (overwrite target expression).run (Overwrites V target expression mem₀) := by
  let evaluated := (DataSpaces.typedData (.evaluate expression)).call mem₀.engine
  let new : TypedData := evaluated.1.toOption.getD .none
  let offset := target.origin.data.offset
  let written := (DataSpaces.writeVirtual offset (bytesFor target new)).call evaluated.2
  let all := written.1.toOption.any (·.toNat == (bytesFor target new).length)
  have unread : V.bytes evaluated.2 = V.bytes mem₀.engine := law.read (.typedData _) _
  have refused : ∀ {α : Type} (e : ValueFailure) (k : α → ExceptT ValueFailure (MemoryM σ) Variable)
      {P : Memory σ → Prop}, (∀ mem, P mem → Overwrites V target expression mem₀ (.error e) mem) →
      Ensures P ((throw e : ExceptT ValueFailure (MemoryM σ) α) >>= k).run
        (Overwrites V target expression mem₀) :=
    fun e k P h => h
  -- nothing is written before the value and the place for it are known
  have unwritten : ∀ {e : ValueFailure} mem, mem = { mem₀ with engine := evaluated.2 } →
      Overwrites V target expression mem₀ (.error e) mem := by
    rintro e _ rfl
    exact .inl unread
  have evaluates : Ensures (· = mem₀) (ExceptT.lift (Memory.evaluate expression) :
      ExceptT ValueFailure (MemoryM σ) TypedData).run fun r mem =>
        r = .ok new ∧ mem = { mem₀ with engine := evaluated.2 } := by
    rintro _ rfl
    exact ⟨rfl, rfl⟩
  refine evaluates.bindOk (.iteExcept (fun _ => refused _ _ unwritten) fun some => ?_)
  refine .iteExcept (fun _ => refused _ _ unwritten) fun writable => ?_
  have writes : Ensures (· = { mem₀ with engine := evaluated.2 })
      (ExceptT.lift (Memory.writeBytes offset (bytesFor target new)) :
        ExceptT ValueFailure (MemoryM σ) Bool).run fun r mem =>
        r = .ok all ∧ mem = { mem₀ with engine := written.2 } := by
    rintro _ rfl
    exact ⟨rfl, rfl⟩
  -- at most eight bytes are written, so their number is told exactly
  have few : (bytesFor target new).length < UInt32.size := by
    rw [bytesFor, length_littleEndianBytes]
    exact Nat.lt_of_le_of_lt (Nat.min_le_right _ _) (by decide)
  have value : HasValue mem₀.engine expression new := hasValue_of_some some
  have bytes := bytes_of_write law evaluated.2 offset few
  rw [unread] at bytes
  -- a short write is an error, though some bytes are written
  refine writes.bindOk (.iteExcept (fun short => refused _ _ ?_) fun complete => ?_)
  · rintro _ rfl
    rw [if_neg (by simpa [all, written] using short)] at bytes
    rcases bytes with nothing | ⟨n, told, fewer, bytes⟩
    · exact .inl nothing
    · exact .inr ⟨new, n, rfl, ⟨value, fewer, told⟩, bytes⟩
  · -- a complete write is followed by a look at what is there now
    rw [if_pos (by simpa [all, written] using complete)] at bytes
    have again := lookAnew_again law target { mem₀ with engine := written.2 }
    rintro _ rfl
    refine ⟨?_, ?_, ⟨new, value, again.1.trans bytes⟩, again.2⟩
    · intro none
      exact writable (.inl (by rw [none]; rfl))
    · exact fun none => writable (.inr none)

/-! ## Setting a variable -/

/-- A variable was set: `r` is the variable as it is then, which was `target` before. -/
structure Assigned (V : MemoryView σ) (w : Worker σ) (holder : Handle) (value : String)
    (target r : Registered Variable) (w' : Worker σ) : Prop where
  handle_eq : r.handle = target.handle
  size_ne_zero : target.content.origin.data.size ≠ 0
  offset_ne_zero : target.content.origin.data.offset ≠ 0
  /-- The value of the expression, in the frame of the variable if that could be selected, is written over the
  variable, and nothing else. -/
  bytes : ∃ new, HasValue (w.selecting (w.store.frameOf holder)).session.engine value new ∧
    V.bytes w'.session.engine =
      overlay (bytesFor target.content new) target.content.origin.data.offset (V.bytes w.session.engine)
  shown : ((inMemory (lookAnew target.content)).run w').1 = r.content
  stored : w'.store.get? r.handle = some (.variable r.content)
  /-- What hangs below the variable is removed, and nothing is done to anything else. -/
  removed : ∀ h, w.store.Below r.handle h → w'.store.get? h = none ∧ w'.store.parent? h = none
  get?_eq : ∀ h, ¬w.store.Below r.handle h → h ≠ r.handle → w'.store.get? h = w.store.get? h
  parent?_eq : ∀ h, ¬w.store.Below r.handle h → w'.store.parent? h = w.store.parent? h

/-- A variable was not set: nothing that is stored was changed, and nothing was written but for what the
engine tells if it writes fewer bytes than there are. -/
structure Unassigned (V : MemoryView σ) (w : Worker σ) (holder : Handle) (name value : String)
    (f : ValueFailure) (w' : Worker σ) : Prop where
  get?_eq : ∀ h, w'.store.get? h = w.store.get? h
  parent?_eq : ∀ h, w'.store.parent? h = w.store.parent? h
  bytes : V.bytes w'.session.engine = V.bytes w.session.engine ∨
    ∃ target new n, f = .notWritten name ∧ w.variableNamed? holder name = some target ∧
      WritesShort (w.selecting (w.store.frameOf holder)).session.engine target.content value new n ∧
      V.bytes w'.session.engine = overlay ((bytesFor target.content new).take n.toNat)
        target.content.origin.data.offset (V.bytes w.session.engine)

/-- What comes of setting a variable, by the answer. -/
def Assigns (V : MemoryView σ) (w : Worker σ) (holder : Handle) (name value : String) (w' : Worker σ) :
    Except ValueFailure (Registered Variable) → Prop
  | .ok r => ∃ target, w.variableNamed? holder name = some target ∧ w.Assigned V holder value target r w'
  | .error f => w.Unassigned V holder name value f w'

/-- What the worker looks at the debuggee's memory through. -/
def memory (w : Worker σ) : Memory σ :=
  { engine := w.session.engine, typeNames := w.typeNames, pointerSize := w.pointerSize }

/-- The worker after a look at the debuggee's memory. -/
def looked (w : Worker σ) (mem : Memory σ) : Worker σ :=
  { w with session := { w.session with engine := mem.engine }, typeNames := mem.typeNames }

/-- A write that fails leaves the store as it is. -/
theorem run_overwriteSelected_error {w : Worker σ} {target : Registered Variable} {value : String}
    {f : ValueFailure} (failed : ((overwrite target.content value).run.run w.memory).1 = .error f) :
    (overwriteSelected target value).run w =
      (.error f, w.looked ((overwrite target.content value).run.run w.memory).2) := by
  have seen : (inMemory (overwrite target.content value).run).run w =
      (((overwrite target.content value).run.run w.memory).1,
        w.looked ((overwrite target.content value).run.run w.memory).2) := rfl
  rw [overwriteSelected, StateT.run_bind, seen, failed]
  rfl

/-- A write that succeeds removes what was below the variable and stores what it looks like now. -/
theorem run_overwriteSelected_ok {w : Worker σ} {target : Registered Variable} {value : String}
    {shown : Variable} (done : ((overwrite target.content value).run.run w.memory).1 = .ok shown) :
    (overwriteSelected target value).run w =
      (.ok ⟨target.handle, shown⟩,
        { w.looked ((overwrite target.content value).run.run w.memory).2 with
          store := (w.store.removeChildren target.handle).updateVariable target.handle fun _ => shown }) := by
  have seen : (inMemory (overwrite target.content value).run).run w =
      (((overwrite target.content value).run.run w.memory).1,
        w.looked ((overwrite target.content value).run.run w.memory).2) := rfl
  rw [overwriteSelected, StateT.run_bind, seen, done]
  rfl

/-- A variable that is not listed cannot be written, and nothing is done. -/
theorem run_setVariable_none {w : Worker σ} {holder : Handle} {name : String} (value : String)
    (unknown : w.variableNamed? holder name = none) :
    (setVariable holder name value).run w = (.error (.notFound name), w) := by
  have looked : ∀ k : Worker σ → WorkerM σ (Except ValueFailure (Registered Variable)),
      (get >>= k).run w = (k w).run w := fun _ => rfl
  rw [variableNamed?] at unknown
  rw [setVariable, looked, unknown]
  rfl

/-- A variable is shown anew in its place, and what hung below it is removed. -/
private theorem replaces_variable {s s' : Store} (hs : s.Consistent) (hs' : s'.Consistent)
    (entities : ∀ h, s'.get? h = s.get? h) (holders : ∀ h, s'.parent? h = s.parent? h) {h₀ : Handle}
    {v : Variable} (found : s.get? h₀ = some (.variable v)) (shown : Variable) :
    let s'' := (s'.removeChildren h₀).updateVariable h₀ fun _ => shown
    s''.get? h₀ = some (.variable shown) ∧
      (∀ h, s.Below h₀ h → s''.get? h = none ∧ s''.parent? h = none) ∧
      (∀ h, ¬s.Below h₀ h → h ≠ h₀ → s''.get? h = s.get? h) ∧
      ∀ h, ¬s.Below h₀ h → s''.parent? h = s.parent? h := by
  intro s''
  have gone := (hs'.removed_removeChildren h₀).congr fun h => Store.below_congr holders h₀ h
  -- the variable itself, what was below it, the other entities, and their holders
  refine ⟨?_, fun h below => ?_, fun h above other => ?_, fun h above => ?_⟩
  · rw [Store.get?_updateVariable, gone.get?_eq (hs.not_below_self _), entities, found]
    simp [Entity.update]
  · rw [Store.get?_updateVariable, gone.get?_eq_none below]
    exact ⟨rfl, gone.parent?_eq_none below⟩
  · have kept : ∀ e : Entity, (if h = h₀ then e.update (fun _ => shown) else e) = e :=
      fun e => if_neg other
    simp only [s'', Store.get?_updateVariable, gone.get?_eq above, entities, kept, Option.map_id']
  · exact (gone.parent?_eq above).trans (holders h)

/-- Setting a variable assigns to it, or fails with the rest left alone. -/
private theorem assigns_setVariable (law : V.Lawful) {w : Worker σ} (hs : w.store.Consistent)
    (holder : Handle) (name value : String) :
    w.Assigns V holder name value ((setVariable holder name value).run w).2
      ((setVariable holder name value).run w).1 := by
  cases named : w.variableNamed? holder name with
  | none =>
    rw [run_setVariable_none value named]
    exact ⟨fun _ => rfl, fun _ => rfl, .inl rfl⟩
  | some target =>
    rw [run_setVariable value named]
    let frame := w.store.frameOf holder
    -- selecting the frame changes which thread and frame are current, and no entity
    obtain ⟨hs', thread, current, same⟩ : w.store.Chosen (w.selecting frame).store :=
      (chosen_frame.selectFrame frame w ⟨⟨hs, _, _, rfl⟩, rfl⟩).1
    have entities : ∀ h, (w.selecting frame).store.get? h = w.store.get? h := fun h => by rw [same]; rfl
    have holders : ∀ h, (w.selecting frame).store.parent? h = w.store.parent? h := fun h => by rw [same]; rfl
    -- nor does it write to the memory
    have unwritten : V.bytes (w.selecting frame).session.engine = V.bytes w.session.engine :=
      keeps_selectFrame (P := fun s => V.bytes s = V.bytes w.session.engine)
        (fun h s same => (law.select h s).trans same) frame w rfl
    have listed : target ∈ w.store.variablesOf holder := List.mem_of_find?_eq_some named
    -- what is found has the name that was asked for
    have called : target.content.name = name := by simpa using List.find?_some named
    have overwritten := ensures_overwritten law target.content value (w.selecting frame).memory _ rfl
    -- a refused value leaves every entity in its place
    cases outcome : ((overwrite target.content value).run.run (w.selecting frame).memory).1 with
    | error f =>
      rw [run_overwriteSelected_error outcome]
      rw [outcome] at overwritten
      refine ⟨entities, holders, ?_⟩
      rcases overwritten with nothing | ⟨new, n, rfl, short, bytes⟩
      · exact .inl (nothing.trans unwritten)
      · refine .inr ⟨target, new, n, by rw [called], named, short, ?_⟩
        rw [← unwritten]
        exact bytes
    | ok shown =>
      rw [run_overwriteSelected_ok outcome]
      rw [outcome] at overwritten
      obtain ⟨size, offset, ⟨new, evaluated, bytes⟩, again⟩ := overwritten
      have found : w.store.get? target.handle = some (.variable target.content) :=
        hs.get?_of_mem_variablesOf listed
      obtain ⟨stored, removed, kept, held⟩ := replaces_variable hs hs' entities holders found shown
      refine ⟨target, named, rfl, size, offset, ⟨new, evaluated, ?_⟩, again _, stored, removed, kept, held⟩
      rw [← unwritten]
      exact bytes

/-- The reply to the command is what setting the variable gives. -/
theorem answer_setVariable (w : Worker σ) (holder : Handle) (name value : String) :
    ((execute (.setVariable holder name value)).run w).1 =
      .answered (.variableSet ((setVariable holder name value).run w).1) :=
  rfl

end Worker

namespace Observed

variable {σ : Type} [Engine σ] {V : MemoryView σ}

/-- A variable that is set holds the lowest bytes of the value, as many as it has but at most 8, and the rest
of the memory is as before. It is stored as it is shown when it is decoded anew, which is also the answer,
nothing is stored below it any more, and nothing else that is stored was changed. If it is not set, nothing
that is stored was changed, and no bytes are written but those of which the engine tells when it writes fewer
than there are. -/
theorem run_assigns (law : V.Lawful) (engine : σ) (options : GatewayOptions) (turns : List Turn)
    {w : Worker σ} (reached : ((new engine options).run turns).Reaches w) (holder : Handle)
    (name value : String) :
    ∃ r, ((Worker.execute (.setVariable holder name value)).run w).1 = .answered (.variableSet r) ∧
      w.Assigns V holder name value (w.after (.setVariable holder name value)) r :=
  ⟨_, w.answer_setVariable holder name value,
    Worker.assigns_setVariable law reached.consistent holder name value⟩

/-- A debuggee with a variable `x` of 4 bytes. -/
def shortVariable : Scripted.World where
  callStacks := [(1, [⟨0x1000, 0⟩])]
  types := [(1, { name := some "u32", size := 4, tag := some .base })]
  symbols := [("Locals", [some ⟨"x", "u32", "", 0, 0x100, 1, none, 0⟩])]
  memory := [⟨0x100, #[7, 0, 0, 0, 9, 0, 0, 0]⟩]

/-- The variable is listed. -/
def shortListed : Observed Scripted.World :=
  (new shortVariable {}).run ([.call (.submit (.launch ⟨"app", "app", [], []⟩)),
    .call (.submit (.stackTrace 1)), .call (.submit (.scopes ⟨2⟩)),
    .call (.submit (.variables ⟨3⟩))] ++ List.replicate 12 .engine)

/-- Of a word of 5 bytes 4 are written. -/
theorem run_assigns_short :
    let w := shortListed.gateway.worker
    let c := Command.setVariable ⟨3⟩ "x" "4294967301"
    let data : TypedData := ⟨0, 0x100, 1, 4, .base, 5⟩
    let r : Registered Variable := ⟨⟨5⟩, "x", "u32", "5", false, ⟨"x", "u32", data⟩⟩
    ((Worker.execute c).run w).1 = .answered (.variableSet (.ok r)) ∧
      (∃ target, w.variableNamed? ⟨3⟩ "x" = some target ∧
        w.Assigned Scripted.World.memoryView ⟨3⟩ "4294967301" target r (w.after c)) ∧
      (w.after c).session.engine.mappedBytes 0x100 8 = [5, 0, 0, 0, 9, 0, 0, 0] := by
  intro w c data r
  -- the value is longer than the variable, so its low bytes are written
  have set : ((Worker.setVariable ⟨3⟩ "x" "4294967301").run w).1 = .ok r := by decide +kernel
  obtain ⟨r', answered, assigns⟩ := run_assigns Scripted.World.memoryView_lawful shortVariable {} _
    (w := w) (.inl rfl) ⟨3⟩ "x" "4294967301"
  have same : ((Worker.execute c).run w).1 = .answered (.variableSet (.ok r)) := by
    rw [Worker.answer_setVariable, set]
  obtain rfl : r' = .ok r :=
    Reply.variableSet.inj (Worker.Outcome.answered.inj (answered.symm.trans same))
  exact ⟨same, assigns, by decide +kernel⟩

end Observed

end DebugAdapter
