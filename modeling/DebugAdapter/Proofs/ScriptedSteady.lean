import DebugAdapter.Proofs.SteadyEngine
import DebugAdapter.Scripted.Engine

/-!
# Scripted engines whose answers do not change

A scripted engine answers from its tables, for the thread and the frame that are selected. What it is
asked for is counted or recorded, and symbol groups are handed out, but no answer rests on that. So its
answers do not change until it is told to go on, whatever the script lets fail.

## Key results

- `Scripted.World.steady`: the scripted engine meets what is taken for granted of a steady engine
-/

namespace DebugAdapter.Scripted.World

/-- What the answers of a world rest on: all but what is recorded and handed out. -/
def essence (w : World) : World :=
  { w with calls := [], typeNameCalls := 0, groups := [] }

/-! ## Memory -/

/-- The mapped bytes belong to the essence of a world. -/
private theorem mappedBytes_essence (w : World) (address : UInt64) (size : Nat) :
    w.essence.mappedBytes address size = w.mappedBytes address size := by
  induction size generalizing address with
  | zero => rfl
  | succ size ih =>
    have byte : w.essence.byteAt? address = w.byteAt? address := rfl
    simp only [mappedBytes, byte, ih]

/-- A word in memory belongs to the essence of a world. -/
private theorem wordAt?_essence (w : World) (address : UInt64) (size : Nat) :
    w.essence.wordAt? address size = w.wordAt? address size := by
  induction size generalizing address with
  | zero => rfl
  | succ size ih =>
    have byte : w.essence.byteAt? address = w.byteAt? address := rfl
    simp only [wordAt?, byte, ih]

/-- A reference is resolved by the essence of a world. -/
private theorem resolve_essence (w : World) (r : Reference) (moduleBase offset : UInt64) :
    w.essence.resolve r moduleBase offset = w.resolve r moduleBase offset := by
  simp only [resolve, wordAt?_essence]
  rfl

/-- Typed data is made by the essence of a world. -/
private theorem typedData_essence (w : World) (r : TypedRequest) :
    w.essence.typedData r = w.typedData r := by
  have types : w.essence.type? = w.type? := rfl
  cases r <;> simp only [typedData, types, resolve_essence]
  · rfl
  · rfl

/-- A text is found by the essence of a world. -/
private theorem typedText_essence (w : World) (r : TextRequest) (data : TypedData) :
    w.essence.typedText r data = w.typedText r data := by
  have types : w.essence.type? = w.type? := rfl
  simp only [typedText, types, wordAt?_essence]

/-! ## Calls that look and calls that select -/

/-- The answer of the call rests on the essence of the world. If it succeeds it changes the essence by `f`,
and else not; symbol groups are left as they are. -/
private structure Moves {α : Type} (f : World → World) (m : EngineM World α) (w : World) : Prop where
  answer_eq : (m.call w).1 = (m.call w.essence).1
  ok : ∀ a, (m.call w).1 = .ok a → (m.call w).2.essence = (f w.essence).essence
  error : ∀ e, (m.call w).1 = .error e → (m.call w).2.essence = w.essence
  groups_eq : (m.call w).2.groups = w.groups

/-- The call changes the essence of every world by `f` if it succeeds. -/
private def Moving {α : Type} (f : World → World) (m : EngineM World α) : Prop :=
  ∀ w, Moves f m w

section

variable {α β : Type} {m : EngineM World α} {k : α → EngineM World β} {w w₁ : World}

/-- Behind a success the second call is made from where the first has led. -/
private theorem call_bind_ok {a : α} (h : m.call w = (.ok a, w₁)) : (m >>= k).call w = (k a).call w₁ := by
  change (match m.call w with
    | (r, w₁) => ExceptT.bindCont k r w₁) = _
  rw [h]
  rfl

/-- A failure of the first call is that of the sequence. -/
private theorem call_bind_error {e : EngineError} (h : m.call w = (.error e, w₁)) :
    (m >>= k).call w = (.error e, w₁) := by
  change (match m.call w with
    | (r, w₁) => ExceptT.bindCont k r w₁) = _
  rw [h]
  rfl

end

namespace Moving

variable {α β : Type} {f : World → World}

/-- Returning a value moves nothing. -/
theorem pure (a : α) : Moving id (Pure.pure a : EngineM World α) :=
  fun _ => ⟨rfl, fun _ _ => rfl, nofun, rfl⟩

/-- Failing moves nothing. -/
theorem throw (e : EngineError) : Moving f (MonadExcept.throw e : EngineM World α) :=
  fun _ => ⟨rfl, nofun, fun _ _ => rfl, rfl⟩

/-- Failing with a status moves nothing. -/
theorem failWith (s : StatusWord) : Moving f (Scripted.failWith s : EngineM World α) :=
  throw _

/-- Giving an answer if there is one moves nothing. -/
theorem orFail (a : Option α) : Moving id (Scripted.orFail a) := by
  cases a with
  | none => exact failWith _
  | some a => exact pure a

/-- Behind a call that moves nothing, the sequence moves as its second call does. -/
theorem bind {m : EngineM World α} {k : α → EngineM World β} (hm : Moving id m)
    (hk : ∀ a, Moving f (k a)) : Moving f (m >>= k) := by
  intro w
  obtain ⟨same, moved, stayed, groups⟩ := hm w
  -- the same call is made in the world and in its essence, and both end alike
  have moved' := (hm w.essence).ok
  have stayed' := (hm w.essence).error
  rcases h : m.call w with ⟨r, w₁⟩
  rcases h' : m.call w.essence with ⟨r', w₁'⟩
  rw [h] at same moved stayed groups
  rw [h'] at same moved' stayed'
  obtain rfl : r = r' := same
  cases r with
  -- the second call is not made
  | error e =>
    have call := call_bind_error (k := k) h
    refine ⟨by rw [call, call_bind_error h'], ?_, ?_, ?_⟩
    all_goals rw [call]
    · nofun
    · exact fun _ _ => stayed e rfl
    · exact groups
  | ok a =>
    have call := call_bind_ok (k := k) h
    -- both runs go on from worlds in the same situation
    have alike : w₁.essence = w.essence := moved a rfl
    have alike' : w₁'.essence = w.essence := moved' a rfl
    obtain ⟨same₁, moved₁, stayed₁, groups₁⟩ := hk a w₁
    have same₂ := (hk a w₁').answer_eq
    refine ⟨by rw [call, call_bind_ok h', same₁, same₂, alike, alike'], ?_, ?_, ?_⟩
    all_goals rw [call]
    · rw [← alike]
      exact moved₁
    · rw [← alike]
      exact stayed₁
    · exact groups₁.trans groups

/-- The world is looked at, but not what is recorded there. -/
theorem looking {k : World → EngineM World α} (rests : ∀ w, k w = k w.essence)
    (hk : ∀ w, Moving f (k w)) : Moving f (get >>= k) := by
  intro w
  have moves := hk w w
  have same : ((k w).call w).1 = ((k w.essence).call w.essence).1 := by
    rw [moves.answer_eq, rests]
  exact ⟨same, moves.ok, moves.error, moves.groups_eq⟩

/-- A choice moves as both its branches do. -/
theorem ite {c : Prop} [Decidable c] {m m' : EngineM World α} (hm : c → Moving f m)
    (hm' : ¬c → Moving f m') : Moving f (if c then m else m') := by
  by_cases h : c
  · rw [if_pos h]
    exact hm h
  · rw [if_neg h]
    exact hm' h

/-- The world is changed, but not its groups, and what was recorded has no part in it. -/
theorem changing (rests : ∀ w, (f w).essence = (f w.essence).essence)
    (groups : ∀ w, (f w).groups = w.groups) : Moving f (modify f : EngineM World PUnit) :=
  fun w => ⟨rfl, fun _ _ => rests w, nofun, groups w⟩

/-- What was not there before is recorded. -/
theorem recording (g : World → World) (same : ∀ w, (g w).essence = w.essence)
    (groups : ∀ w, (g w).groups = w.groups) : Moving id (modify g : EngineM World PUnit) :=
  fun w => ⟨rfl, fun _ _ => same w, nofun, groups w⟩

/-- A scripted failure moves nothing. -/
theorem scriptedFailure (name : String) : Moving id (Scripted.scriptedFailure name) := by
  refine looking (fun _ => rfl) fun w => ?_
  split
  · exact throw _
  · exact pure ()

/-- Recording a call moves nothing. -/
theorem recorded (name : String) (c : Call) : Moving id (Scripted.recorded name c) :=
  (recording (·.log c) (fun _ => rfl) fun _ => rfl).bind fun _ => scriptedFailure name

/-- A question, to which the world has the answer if the script does not let it fail. -/
theorem asking {name : String} {k : World → EngineM World α} (rests : ∀ w, k w = k w.essence)
    (hk : ∀ w, Moving f (k w)) : Moving f (do Scripted.scriptedFailure name; k (← get)) :=
  (scriptedFailure name).bind fun _ => looking rests hk

end Moving

/-- A call that changes nothing leaves the essence. -/
private theorem Moving.essence_eq {α : Type} {m : EngineM World α} (h : Moving id m) {w : World} :
    (m.call w).2.essence = w.essence := by
  have moves := h w
  cases given : (m.call w).1 with
  | ok a => exact moves.ok a given
  | error e => exact moves.error e given

/-- A reading call moves nothing. -/
private theorem moving_readCall {α : Type} {m : EngineM World α} (h : ReadCall m) : Moving id m := by
  -- what is read does not depend on the record of calls, which is all that grows
  cases h with
  | typedData r =>
    refine .asking (fun w => by simp only [typedData_essence]) fun w => ?_
    split
    · exact .pure _
    · exact .throw _
  | typedText r data =>
    exact .asking (fun w => by simp only [typedText_essence]) fun w => .orFail _
  | fieldNames data => exact .asking (fun _ => rfl) fun w => (Moving.orFail _).bind fun t => .pure _
  | typeName moduleBase typeId =>
    refine Moving.bind (.recording _ (fun _ => rfl) fun _ => rfl) fun _ => ?_
    exact .asking (fun _ => rfl) fun w => .orFail _
  | readVirtual offset size =>
    refine .asking (fun w => by rw [mappedBytes_essence]; rfl) fun w => ?_
    exact .ite (fun _ => (Moving.failWith _).bind fun _ => .pure _) fun _ => .pure _
  | readString offset maxLength =>
    refine .asking (fun w => by rw [mappedBytes_essence]; rfl) fun w => ?_
    exact .ite (fun _ => (Moving.failWith _).bind fun _ => .pure _) fun _ => .pure _

/-- A call for something to look at moves nothing. -/
private theorem moving_lookCall {α : Type} {m : EngineM World α} (h : LookCall m) : Moving id m := by
  cases h with
  | read h => exact moving_readCall h
  | lineByOffset offset => exact .asking (fun _ => rfl) fun w => .orFail _
  | findSourceFile file => exact .asking (fun _ => rfl) fun w => .orFail _
  | nameByOffset offset => exact .asking (fun _ => rfl) fun w => .orFail _
  | threadIds | currentThread | stackTrace | currentFrameIndex =>
    exact .asking (fun _ => rfl) fun w => .pure _

/-- Selecting a thread moves the current thread. -/
private theorem moving_setCurrentThread (id : UInt32) :
    Moving (fun w => { w with currentThread := id }) (Engine.setCurrentThread id) := by
  refine (Moving.recorded _ _).bind fun _ => .looking (fun _ => rfl) fun w => ?_
  -- a thread that is not there is refused
  exact .ite (fun _ => (Moving.failWith _).bind fun _ => .changing (fun _ => rfl) fun _ => rfl)
    fun _ => .changing (fun _ => rfl) fun _ => rfl

/-- Selecting a frame moves the frame index. -/
private theorem moving_setFrameIndex (index : UInt32) :
    Moving (fun w => { w with frameIndex := index }) (Engine.setFrameIndex index) :=
  (Moving.recorded _ _).bind fun _ => .changing (fun _ => rfl) fun _ => rfl

/-! ## Answers -/

/-- What the script lets a call fail with. -/
private def failure? (w : World) (name : String) : Option EngineError :=
  (w.failures.find? (·.1 == name)).map (·.2)

/-- Worlds that are alike have the same scripted failures. -/
private theorem failure?_congr {w w' : World} (alike : w.essence = w'.essence) {name : String} :
    w.failure? name = w'.failure? name :=
  congrArg (·.failure? name) alike

/-- A scripted failure is the answer, if there is one for the name. -/
private theorem call_scriptedFailure (name : String) (w : World) :
    (Scripted.scriptedFailure name).call w =
      (match w.failure? name with
        | some e => .error e
        | none => .ok (), w) := by
  have looked : ∀ k : World → EngineM World Unit, (get >>= k).call w = (k w).call w := fun _ => rfl
  rw [Scripted.scriptedFailure, looked, failure?]
  cases w.failures.find? (·.1 == name) <;> rfl

/-- A question is answered from the world if the script does not let it fail. -/
private theorem call_asking {α : Type} (name : String) (f : World → α) (w : World) :
    (do Scripted.scriptedFailure name; return f (← get) : EngineM World α).call w =
      (match w.failure? name with
        | some e => .error e
        | none => .ok (f w), w) := by
  have asked := call_scriptedFailure name w
  cases given : w.failure? name with
  | some e =>
    rw [given] at asked
    exact call_bind_error asked
  | none =>
    rw [given] at asked
    exact call_bind_ok asked

/-- The current thread is told unless a failure is scripted. -/
private theorem call_currentThread (w : World) :
    (Engine.currentThread (σ := World)).call w =
      (match w.failure? "current_thread_system_id" with
        | some e => .error e
        | none => .ok w.currentThread, w) :=
  call_asking _ (·.currentThread) w

/-- The frame index is told unless a failure is scripted. -/
private theorem call_currentFrameIndex (w : World) :
    (Engine.currentFrameIndex (σ := World)).call w =
      (match w.failure? "current_scope_frame_index" with
        | some e => .error e
        | none => .ok w.frameIndex, w) :=
  call_asking _ (·.frameIndex) w

/-! ### Symbol groups -/

/-- The symbols of a group that was handed out. -/
private def entriesOf (w : World) (g : GroupId) : List (Option SymbolEntry) :=
  (w.groups[g.id]?.map (·.entries)).getD []

/-- A group is counted unless a failure is scripted. -/
private theorem call_groupCount (g : GroupId) (w : World) :
    (Engine.groupCount g).call w =
      (match w.failure? "group_count" with
        | some e => .error e
        | none => .ok (UInt32.ofNat (w.entriesOf g).length), w) :=
  call_asking "group_count" (fun w => UInt32.ofNat (w.entriesOf g).length) w

/-- An entry of a group is given if it has one at the index. -/
private theorem call_groupEntry (g : GroupId) (index : UInt32) (w : World) :
    (Engine.groupEntry g index).call w =
      (match (w.entriesOf g)[index.toNat]?.bind id with
        | some entry => .ok entry
        | none => .error (.status .fail), w) := by
  have step : (Engine.groupEntry g index).call w =
      (orFail ((w.entriesOf g)[index.toNat]?.bind id)).call w := rfl
  rw [step]
  cases (w.entriesOf g)[index.toNat]?.bind id <;> rfl

/-- What is told of symbols. -/
private def told (failure : Option EngineError) (entries : List (Option SymbolEntry)) :
    SymbolListing where
  count :=
    match failure with
    | some e => .error e
    | none => .ok (UInt32.ofNat entries.length)
  entry index :=
    match entries[index.toNat]?.bind id with
    | some entry => .ok entry
    | none => .error (.status .fail)

/-- What a group lists depends on its entries and on the failure scripted for counting. -/
private theorem listing_eq (w : World) (g : GroupId) :
    SymbolListing.of w g = told (w.failure? "group_count") (w.entriesOf g) := by
  simp only [SymbolListing.of, told, call_groupCount, call_groupEntry]

/-- Looking at a group changes nothing. -/
private theorem groupCall_unchanged {α : Type} {m : EngineM World α} (h : GroupCall m) (w : World) :
    (m.call w).2 = w := by
  cases h with
  | groupCount g => rw [call_groupCount]
  | groupEntry g index => rw [call_groupEntry]

/-- The group that is handed back is released, and the call is recorded. -/
private def handBack (w : World) (kind : ScopeKind) (previous : Option GroupId) : World :=
  (match previous with
    | some g => w.releaseGroup g
    | none => w).log (.scopeSymbolGroup kind previous.isSome)

/-- Handing a group back does not change what the world is like. -/
private theorem essence_handBack (w : World) (kind : ScopeKind) (previous : Option GroupId) :
    (w.handBack kind previous).essence = w.essence := by
  cases previous <;> rfl

/-- A group is exchanged by handing the old one back and asking for a new one. -/
private theorem call_scopeSymbolGroup (kind : ScopeKind) (previous : Option GroupId) (w : World) :
    (Engine.scopeSymbolGroup kind previous).call w = (do
      Scripted.scriptedFailure "scope_symbol_group"
      modifyGet fun w => w.addGroup (w.scopeSymbols kind) : EngineM World GroupId).call
        (w.handBack kind previous) := rfl

/-- With a failure scripted, the old group is handed back and no new one is given. -/
private theorem call_scopeSymbolGroup_of_failure {w : World} {e : EngineError}
    (failing : w.failure? "scope_symbol_group" = some e) (kind : ScopeKind) (previous : Option GroupId) :
    (Engine.scopeSymbolGroup kind previous).call w = (.error e, w.handBack kind previous) := by
  have asked := call_scriptedFailure "scope_symbol_group" (w.handBack kind previous)
  rw [failure?_congr (essence_handBack w kind previous), failing] at asked
  rw [call_scopeSymbolGroup]
  exact call_bind_error asked

/-- The symbols are those of the situation. -/
private theorem call_scopeSymbolGroup_of_none {w : World}
    (passing : w.failure? "scope_symbol_group" = none) (kind : ScopeKind) (previous : Option GroupId) :
    (Engine.scopeSymbolGroup kind previous).call w =
      (.ok ((w.handBack kind previous).addGroup (w.essence.scopeSymbols kind)).1,
        ((w.handBack kind previous).addGroup (w.essence.scopeSymbols kind)).2) := by
  have asked := call_scriptedFailure "scope_symbol_group" (w.handBack kind previous)
  rw [failure?_congr (essence_handBack w kind previous), passing] at asked
  have same : (w.handBack kind previous).scopeSymbols kind = w.essence.scopeSymbols kind := by
    rw [← essence_handBack w kind previous]
    rfl
  rw [call_scopeSymbolGroup, ← same]
  exact call_bind_ok asked

/-- What is told of a group that was handed out at last. -/
private theorem entriesOf_addGroup (w : World) (entries : List (Option SymbolEntry)) :
    (w.addGroup entries).2.entriesOf (w.addGroup entries).1 = entries := by
  simp [addGroup, entriesOf]

/-! ## The law -/

/-- A current one is told exactly if no failure is scripted and it is that one. -/
private theorem named_iff {failure : Option EngineError} {id current : UInt32} :
    (match failure with
      | some e => (.error e : Except EngineError UInt32)
      | none => .ok id) = .ok current ↔ failure = none ∧ id = current := by
  cases failure <;> simp

/-- A world is in the situation of its essence. -/
def At (v w : World) : Prop :=
  w.essence = v

/-- A world is in the situation that its essence describes. -/
theorem at_essence (w : World) : At w.essence w :=
  rfl

/-- Where a call that gives an answer leads. -/
private def next {α : Type} (f : World → World) (v : World) : Except EngineError α → World
  | .ok _ => (f v).essence
  | .error _ => v

/-- Calls give the answer that they give in the situation. -/
private theorem answers_of_moving {α : Type} {f : World → World} {m : EngineM World α} (h : Moving f m)
    (v : World) : ∃ a v', m.Answers (At v) a (At v') ∧ ∀ e, a = .error e → v' = v := by
  refine ⟨(m.call v).1, next f v (m.call v).1, ?_, fun e failed => by rw [failed, next]⟩
  rintro w rfl
  have moves := h w
  refine ⟨moves.answer_eq, ?_⟩
  rw [← moves.answer_eq]
  cases given : (m.call w).1 with
  | ok a => exact moves.ok a given
  | error e => exact moves.error e given

/-- What is asked for, recorded or handed out changes no answer of the scripted engine. -/
theorem steady : Engine.Steady At where
  look := by
    -- the situation is the essence of a world, which looking does not change
    intro α m h v
    obtain ⟨a, v', answers, -⟩ := answers_of_moving (moving_lookCall h) v
    exact ⟨a, fun w here => ⟨(answers w here).1, (moving_lookCall h).essence_eq.trans here⟩⟩
  -- calls about a group read it, and change nothing at all
  lookGroup := by
    intro α m h v w here
    rw [groupCall_unchanged h]
    exact here
  listing := by
    intro α m h v w here g
    rcases h with look | group
    · rw [listing_eq, listing_eq, failure?_congr (moving_lookCall look).essence_eq, entriesOf,
        (moving_lookCall look w).groups_eq]
      rfl
    · rw [groupCall_unchanged group]
  select := by
    intro m h v
    cases h with
    | thread id => exact answers_of_moving (moving_setCurrentThread id) v
    | frame index => exact answers_of_moving (moving_setFrameIndex index) v
  scopeSymbolGroup := by
    intro kind v
    -- the script lets the call fail, or a new group is handed out
    cases given : v.failure? "scope_symbol_group" with
    | some e =>
      refine .inl ⟨e, fun previous w here => ?_⟩
      obtain rfl : w.essence = v := here
      rw [call_scopeSymbolGroup_of_failure (w := w) given]
      exact ⟨rfl, essence_handBack w kind previous⟩
    | none =>
      refine .inr ⟨told (v.failure? "group_count") (v.scopeSymbols kind), fun previous w here => ?_⟩
      obtain rfl : w.essence = v := here
      have alike := essence_handBack w kind previous
      rw [call_scopeSymbolGroup_of_none (w := w) given]
      refine ⟨_, rfl, alike, ?_⟩
      have counted : ((w.handBack kind previous).addGroup (w.essence.scopeSymbols kind)).2.failure?
          "group_count" = w.essence.failure? "group_count" := failure?_congr alike
      rw [listing_eq, entriesOf_addGroup, counted]
  -- a world tells of what was selected: it obeys
  selection := by
    refine .inl ⟨fun {v w} _ {current} named id accepted => ?_,
      fun {v w} _ {current} named index accepted => ?_⟩
    · have moved : ((Engine.setCurrentThread id).call w).2.essence =
          { w.essence with currentThread := id } := (moving_setCurrentThread id w).ok _ accepted
      rw [call_currentThread, named_iff] at named ⊢
      exact ⟨(congrArg (·.failure? "current_thread_system_id") moved).trans named.1,
        congrArg (·.currentThread) moved⟩
    · have moved : ((Engine.setFrameIndex index).call w).2.essence =
          { w.essence with frameIndex := index } := (moving_setFrameIndex index w).ok _ accepted
      have thread : ((Engine.currentThread (σ := World)).call
          ((Engine.setFrameIndex index).call w).2).1 = ((Engine.currentThread).call w).1 := by
        rw [(moving_lookCall .currentThread _).answer_eq, moved,
          (moving_lookCall .currentThread w).answer_eq, call_currentThread, call_currentThread]
        rfl
      refine ⟨?_, thread⟩
      rw [call_currentFrameIndex, named_iff] at named ⊢
      exact ⟨(congrArg (·.failure? "current_scope_frame_index") moved).trans named.1,
        congrArg (·.frameIndex) moved⟩

end DebugAdapter.Scripted.World
