import DebugAdapter.Proofs.HeldDebuggee
import DebugAdapter.Proofs.WantedBreakpoints

/-!
# Requests while the debuggee is held

A session whose debuggee is held has its breakpoints set file by file (`System.HeldWith`), until the
debuggee is let run (`System.GoesOnWith`). Nothing of this fails, whatever the other threads do meanwhile:
each command is answered (`Session.Ok`).

## Key results

- `Session.gives_handle_kept`: a request is logged, carried out and answered
- `Session.gives_setBreakpoints_held`, `Session.gives_applyPendingBreakpoints`: breakpoints are put where
  they are wanted
- `Session.gives_continueAfterConfiguration_held`, `Session.gives_finishConfiguration_held`: the debuggee is
  let run
-/

namespace DebugAdapter

variable {σ : Type} [Engine σ]

/-! ## What actions aside keep -/

/-- What is done aside might be done by the forwarder. -/
theorem Action.Aside.forwards {a : Action} (h : a.Aside) : a.Forwards where
  not_opens := h.not_opens
  not_submits := by
    intro c mem
    rw [h.atGateway] at mem
    cases mem
  quiet := h.quiet

/-- What is asked of the host is done aside. -/
theorem Action.aside_of_onHost {a : Action} (h : a.OnHost) : a.Aside := by
  cases a <;> first | exact ⟨id, rfl, fun _ => rfl, rfl⟩ | exact h.elim

namespace System

/-- What holds of a system is kept by the other threads, and by actions aside. -/
structure KeptAside (B : System σ → Prop) : Prop where
  stable : Stable B
  perform : ∀ {a : Action}, a.Aside → ∀ {s s' : System σ} {r : a.Result}, B s →
    s.perform a = some (r, s') → B s'

namespace KeptAside

variable {B B' : System σ → Prop}

/-- Either of two conditions is kept by what is done aside, if both are. -/
theorem or (h : KeptAside B) (h' : KeptAside B') : KeptAside fun s => B s ∨ B' s where
  stable := h.stable.or h'.stable
  perform aside _ _ _ hs e := hs.imp (fun hs => h.perform aside hs e) fun hs => h'.perform aside hs e

/-- A condition that is not about the system may be added. -/
theorem and_const (p : Prop) (h : KeptAside B) : KeptAside fun s => p ∧ B s where
  stable := h.stable.and_const p
  perform aside _ _ _ hs e := ⟨hs.1, h.perform aside hs.2 e⟩

/-- A condition that is not about the system is kept. -/
theorem const (p : Prop) : KeptAside fun _ : System σ => p where
  stable := ⟨id, id⟩
  perform _ _ _ _ hs _ := hs

/-- Of two conditions that are kept, the one that is chosen is. -/
theorem ite {c : Prop} [Decidable c] (h : KeptAside B) (h' : KeptAside B') :
    KeptAside (if c then B else B') := by
  split
  · exact h
  · exact h'

end KeptAside

/-- A gateway at rest stays so through what is done aside. -/
theorem keptAside_resting {P : Worker σ → Prop} (rests : Worker.Rests P) {state : SessionState}
    {told : List Message} : KeptAside (Poised (Gateway.Resting P) state told) where
  stable := stable_resting rests
  perform aside _ _ _ h e := h.perform aside e

/-- What is known of a running debuggee stays so through what is done aside. -/
theorem keptAside_letRun {K : Gateway σ → Prop}
    (acts : ∀ g a, K g → (∀ c, a ≠ .submit c) → K (g.act a)) (told : List Message) :
    KeptAside (LetRun K told) where
  stable := LetRun.stable acts told
  perform aside _ _ _ h e := h.perform acts aside.forwards e

end System

/-! ## Systems with a debuggee -/

/-- What is told of a debuggee that is to run again. -/
def HeldAnswers.continued (A : HeldAnswers) : List Message :=
  (A.listed.head?.map fun t => Message.event (.ofJson "continued" (.object
    [("threadId", .int t.content.systemId.toNat), ("allThreadsContinued", .bool true)]))).toList

namespace System

variable {V : DebuggeeView σ} {A : HeldAnswers} {wanted : String → List UInt32} {n : Nat}
  {told : List Message}

/-- The debuggee is held, and nothing was looked up in it. Its breakpoints are where they are wanted, and
at most `n` were set so far. -/
abbrev HeldWith (V : DebuggeeView σ) (A : HeldAnswers) (wanted : String → List UInt32) (n : Nat)
    (told : List Message) : System σ → Prop :=
  Poised (Gateway.Resting (Worker.Untouched V (BreakpointTable.Placed A.site? wanted) n)) .stopped told

/-- The debuggee was let run with its breakpoints where they are wanted, or is held since the engine did
not let it run. -/
def GoesOnWith (V : DebuggeeView σ) (A : HeldAnswers) (wanted : String → List UInt32) (n : Nat)
    (told : List Message) : System σ → Prop :=
  let T := BreakpointTable.Placed A.site? wanted
  if A.goes then LetRun (Gateway.LeftAlone (Worker.Released V T)) (told ++ A.continued)
  else Poised (Gateway.Resting (Worker.Holding V T n)) .stopped (told ++ A.continued)

/-- A held debuggee keeps its breakpoints through what is done aside. -/
theorem keptAside_heldWith (L : V.Lawful A) : KeptAside (HeldWith V A wanted n told) :=
  keptAside_resting (Worker.rests_untouched L)

/-- A debuggee that goes on keeps its breakpoints through what is done aside. -/
theorem keptAside_goesOnWith (L : V.Lawful A) : KeptAside (GoesOnWith V A wanted n told) := by
  refine .ite (keptAside_letRun (fun g a h => ?_) _) (keptAside_resting (Worker.rests_holding L))
  exact h.act (Worker.endFrame_released L) a

end System

namespace Session

variable {α β : Type} {t t' : Session} {B B' : System σ → Prop}

/-! ## Work that does not fail -/

/-- Work has succeeded, as `Q` says. -/
def Ok (Q : α → Session → System σ → Prop) : Except RequestFailure α → Session → System σ → Prop
  | .ok a => Q a
  | .error _ => fun _ _ => False

namespace Gives

variable {I : α → Session → System σ → Prop} {P : Session → System σ → Prop}
  {Q : α → Session → System σ → Prop}

/-- A request that returns a value succeeds. -/
theorem ok {a : α} (h : ∀ t s, P t s → Q a t s) : Gives P (Pure.pure a : RequestM α).run (Ok Q) :=
  .pure h

/-- What follows a step that succeeds may rely on its result. -/
theorem bindOk {R : Except RequestFailure β → Session → System σ → Prop} {m : RequestM α}
    {f : α → RequestM β} (hm : Gives P m.run (Ok Q)) (hf : ∀ a, Gives (Q a) (f a).run R) :
    Gives P (m >>= f).run R :=
  hm.bindExcept hf fun _ _ _ h => h.elim

/-- After work with a known result the rest starts from that result. -/
theorem bindLiftEq {B : Session → System σ → Prop} {R : Except RequestFailure α → Session → System σ → Prop}
    {m : SessionM β} {f : β → RequestM α} {b : β} (hm : Gives P m fun b' t s => b' = b ∧ B t s)
    (hf : Gives B (f b).run R) : Gives P (ExceptT.lift m >>= f).run R := by
  refine hm.bindLift fun b' t s h => ?_
  obtain rfl : b' = b := h.1
  exact hf t s h.2

/-- The session that is read is the one that is known. -/
theorem bindGetAt {R : Except RequestFailure α → Session → System σ → Prop} {f : Session → RequestM α}
    (hf : Gives (At t B) (f t).run R) : Gives (At t B) (ExceptT.lift MonadState.get >>= f).run R :=
  bindLiftEq (.get fun _ _ h => ⟨h.1, h⟩) hf

/-- What follows a step with a known result need only be checked for that result. -/
theorem bindOkEq {B : Session → System σ → Prop} {R : Except RequestFailure β → Session → System σ → Prop}
    {m : RequestM α} {f : α → RequestM β} {a : α} (hm : Gives P m.run (Ok fun a' t s => a' = a ∧ B t s))
    (hf : Gives B (f a).run R) : Gives P (m >>= f).run R := by
  refine hm.bindOk fun a' t s h => ?_
  obtain rfl : a' = a := h.1
  exact hf t s h.2

/-- What each step makes of `I`, all of them make of it. -/
theorem forM {f : α → β → α} {m : β → SessionM Unit} {l : List β}
    (step : ∀ a b, b ∈ l → Gives (I a) (m b) fun _ => I (f a b)) (a : α) :
    Gives (I a) (l.forM m) fun _ => I (l.foldl f a) := by
  induction l generalizing a with
  | nil => exact .pure fun _ _ h => h
  | cons b l ih =>
    change Gives (I a) (m b >>= fun _ => l.forM m) fun _ => I (l.foldl f (f a b))
    refine (step a b List.mem_cons_self).bind fun _ => ?_
    exact ih (fun a b mem => step a b (List.mem_cons_of_mem _ mem)) (f a b)

/-- What is done for each of two lists, one after the other. -/
theorem forM_append {A B : Session → System σ → Prop} {C : PUnit → Session → System σ → Prop}
    {m : β → SessionM PUnit} {l l' : List β} (hl : Gives A (l.forM m) fun _ => B)
    (hl' : Gives B (l'.forM m) C) : Gives A ((l ++ l').forM m) C := by
  have split : (l ++ l').forM m = l.forM m >>= fun _ => l'.forM m := List.forM_append
  rw [split]
  exact hl.bind fun _ => hl'

end Gives

/-- What actions aside keep is kept by work that uses only these. -/
theorem Uses.givesAt {m : SessionM α} (hm : Uses Action.Aside (· = t) m) (kept : System.KeptAside B) :
    Gives (At t B) m fun _ => At t B :=
  hm.gives kept.stable fun aside => kept.perform aside

/-- A session that is at one place stays there through what is done aside. -/
theorem keptAside_at (kept : System.KeptAside B) (t' : Session) : System.KeptAside (At t B t') :=
  kept.and_const (t' = t)

/-- A request is logged, carried out and answered. -/
theorem gives_handle_kept {P Q : Session → System σ → Prop} (before : ∀ t, System.KeptAside (P t))
    (after : ∀ t, System.KeptAside (Q t)) (quiet : ∀ t s, Q t s → t.deferred = []) {r : Request}
    (carriedOut : Gives P (dispatch r).run fun _ => Q) : Gives P (handle r) fun _ => Q := by
  have logged : Gives P (Session.log .debug (toString r.seq ++ ": " ++ r.command)) fun _ => P :=
    .perform (fun t => (before t).stable) fun h e => (before _).perform (Action.aside_note _) h e
  refine logged.bind fun _ => carriedOut.bind fun result t s h => ?_
  -- the reply is a message, with notes around it
  have use : ReplyUse Action.Aside (· = t) :=
  { note := Action.aside_note
    respond := Action.aside_respond
    sendable := by
      rintro _ rfl e mem
      rw [quiet _ s h] at mem
      cases mem
    drops := by
      rintro _ rfl
      rw [← quiet _ s h] }
  refine ((use.answer r result).givesAt (after t) t s ⟨rfl, h⟩).mono ?_
  rintro ⟨_, t'⟩ s' ⟨same, h'⟩
  obtain rfl : t' = t := same
  exact h'

/-! ## The session state -/

section

variable {P : Worker σ → Prop} {state target : SessionState} {told : List Message} (rests : Worker.Rests P)
include rests

/-- The session state is looked at while nothing is asked of the engine thread. -/
theorem gives_state_resting : Gives (At t (System.Poised (Gateway.Resting P) state told))
    (Session.perform (.updateState id)) fun previous t' s =>
      previous = state ∧ At t (System.Poised (Gateway.Resting P) state told) t' s :=
  .perform (fun t' => (keptAside_at (System.keptAside_resting rests) t').stable) fun h e =>
    ⟨(h.2.updateState e).1, h.1, (h.2.updateState e).2⟩

/-- The session goes to a state while nothing is asked of the engine thread. -/
theorem gives_advanceTo_resting (goesOn : state ≠ .terminated) :
    Gives (At t (System.Poised (Gateway.Resting P) state told))
      (Session.perform (.updateState (SessionState.advanceTo target)))
      fun _ => At t (System.Poised (Gateway.Resting P) target told) := by
  refine .perform (fun t' => (keptAside_at (System.keptAside_resting rests) t').stable) fun h e => ⟨h.1, ?_⟩
  have after := (h.2.updateState e).2
  rwa [SessionState.advanceTo, if_neg goesOn] at after

end

/-! ## Commands -/

/-- A command that is answered gives its answer. -/
theorem gives_command {c : Command} {R : Reply → System σ → Prop} (on : t.started = true)
    (called : Gives (At t B) (Session.command? c) fun result t' s => t' = t ∧ ∃ r, result = some r ∧ R r s) :
    Gives (At t B) (Session.command c).run (Ok fun r => At t (R r)) := by
  have given : Gives (At t B) (do orFailWith .noDebuggee (← ExceptT.lift (Session.command? c)) :
      RequestM Reply).run (Ok fun r => At t (R r)) := by
    refine Gives.bindLift called fun result => ?_
    rintro t' s ⟨same, r, rfl, known⟩
    exact ⟨same, known⟩
  refine Gives.bindGetAt ?_
  rw [on]
  exact given

variable {V : DebuggeeView σ} {A : HeldAnswers} {wanted : String → List UInt32} {n : Nat}
  {told : List Message}

section

variable (L : V.Lawful A) (on : t.started = true)
include L on

/-! ## Breakpoints -/

/-- The breakpoints of a file are put where they are wanted. -/
theorem gives_setDebuggeeBreakpoints (path : String) (lines : List UInt32)
    (room : n + lines.length < UInt32.size) :
    Gives (At t (System.HeldWith V A wanted n told)) (setDebuggeeBreakpoints path lines).run
      (Ok fun _ => At t (System.HeldWith V A (want t.sourceMap.toTarget wanted (path, lines))
        (n + lines.length) told)) := by
  have commanded : Gives (At t (System.HeldWith V A wanted n told))
      (Session.command (.setBreakpoints (t.sourceMap.toTarget path) lines)).run
      (Ok fun _ => At t (System.HeldWith V A (want t.sourceMap.toTarget wanted (path, lines))
        (n + lines.length) told)) :=
    gives_command on <| gives_command?_poised (T := (· = t)) (Worker.rests_untouched L)
      (Worker.carriesOut_setBreakpoints L (t.sourceMap.toTarget path) lines room)
      ⟨nofun, nofun⟩ (fun _ => System.stable_resting (Worker.rests_untouched L))
      fun _ _ h => h.mono fun _ h => h.toResting
  refine Gives.bindGetAt (commanded.bindOk fun r => ?_)
  split <;> exact .ok fun _ _ h => h

omit L on in
/-- What is done for each wish is done for all of them. -/
private theorem gives_forIn {toTarget : String → String}
    {body : String × List UInt32 → PUnit → RequestM (ForInStep PUnit)}
    (step : ∀ p wanted n, n + p.2.length < UInt32.size →
      Gives (At t (System.HeldWith V A wanted n told)) (body p ⟨⟩).run (Ok fun next t' s =>
        next = .yield ⟨⟩ ∧ At t (System.HeldWith V A (want toTarget wanted p) (n + p.2.length) told) t' s))
    (wishes : List (String × List UInt32)) (room : n + lineCount wishes < UInt32.size) :
    Gives (At t (System.HeldWith V A wanted n told)) (forIn wishes PUnit.unit body).run (Ok fun _ =>
      At t (System.HeldWith V A (wishes.foldl (want toTarget) wanted) (n + lineCount wishes) told)) := by
  -- on the wishes; each adds to what is wanted and to the ids that are used up
  induction wishes generalizing wanted n with
  | nil => exact .ok fun _ _ h => h
  | cons p wishes ih =>
    simp only [lineCount_cons, ← Nat.add_assoc] at room ⊢
    rw [List.forIn_cons]
    refine (step p wanted n (by omega)).bindOk fun next => ?_
    rintro t' s ⟨rfl, h⟩
    exact ih room t' s h

/-- The breakpoints that were kept for later are put where they are wanted. -/
theorem gives_applyPendingBreakpoints (room : n + lineCount t.pending < UInt32.size) :
    Gives (At t (System.HeldWith V A wanted n told)) applyPendingBreakpoints.run
      (Ok fun _ => At { t with pending := [] } (System.HeldWith V A
        (t.pending.foldl (want t.sourceMap.toTarget) wanted) (n + lineCount t.pending) told)) := by
  let t' : Session := { t with pending := [] }
  have emptied : Gives (At t (System.HeldWith V A wanted n told))
      (modify fun s => { s with pending := [] } : SessionM PUnit)
      fun _ => At t' (System.HeldWith V A wanted n told) :=
    .modify fun u s h => ⟨by rw [h.1], h.2⟩
  refine Gives.bindGetAt (Gives.bindLift emptied fun _ => ?_)
  -- the wishes that were kept are set one after the other, each on top of those before
  refine (gives_forIn (fun p wanted n room => ?_) t.pending room).bindOk fun _ => .ok fun _ _ h => h
  refine Gives.bindLift (.get (Q := fun _ => At t' _) fun _ _ h => h) fun u' => ?_
  refine (gives_setDebuggeeBreakpoints L (t := t') on p.1 p.2 room).bindOk fun verified => ?_
  refine Gives.bindLift (Uses.givesAt (.perform (Action.aside_note _)) (System.keptAside_heldWith L))
    fun _ => ?_
  exact .ok fun _ _ h => ⟨rfl, h⟩

/-- A request for breakpoints puts them where they are wanted. -/
theorem gives_setBreakpoints_held (r : Request)
    (room : n + lineCount (wish? t.convention r).toList < UInt32.size) :
    Gives (At t (System.HeldWith V A wanted n told)) (setBreakpoints r).run fun _ =>
      At t (System.HeldWith V A ((wish? t.convention r).toList.foldl (want t.sourceMap.toTarget) wanted)
        (n + lineCount (wish? t.convention r).toList) told) := by
  have kept : System.KeptAside (System.HeldWith V A wanted n told) := System.keptAside_heldWith L
  rintro t' s ⟨rfl, h⟩
  cases named : requestedPath? r with
  -- a request that names no file is no wish
  | none =>
    rw [run_setBreakpoints_unnamed named, wish?, named]
    exact ⟨rfl, h⟩
  | some path =>
    cases converted : t'.convention.pathToDebugger path with
    | none =>
      -- a path that is not known is no wish, and at most a note is made
      have none : wish? t'.convention r = none := by rw [wish?, named, Option.bind_some, converted]; rfl
      rw [none]
      rcases run_setBreakpoints_unconverted named converted with done | ⟨record, noted⟩
      · rw [done]
        exact ⟨rfl, h⟩
      · rw [noted]
        exact Program.yields_act kept.stable h fun h e =>
          ⟨rfl, kept.perform (Action.aside_note record) h e⟩
    | some back =>
      -- the wish is carried out by the debuggee that is held
      have wish : wish? t'.convention r = some (back, t'.debuggerLines r) := by
        rw [wish?, named, Option.bind_some, converted]
        rfl
      have count : lineCount (some (back, t'.debuggerLines r)).toList = (t'.debuggerLines r).length :=
        lineCount_cons (back, t'.debuggerLines r) []
      rw [wish, count] at room
      rw [wish, count, run_setBreakpoints_started named converted on]
      have set : Gives (At t' (System.HeldWith V A wanted n told)) (do
          let verified ← setDebuggeeBreakpoints back (t'.debuggerLines r)
          return some (flaggedBody r verified) : RequestM (Option Json)).run
          fun _ => At t' (System.HeldWith V A _ _ told) :=
        (gives_setDebuggeeBreakpoints L on back _ room).bindOk fun _ => .pure fun _ _ h => h
      exact set t' s ⟨rfl, h⟩

/-- A list of requests for breakpoints puts them where they are wanted. -/
theorem gives_requests_held (quiet : t.deferred = []) {requests : List Request}
    (sets : ∀ r ∈ requests, r.command = "setBreakpoints")
    (room : n + lineCount (requests.filterMap (wish? t.convention)) < UInt32.size) :
    Gives (At t (System.HeldWith V A wanted n told)) (requests.forM handle) fun _ =>
      At t (System.HeldWith V A
        ((requests.filterMap (wish? t.convention)).foldl (want t.sourceMap.toTarget) wanted)
        (n + lineCount (requests.filterMap (wish? t.convention))) told) := by
  -- induction on the requests: what is wanted before the rest is what the first has added
  induction requests generalizing wanted n with
  | nil => exact .pure fun _ _ h => h
  | cons r requests ih =>
    have split : (r :: requests).filterMap (wish? t.convention) =
        (wish? t.convention r).toList ++ requests.filterMap (wish? t.convention) := by
      rw [List.filterMap_cons]
      cases wish? t.convention r <;> rfl
    have sum : lineCount ((r :: requests).filterMap (wish? t.convention)) =
        lineCount (wish? t.convention r).toList + lineCount (requests.filterMap (wish? t.convention)) := by
      rw [split, lineCount_append]
    have command := sets r List.mem_cons_self
    rw [sum, ← Nat.add_assoc] at room ⊢
    rw [split, List.foldl_append]
    refine Gives.bind (m := handle r) (gives_handle_kept
      (fun t' => keptAside_at (System.keptAside_heldWith L) t')
      (fun t' => keptAside_at (System.keptAside_heldWith L) t')
      (fun _ _ h => h.1 ▸ quiet) ?_) fun _ => ih (fun r mem => sets r (List.mem_cons_of_mem _ mem)) room
    -- but for its answer, a request leaves what `setBreakpoints` does
    simp only [dispatch, command]
    exact gives_setBreakpoints_held L on r (by omega)

/-! ## The end of the hold -/

/-- The threads are listed, and nothing else is asked any more. -/
theorem gives_debuggeeThreads_held {T : BreakpointTable → (UInt32 → Option UInt64) → Prop} :
    Gives (At t (System.Poised (Gateway.Resting (Worker.Untouched V T n)) .stopped told))
      debuggeeThreads.run (Ok fun threads t' s => threads = A.listed ∧
        At t (System.Poised (Gateway.Resting (Worker.Holding V T n)) .stopped told) t' s) := by
  let Listed (r : Reply) (s : System σ) : Prop :=
    r = .threads A.listed ∧ s.Poised (Gateway.Resting (Worker.Holding V T n)) .stopped told
  have listed : Gives (At t (System.Poised (Gateway.Resting (Worker.Untouched V T n)) .stopped told))
      (Session.command .threads).run (Ok fun r => At t (Listed r)) := by
    -- the gateway rests until the command is submitted, and rests again after the reply
    refine gives_command on <| gives_command?_poised (T := (· = t)) (Worker.rests_untouched L)
      (Worker.carriesOut_threads L) ⟨nofun, nofun⟩
      (fun r => ((System.keptAside_resting (Worker.rests_holding L)).and_const _).stable) fun r s h => ?_
    obtain ⟨g, gateway, replied⟩ := h.gateway
    exact ⟨replied.worker.1, h.mono fun _ h => (h.mono fun _ h => h.2).toResting⟩
  refine listed.bindOk fun r => ?_
  rintro t' s ⟨same, rfl, h⟩
  exact ⟨rfl, same, h⟩

/-- The debuggee that was held is let run, if the engine does so. -/
theorem gives_runDebuggee_held {T : BreakpointTable → (UInt32 → Option UInt64) → Prop} :
    Gives (At t (System.Poised (Gateway.Resting (Worker.Holding V T n)) .stopped told))
      (runDebuggee .continue).run fun _ => At t (if A.goes then
        System.LetRun (Gateway.LeftAlone (Worker.Released V T)) told
        else System.Poised (Gateway.Resting (Worker.Holding V T n)) .stopped told) := by
  let Run (s : System σ) : Prop := s.LetRun (Gateway.LeftAlone (Worker.Released V T)) told
  let Held (state : SessionState) (s : System σ) : Prop :=
    s.Poised (Gateway.Resting (Worker.Holding V T n)) state told
  have marks : ∀ {target state : SessionState}, state ≠ .terminated →
      Gives (At t (Held state)) (Session.perform (.updateState (SessionState.advanceTo target)))
        fun _ => At t (Held target) := gives_advanceTo_resting (Worker.rests_holding L)
  let Answered (r : Reply) (s : System σ) : Prop :=
    (executionFailure? r = none ∧ A.goes = true) ∧ Run s ∨
      ((executionFailure? r).isSome = true ∧ A.goes = false) ∧ Held .running s
  -- meanwhile the state is `running`, and if the engine refuses, it is `stopped` again
  have called : Gives (At t (Held .running)) (Session.command? .continue) fun result t' s =>
      t' = t ∧ ∃ r, result = some r ∧ Answered r s := by
    refine gives_command?_poised (T := (· = t)) (Worker.rests_holding L) (Worker.carriesOut_continue L)
      ⟨nofun, nofun⟩ (fun r => ?_) fun r s h => ?_
    · have run := System.keptAside_letRun (K := Gateway.LeftAlone (Worker.Released V T))
        (fun g a h => h.act (Worker.endFrame_released L) a) told
      have back : System.KeptAside (Held .running) := System.keptAside_resting (Worker.rests_holding L)
      exact ((run.and_const _).or (back.and_const _)).stable
    · -- the reply tells which of the two it is
      obtain ⟨g, gateway, replied⟩ := h.gateway
      have known := replied.worker
      cases r with
      | executed result =>
        cases result with
        | ok u =>
          refine .inl ⟨⟨rfl, known.1⟩, h.letRun fun g h => ⟨h.worker.2, h.begun, ?_⟩⟩
          rw [h.queues.queue_eq]
          exact nofun
        | error e => exact .inr ⟨⟨rfl, known.1⟩, h.mono fun _ h => (h.mono fun _ h => h.2).toResting⟩
      | _ => exact known.elim
  -- a debuggee that was started is marked as running first
  refine Gives.bindGetAt ?_
  rw [on]
  refine Gives.bindLiftEq (gives_state_resting (Worker.rests_holding L)) (Gives.bindAdvanceTo (marks nofun) ?_)
  refine Gives.bindLift called fun result => ?_
  rintro t' s ⟨rfl, r, rfl, ⟨⟨none, goes⟩, run⟩ | ⟨⟨failed, refused⟩, back⟩⟩
  · simp only [none, goes, if_true]
    exact ⟨rfl, run⟩
  · -- a refused continuation puts the state back
    obtain ⟨e, failed⟩ := Option.isSome_iff_exists.1 failed
    simp only [failed, refused]
    have restored : Gives (At t' (Held .running)) (do
        advanceTo .stopped
        throw (.other e.message) : RequestM Unit).run fun _ => At t' (Held .stopped) :=
      Gives.bindAdvanceTo (marks (by decide : SessionState.running ≠ .terminated)) (.pure fun _ _ h => h)
    exact restored t' s ⟨rfl, back⟩

/-- The debuggee that was held is let run, and the client is told. -/
theorem gives_continueAfterConfiguration_held : Gives (At t (System.HeldWith V A wanted n told))
    continueAfterConfiguration.run fun _ => At t (System.GoesOnWith V A wanted n told) := by
  let Held (told : List Message) : System σ → Prop := System.Poised
    (Gateway.Resting (Worker.Holding V (BreakpointTable.Placed A.site? wanted) n)) .stopped told
  have sent : ∀ m : Message, m.tells "continued" = true →
      Gives (At t (Held told)) (Session.perform (.send m)) fun _ => At t (Held (told ++ [m])) := by
    intro m tells
    have kept : System.KeptAside (Held told) := System.keptAside_resting (Worker.rests_holding L)
    exact .perform (fun t' => (keptAside_at kept t').stable) fun h e => ⟨h.1, h.2.sendContinued tells e⟩
  refine Gives.bindOkEq (gives_debuggeeThreads_held L on) ?_
  have continued : A.continued = (A.listed.head?.map fun t => Message.event (.ofJson "continued" (.object
    [("threadId", .int t.content.systemId.toNat), ("allThreadsContinued", .bool true)]))).toList := rfl
  -- without a thread there is nothing to tell the client
  cases first : A.listed.head? with
  | none =>
    rw [first] at continued
    simp only [System.GoesOnWith, continued, Option.map_none, Option.toList_none, List.append_nil]
    exact gives_runDebuggee_held L on
  | some thread =>
    rw [first] at continued
    simp only [System.GoesOnWith, continued]
    exact Gives.bindLift (sent _ rfl) fun _ => gives_runDebuggee_held L on

/-- When the client is done with its settings, the debuggee that is held is let run. -/
theorem gives_finishConfiguration_held : Gives (At t (System.HeldWith V A wanted n told))
    finishConfiguration.run fun _ =>
      At { t with configurationDone := true } (System.GoesOnWith V A wanted n told) := by
  let t' : Session := { t with configurationDone := true }
  have noted : Gives (At t (System.HeldWith V A wanted n told))
      (modify fun s => { s with configurationDone := true } : SessionM PUnit)
      fun _ => At t' (System.HeldWith V A wanted n told) :=
    .modify fun u s h => ⟨by rw [h.1], h.2⟩
  have goesOn : Gives (At t' (System.HeldWith V A wanted n told)) continueAfterConfiguration.run
      fun _ => At t' (System.GoesOnWith V A wanted n told) := gives_continueAfterConfiguration_held L on
  refine Gives.bindLift noted fun _ => Gives.bindGetAt ?_
  rw [if_pos on]
  refine Gives.bindLiftEq (gives_state_resting (Worker.rests_untouched L)) ?_
  exact goesOn.bindExcept (fun _ => .pure fun _ _ h => h) fun _ _ _ h => h

end

end Session

end DebugAdapter
