import DebugAdapter.Proofs.StateOutline

/-!
# Requests beside a debuggee that runs or is held

A request is followed action by action (`Session.Gives`), with what is known of the gateway and the
session state between two actions (`Session.Has`). Requests that inspect the debuggee leave it as it is.
A request that lets the debuggee run marks the session before the command is queued, and takes the mark
back if the command fails: from a debuggee that is held (`Session.Stopped`) it leads to a session state
that agrees with the engine (`Session.Agreeing`), however the engine thread and the forwarder interleave.

## Key results

- `Session.gives_harmless`: requests that inspect the debuggee
- `Session.gives_command?`: a command to start or to resume a debuggee that is held, with its answer
- `Session.gives_resuming`: requests that let a debuggee run that is held
-/

namespace DebugAdapter

variable {σ : Type} [Engine σ] {V : StatusView σ}

namespace Gateway

variable {c : Command} {Q : SessionState → Prop} {r : Reply} {o : Outline}

/-- A command to resume the debuggee was answered, and has not failed. -/
theorem agrees_of_told (resumes : c.resumes = true) (succeeds : Session.executionFailure? r = none)
    (told : Told c Q r o) : o.Agrees := by
  have other : c.starts = false := by
    cases c <;> first | rfl | cases resumes
  cases r with
  | executed result =>
    cases result with
    | ok u => exact told
    | error e => cases succeeds
  | _ => cases other.symm.trans told.2.2.2.1

/-- A command has failed. -/
theorem held_of_told {e : ExecutionFailure} (failed : Session.executionFailure? r = some e)
    (told : Told c Q r o) : o.Held Q := by
  cases r with
  | executed result =>
    cases result with
    | ok u => cases failed
    | error e => exact told
  | _ => cases failed

end Gateway

namespace Session

/-- The session is as `A` says, and as long as the debuggee lives, its gateway is as `P` says. -/
def Has (V : StatusView σ) (A : Session → Prop) (P : Gateway σ → Bool → SessionState → Prop)
    (t : Session) (s : System σ) : Prop :=
  A t ∧ s.Minds V P

/-- Nothing is asked of the engine thread by which the status would change, and `R` holds. -/
abbrev Minding (V : StatusView σ) (A : Session → Prop) (R : Outline → Prop) :
    Session → System σ → Prop :=
  Has V A (Gateway.Minding V R)

variable {A : Session → Prop} {P : Gateway σ → Bool → SessionState → Prop} {R R' : Outline → Prop}

/-- What is known of a session and minded in the system stays so. -/
theorem stable_has (L : V.Lawful) (mode : Gateway.Mode V P) (t : Session) :
    System.Stable (Has V A P t) where
  forwarder := fun h => ⟨h.1, (System.stable_minds L mode).forwarder h.2⟩
  engine := fun h => ⟨h.1, (System.stable_minds L mode).engine h.2⟩

omit [Engine σ] in
/-- What may follow if nothing is known. -/
theorem Has.of_unknown {t : Session} {s : System σ} (h : Has V A System.Unknown t s) : Has V A P t s :=
  ⟨h.1, h.2.mono fun _ _ _ none => none.elim⟩

/-! ## Requests that inspect the debuggee -/

/-- Asking is harmless. -/
theorem askUse_harmless {S : Session → Prop} (keeps : ∀ {t t' : Session}, S t → t.Agree t' → S t') :
    AskUse Action.Harmless S where
  note := fun _ => trivial
  submit := fun _ inspects => inspects
  interrupt := trivial
  await := fun _ => trivial
  keeps := keeps

/-- Answering is harmless. -/
theorem replyUse_harmless {S : Session → Prop}
    (drops : ∀ {t : Session}, S t → S { t with deferred := [] }) : ReplyUse Action.Harmless S where
  note := fun _ => trivial
  respond := fun _ => trivial
  sendable := fun _ _ _ => trivial
  drops := drops

/-- Work by harmless actions leaves everything as it is. -/
theorem gives_harmless (L : V.Lawful) (lasting : Outline.Lasting R) {α : Type} {m : SessionM α}
    (hm : Uses Action.Harmless A m) : Gives (Minding V A R) m fun _ => Minding V A R :=
  hm.gives (System.stable_minds L (Gateway.mode_minding lasting)) fun harmless _ _ _ h e =>
    h.perform L harmless e

/-! ## Requests that let the debuggee run -/

/-- Going on to a state changes the state alone. -/
theorem gives_advanceTo (L : V.Lawful) (lasting : Outline.Lasting R) {target : SessionState}
    (becomes : ∀ o, R o → target ≠ .terminated ∧ R' { o with state := target }) :
    Gives (Minding V A R) (Session.perform (.updateState target.advanceTo)) fun _ => Minding V A R' :=
  .perform (stable_has L (Gateway.mode_minding lasting)) fun h e => ⟨h.1, h.2.updateState becomes e⟩

/-- What follows a change of the state may rely on it. -/
theorem Gives.bindAdvanceTo {α : Type} {B B' : Session → System σ → Prop}
    {Q : Except RequestFailure α → Session → System σ → Prop} {target : SessionState}
    {f : Unit → RequestM α}
    (advances : Gives B (Session.perform (.updateState target.advanceTo)) fun _ => B')
    (rest : Gives B' (f ()).run Q) : Gives B (Session.advanceTo target >>= f).run Q := by
  unfold Session.advanceTo
  rw [bind_assoc]
  exact advances.bindLift fun _ => rest

/-- The session state is looked at while the debuggee is held. -/
theorem gives_state (L : V.Lawful) {Q : SessionState → Prop} :
    Gives (Minding V A (Outline.Held Q)) (Session.perform (.updateState id)) fun previous =>
      Minding V A (Outline.Held fun state => Q state ∧ previous = state) :=
  .perform (stable_has L (Gateway.mode_minding (Outline.lasting_held Q))) fun h e => ⟨h.1, h.2.read e⟩

/-- After a command to start or to resume a debuggee was answered, or was refused. -/
def Answer (V : StatusView σ) (A : Session → Prop) (c : Command) (Q : SessionState → Prop) :
    Option Reply → Session → System σ → Prop
  | some r => Minding V A (Gateway.Told c Q r)
  | none => Has V A System.Unknown

/-- A command to start or to resume a debuggee that is held. -/
theorem gives_command? (L : V.Lawful) {Q : SessionState → Prop} {c : Command} (moves : c.Moves Q) :
    Gives (Minding V A (Outline.Held Q)) (Session.command? c) (Answer V A c Q) := by
  have queued : Gives (Minding V A (Outline.Held Q)) (Session.perform (.submit c)) fun ticket =>
      Has V A (ticket.elim System.Unknown (Gateway.Awaiting V c Q)) :=
    .perform (stable_has L (Gateway.mode_minding (Outline.lasting_held Q))) fun h e =>
      ⟨h.1, h.2.submit moves e⟩
  -- the answer tells what became of the debuggee
  have awaited : ∀ ticket, Gives (Has V A (Gateway.Awaiting V c Q ticket)) (do
      return (← Session.perform (.await ticket)).getD c.defaultReply)
      fun reply => Answer V A c Q (some reply) := by
    intro ticket
    have waited : Gives (Has V A (Gateway.Awaiting V c Q ticket)) (Session.perform (.await ticket))
        fun reply => Has V A (reply.elim System.Unknown fun r => Gateway.Minding V (Gateway.Told c Q r)) :=
      .perform (stable_has L (Gateway.mode_awaiting moves ticket)) fun h e => ⟨h.1, h.2.await e⟩
    refine waited.bind fun reply => ?_
    cases reply with
    | none => exact .pure fun _ _ h => h.of_unknown
    | some reply => exact .pure fun _ _ h => h
  refine queued.bind fun ticket => ?_
  -- a queue that is closed takes no command
  cases ticket with
  | none => exact .pure fun _ _ h => h
  | some ticket =>
    dsimp only
    split
    · next other =>
      rcases other with rfl | rfl <;> rcases moves with h | ⟨h, -⟩ <;> cases h
    · exact (awaited ticket).bind fun _ => .pure fun _ _ h => h

/-- The debuggee is stopped, everything of it was reported and shown, and the session state says so. -/
abbrev Stopped (V : StatusView σ) : Session → System σ → Prop :=
  Minding V (·.started = true) (Outline.Held (· = .stopped))

/-- There is a debuggee, and the session state agrees with the engine. -/
abbrev Agreeing (V : StatusView σ) : Session → System σ → Prop :=
  Minding V (·.started = true) Outline.Agrees

omit [Engine σ] in
/-- A session that shows a stop of a debuggee that stands still agrees with it. -/
theorem Stopped.agreeing {t : Session} {s : System σ} (h : Stopped V t s) : Agreeing V t s :=
  ⟨h.1, h.2.mono fun _ _ _ held => ⟨held.1, held.2.agrees⟩⟩

/-- Running the debuggee ends in agreement, whether it is resumed or not. -/
theorem gives_runDebuggee (L : V.Lawful) {c : Command} (resumes : c.resumes = true) :
    Gives (Stopped V) (Session.runDebuggee c).run fun _ => Agreeing V := by
  -- while the command is under way, the session counts as running, and what it was before is known
  let Marked (previous state : SessionState) : Prop := state = .running ∧ previous = .stopped
  have marks : ∀ previous, Gives
      (Minding V (·.started = true) (Outline.Held fun state => state = .stopped ∧ previous = state))
      (Session.perform (.updateState (SessionState.advanceTo .running)))
      fun _ => Minding V (·.started = true) (Outline.Held (Marked previous)) := by
    refine fun previous => gives_advanceTo L (Outline.lasting_held _) ?_
    rintro o ⟨runs, due, returned, stopped, same⟩
    exact ⟨nofun, runs, due, returned, rfl, same.trans stopped⟩
  -- a resume that fails puts the state back
  have restores : ∀ previous {α : Type} {m : RequestM α},
      Gives (Agreeing V) m.run (fun _ => Agreeing V) →
      Gives (Minding V (·.started = true) (Outline.Held (Marked previous)))
        (do Session.advanceTo previous; m : RequestM α).run fun _ => Agreeing V := by
    intro previous α m rest
    refine Gives.bindAdvanceTo (gives_advanceTo L (Outline.lasting_held _) ?_) rest
    rintro o ⟨runs, due, returned, -, rfl⟩
    exact ⟨nofun, Outline.Held.agrees ⟨runs, due, returned, rfl⟩⟩
  refine Gives.bindLift (.get (Q := fun u t s => u.started = true ∧ Stopped V t s)
    fun t s h => ⟨h.1, h⟩) fun u => ?_
  split
  · next off => exact fun t s h => absurd h.1 (by simpa using off)
  · refine Gives.mono (A := Stopped V) ?_ (fun _ _ h => h.2) fun _ _ _ h => h
    refine Gives.bindLift (gives_state L) fun previous => Gives.bindAdvanceTo (marks previous) ?_
    refine Gives.bindLift (gives_command? L (.inr ⟨resumes, fun _ h => h.1⟩)) fun reply => ?_
    split
    · exact (restores previous (.pure fun _ _ h => h)).mono (fun _ _ h => Has.of_unknown h)
        fun _ _ _ h => h
    · -- a command that succeeds has resumed the debuggee, and one that fails has left it
      split
      · next succeeds =>
        exact .pure fun t s h => ⟨h.1, h.2.mono fun _ _ _ told =>
          ⟨told.1, Gateway.agrees_of_told resumes succeeds told.2⟩⟩
      · next failed =>
        refine (restores previous (.pure fun _ _ h => h)).mono (fun t s h => ?_) fun _ _ _ h => h
        exact ⟨h.1, h.2.mono fun _ _ _ told => ⟨told.1, Gateway.held_of_told failed told.2⟩⟩

/-- The debuggee that was held is to run, after the client was told so. -/
theorem gives_continueAfterConfiguration (L : V.Lawful) :
    Gives (Stopped V) Session.continueAfterConfiguration.run fun _ => Agreeing V := by
  have asks : AskUse Action.Harmless (·.started = true) :=
    askUse_harmless fun h agree => agree.started.trans h
  have held := Outline.lasting_held (· = .stopped)
  have listed := gives_harmless L held asks.debuggeeThreads
  have continued : ∀ body : Json, Gives (Stopped V)
      (Session.sendEvent (.ofJson "continued" body)).run fun _ => Stopped V :=
    fun body => gives_harmless L held (.act (a := .send (.event (.ofJson "continued" body))) trivial)
  refine listed.bindExcept (fun threads => ?_) fun _ _ _ h => Stopped.agreeing h
  split
  · exact (continued _).bindExcept (fun _ => gives_runDebuggee L rfl) fun _ _ _ h => h.agreeing
  · exact gives_runDebuggee L rfl

/-- The end of the configuration ends in agreement. -/
theorem gives_finishConfiguration (L : V.Lawful) :
    Gives (Stopped V) Session.finishConfiguration.run fun _ => Agreeing V := by
  have stopped : Gives (Stopped V) (pure none : RequestM (Option Json)).run fun _ => Agreeing V :=
    .pure fun _ _ h => h.agreeing
  refine Gives.bindLift (.modify (Q := fun _ => Stopped V) fun t s h => h) fun _ => ?_
  refine Gives.bindLift (.get (Q := fun _ => Stopped V) fun _ _ h => h) fun t => ?_
  split
  · refine Gives.bindLift (gives_state L) fun state => ?_
    -- what the state was is not needed any more
    have back : ∀ t s, Minding V (·.started = true)
        (Outline.Held fun state' => state' = .stopped ∧ state = state') t s → Stopped V t s :=
      fun t s h => ⟨h.1, h.2.mono fun _ _ _ held => ⟨held.1, held.2.mono fun _ => And.left⟩⟩
    split
    · refine Gives.mono (A := Stopped V) ?_ back fun _ _ _ h => h
      exact (gives_continueAfterConfiguration L).bindExcept (fun _ => .pure fun _ _ h => h)
        fun _ _ _ h => h
    · exact stopped.mono back fun _ _ _ h => h
  · exact stopped

/-- Requests that let the debuggee run, when it is held. -/
theorem gives_resuming (L : V.Lawful) {r : Request} (resumes : r.Resumes) :
    Gives (Stopped V) (Session.dispatch r).run fun _ => Agreeing V := by
  have ran : ∀ {c : Command} (body : Option Json), c.resumes = true → Gives (Stopped V)
      (do Session.runDebuggee c; return body : RequestM (Option Json)).run fun _ => Agreeing V :=
    fun body h => (gives_runDebuggee L h).bindExcept (fun _ => .pure fun _ _ h => h) fun _ _ _ h => h
  simp only [Request.Resumes, List.mem_cons, List.not_mem_nil, or_false] at resumes
  rcases resumes with h | h | h | h | h <;> simp only [Session.dispatch, h]
  · exact gives_finishConfiguration L
  all_goals exact ran _ rfl

end Session

end DebugAdapter
