import DebugAdapter.Proofs.GatewayOrder
import DebugAdapter.Proofs.RequestActions
import DebugAdapter.Session.System

/-!
# Requests among the other threads

Between two actions of a request, the forwarder and the engine thread make any number of steps. What is
known of a system between two actions has to be *stable* under their steps, and then a request is
followed action by action: `Program.Yields` says what holds when a program is done, whatever the others
do meanwhile.

## Key results

- `System.perform_shown`, `System.perform_frame`: what an action changes
- `Program.Yields.bind`, `Program.yields_act`: how to follow a program
- `SessionRun.yields_run`: what a program yields holds however the threads are scheduled
-/

namespace DebugAdapter

/-! ## What an action changes -/

/-- The message is the event of a name. -/
def Message.tells (name : String) : Message → Bool
  | event e => e.name == name
  | response _ => false

/-- The number of events of a name that were written. -/
def Outbox.told (name : String) (o : Outbox) : Nat :=
  o.written.countP (·.2.tells name)

/-- Sending a message tells of an event exactly if it is that event. -/
theorem Outbox.told_send (name : String) (o : Outbox) (m : Message) :
    (o.send m).told name = o.told name + (m.tells name).toNat := by
  simp only [told, send, List.countP_cons]
  cases m.tells name <;> rfl

namespace Action

/-- The action is the event of a name. -/
def tells (name : String) : Action → Bool
  | send m => m.tells name
  | _ => false

/-- The session state after an action. -/
def stateAfter : Action → SessionState → SessionState
  | updateState f, state => f state
  | _, state => state

/-- What an action does at the gateway. -/
def atGateway : Action → List GatewayAction
  | submit c => [.submit c]
  | interrupt => [.interrupt]
  | markDisposed => [.markDisposed]
  | closeQueue => [.closeQueue]
  | cancel => [.cancel]
  | silence => [.silence]
  | _ => []

end Action

namespace System

variable {σ : Type} [Engine σ] {s s' : System σ}

omit [Engine σ] in
/-- A log record is shown as output, if at all. -/
private theorem note_shown (r : LogRecord) (s : System σ) : (s.note r).state = s.state ∧
    ∀ {name}, name ≠ "output" → (s.note r).outbox.told name = s.outbox.told name := by
  unfold note
  split
  · refine ⟨rfl, fun {name} hname => ?_⟩
    have silent : (Message.event r.toEvent).tells name = false := beq_eq_false_iff_ne.2 (Ne.symm hname)
    simp only [send, Outbox.told_send, silent]
    rfl
  · exact ⟨rfl, fun _ => rfl⟩

omit [Engine σ] in
/-- Making an engine shows nothing to the client. -/
private theorem openGateway_shown (engineOptions : EngineOptions) (options : GatewayOptions)
    (s : System σ) : (s.openGateway engineOptions options).2.state = s.state ∧
      (s.openGateway engineOptions options).2.outbox = s.outbox := by
  unfold openGateway
  split <;> exact ⟨rfl, rfl⟩

/-- Queueing a command is an action at the gateway. -/
private theorem submit_eq (c : Command) (s : System σ) :
    (s.submit c).2 = s.onGateway (·.act (.submit c)) := by
  obtain ⟨provider, host, console, state, outbox, native, gateway, forwarded, forwarder⟩ := s
  cases gateway <;> rfl

/-- Waiting for an answer changes nothing, and gives what was answered. -/
theorem perform_await {ticket : Ticket} {r : Option Reply}
    (h : s.perform (.await ticket) = some (r, s')) : s' = s ∧
      ∀ {reply}, r = some reply → ∃ g, s.gateway = some g ∧ g.answer? ticket = some reply := by
  simp only [perform] at h
  -- without a gateway there is no answer to wait for
  split at h
  · cases h
    exact ⟨rfl, nofun⟩
  · next g hg =>
    split at h
    · next answered =>
      cases h
      exact ⟨rfl, fun e => ⟨g, hg, e ▸ answered⟩⟩
    · split at h
      · cases h
        exact ⟨rfl, nofun⟩
      · exact nomatch h

/-- Waiting for the engine thread changes nothing, and is over when that has ended. -/
theorem perform_awaitEnd {r : Unit} (h : s.perform .awaitEnd = some (r, s')) : s' = s ∧
    ∀ {g}, s.gateway = some g → g.phase = .finished := by
  simp only [perform] at h
  split at h
  · next ended =>
    cases h
    refine ⟨rfl, fun {g} hg => ?_⟩
    rw [hg, Option.all_some] at ended
    cases hp : g.phase <;> simp [hp, Phase.isFinished] at ended
    rfl
  · exact nomatch h

/-- Waiting for the forwarder changes nothing, and is over when that has ended. -/
theorem perform_joinForwarder {r : Unit} (h : s.perform .joinForwarder = some (r, s')) :
    s' = s ∧ s.forwarderEnded = true := by
  simp only [perform] at h
  split at h
  · next ended =>
    cases h
    exact ⟨rfl, ended⟩
  · exact nomatch h

/-- What the client sees of an action. -/
theorem perform_shown {a : Action} {r : a.Result} (h : s.perform a = some (r, s')) :
    s'.state = a.stateAfter s.state ∧ ∀ {name}, name ≠ "output" →
      s'.outbox.told name = s.outbox.told name + (a.tells name).toNat := by
  -- only sending a message and changing the state can be seen from the outside
  cases a with
  | send m =>
    cases h
    exact ⟨rfl, fun _ => Outbox.told_send _ _ _⟩
  | note r =>
    cases h
    exact note_shown r s
  -- a gateway that is opened has told nothing yet
  | openGateway engineOptions options =>
    obtain rfl := (Prod.mk.inj (Option.some.inj h)).2
    obtain ⟨state, outbox⟩ := openGateway_shown engineOptions options s
    exact ⟨state, fun _ => congrArg (Outbox.told _) outbox⟩
  | submit c =>
    have e : s' = (s.submit c).2 := (Prod.mk.inj (Option.some.inj h)).2.symm
    rw [e, submit_eq]
    exact ⟨rfl, fun _ => rfl⟩
  | await ticket =>
    rw [(perform_await h).1]
    exact ⟨rfl, fun _ => rfl⟩
  | awaitEnd =>
    rw [(perform_awaitEnd h).1]
    exact ⟨rfl, fun _ => rfl⟩
  | joinForwarder =>
    rw [(perform_joinForwarder h).1]
    exact ⟨rfl, fun _ => rfl⟩
  | _ =>
    cases h
    exact ⟨rfl, fun _ => rfl⟩

/-- What an action changes besides, unless it makes a gateway. -/
theorem perform_frame {a : Action} {r : a.Result} (h : s.perform a = some (r, s')) (on : ¬a.Opens) :
    s'.gateway = s.gateway.map (·.run a.atGateway) ∧ s'.forwarder = s.forwarder ∧
      s'.forwarded = s.forwarded := by
  -- no action at the gateway leaves it what it is
  have same : s.gateway = s.gateway.map (·.run []) := by
    cases s.gateway <;> rfl
  -- an action at the gateway is carried out there, and every other one leaves it alone
  cases a with
  | openGateway engineOptions options => exact absurd trivial on
  | note r =>
    cases h
    unfold note
    split <;> exact ⟨same, rfl, rfl⟩
  | submit c =>
    have e : s' = (s.submit c).2 := (Prod.mk.inj (Option.some.inj h)).2.symm
    rw [e, submit_eq]
    exact ⟨rfl, rfl, rfl⟩
  | await ticket =>
    rw [(perform_await h).1]
    exact ⟨same, rfl, rfl⟩
  -- what only waits changes nothing at all
  | awaitEnd =>
    rw [(perform_awaitEnd h).1]
    exact ⟨same, rfl, rfl⟩
  | joinForwarder =>
    rw [(perform_joinForwarder h).1]
    exact ⟨same, rfl, rfl⟩
  | interrupt | markDisposed | closeQueue | cancel | silence =>
    cases h
    exact ⟨rfl, rfl, rfl⟩
  | _ =>
    cases h
    exact ⟨same, rfl, rfl⟩

/-- An action of others leaves the forwarder what it is, or has it begin anew. -/
theorem perform_forwarder {a : Action} {r : a.Result} (h : s.perform a = some (r, s')) :
    s'.forwarder = s.forwarder ∨ s'.forwarder = .done () := by
  cases a with
  | openGateway engineOptions options =>
    have e : s' = (s.openGateway engineOptions options).2 := (Prod.mk.inj (Option.some.inj h)).2.symm
    rw [e, openGateway]
    split
    · exact .inl rfl
    · exact .inr rfl
  | _ => exact .inl (perform_frame h id).2.1

/-! ## What the other threads keep -/

/-- A step of the forwarder is an action, the beginning with an event, or nothing. -/
theorem stepForwarder_cases (s : System σ) :
    (∃ a next r s', s.forwarder = .act a next ∧ s.perform a = some (r, s') ∧
      s.stepForwarder = { s' with forwarder := next r }) ∨
    (∃ e, s.forwarder = .done () ∧ s.nextEvent? = some e ∧
      s.stepForwarder = { s with forwarded := s.forwarded + 1, forwarder := Session.forward e }) ∨
    s.stepForwarder = s := by
  unfold stepForwarder
  split
  · next a next hf =>
    cases e : s.perform a with
    | none => exact .inr (.inr rfl)
    | some result => exact .inl ⟨a, next, result.1, result.2, hf, e, rfl⟩
  · next hf =>
    cases e : s.nextEvent? with
    | none => exact .inr (.inr rfl)
    | some event => exact .inr (.inl ⟨event, hf, rfl, rfl⟩)

/-- The forwarder and the engine thread, in any number of steps, make one system of another. -/
inductive Meanwhile (s : System σ) : System σ → Prop
  | none : Meanwhile s s
  | forwarder {s' : System σ} (h : Meanwhile s s') : Meanwhile s s'.stepForwarder
  | engine {s' : System σ} (h : Meanwhile s s') : Meanwhile s s'.stepEngine

/-- What happens in between goes on. -/
theorem Meanwhile.trans {s₁ s₂ s₃ : System σ} (h : s₁.Meanwhile s₂) (h' : s₂.Meanwhile s₃) :
    s₁.Meanwhile s₃ := by
  induction h' with
  | none => exact h
  | forwarder _ ih => exact ih.forwarder
  | engine _ ih => exact ih.engine

/-- What holds of a system holds whatever the forwarder and the engine thread do. -/
structure Stable (A : System σ → Prop) : Prop where
  forwarder : ∀ {s}, A s → A s.stepForwarder
  engine : ∀ {s}, A s → A s.stepEngine

/-- What is stable still holds after whatever happens in between. -/
theorem Stable.meanwhile {A : System σ → Prop} (stable : Stable A) (h : A s) (m : s.Meanwhile s') :
    A s' := by
  induction m with
  | none => exact h
  | forwarder _ ih => exact stable.forwarder ih
  | engine _ ih => exact stable.engine ih

/-- Two stable conditions together are stable. -/
theorem Stable.and {A B : System σ → Prop} (hA : Stable A) (hB : Stable B) :
    Stable fun s => A s ∧ B s where
  forwarder := And.imp hA.forwarder hB.forwarder
  engine := And.imp hA.engine hB.engine

/-- Either of two stable conditions is stable. -/
theorem Stable.or {A B : System σ → Prop} (hA : Stable A) (hB : Stable B) :
    Stable fun s => A s ∨ B s where
  forwarder := Or.imp hA.forwarder hB.forwarder
  engine := Or.imp hA.engine hB.engine

/-- A condition that is not about the system may be added. -/
theorem Stable.and_const {A : System σ → Prop} (p : Prop) (hA : Stable A) : Stable fun s => p ∧ A s where
  forwarder := And.imp_right hA.forwarder
  engine := And.imp_right hA.engine

/-- A family of stable conditions is stable for some member of it. -/
theorem Stable.ofExists {ι : Type} {A : ι → System σ → Prop} (hA : ∀ i, Stable (A i)) :
    Stable fun s => ∃ i, A i s where
  forwarder := fun ⟨i, h⟩ => ⟨i, (hA i).forwarder h⟩
  engine := fun ⟨i, h⟩ => ⟨i, (hA i).engine h⟩

end System

/-! ## Programs -/

namespace Program

variable {σ α β : Type} [Engine σ] {s : System σ}

/-- When a program is done, its result and the system are as `Q` says, whatever the other threads do
meanwhile. -/
def Yields (Q : α → System σ → Prop) : Program α → System σ → Prop
  | .done a, s => Q a s
  | .act a next, s => ∀ s' r s'', s.Meanwhile s' → s'.perform a = some (r, s'') →
      (next r).Yields Q s''

/-- What a program yields can be weakened. -/
theorem Yields.mono {Q Q' : α → System σ → Prop} {p : Program α} (hp : p.Yields Q s)
    (h : ∀ a s, Q a s → Q' a s) : p.Yields Q' s := by
  induction p generalizing s with
  | done a => exact h a s hp
  | act a next ih => exact fun _ _ _ m e => ih _ (hp _ _ _ m e)

/-- What two programs in a row yield is what the second yields after the first. -/
theorem Yields.bind {Q : α → System σ → Prop} {Q' : β → System σ → Prop} {p : Program α}
    {f : α → Program β} (hp : p.Yields Q s) (hf : ∀ a s, Q a s → (f a).Yields Q' s) :
    (p >>= f).Yields Q' s := by
  induction p generalizing s with
  | done a => exact hf a s hp
  | act a next ih => exact fun _ _ _ m e => ih _ (hp _ _ _ m e)

/-- Before an action something stable is known. -/
theorem yields_act {A : System σ → Prop} {Q : α → System σ → Prop} {a : Action}
    {next : a.Result → Program α} (stable : System.Stable A) (h : A s)
    (hnext : ∀ {s r s'}, A s → s.perform a = some (r, s') → (next r).Yields Q s') :
    (Program.act a next).Yields Q s :=
  fun _ _ _ m e => hnext (stable.meanwhile h m) e

/-- What the other threads and all actions of a program keep holds when it is done. -/
theorem All.yields {P : Action → Prop} {Q : α → Prop} {A : System σ → Prop} {p : Program α}
    (hp : p.All P Q) (stable : System.Stable A)
    (keeps : ∀ {a}, P a → ∀ {s r s'}, A s → s.perform a = some (r, s') → A s') (h : A s) :
    p.Yields (fun a s => Q a ∧ A s) s := by
  induction p generalizing s with
  | done a => exact ⟨hp, h⟩
  | act a next ih => exact yields_act stable h fun h e => ih _ (hp.2 _) (keeps hp.1 h e)

end Program

namespace Session

variable {σ α β : Type} [Engine σ]

/-- Work of the session thread that begins in a session and a system as `A` says leaves a result, a
session and a system as `Q` says, whatever the other threads do meanwhile. -/
def Gives (A : Session → System σ → Prop) (m : SessionM α) (Q : α → Session → System σ → Prop) :
    Prop :=
  ∀ t s, A t s → (m.run t).Yields (fun r s => Q r.1 r.2 s) s

namespace Gives

variable {A : Session → System σ → Prop} {Q : α → Session → System σ → Prop}

/-- Returning a value gives what held before. -/
theorem pure {a : α} (h : ∀ t s, A t s → Q a t s) : Gives A (Pure.pure a) Q :=
  h

/-- Two steps in a row give what the second gives after the first. -/
theorem bind {R : β → Session → System σ → Prop} {m : SessionM α} {f : α → SessionM β}
    (hm : Gives A m Q) (hf : ∀ a, Gives (Q a) (f a) R) : Gives A (m >>= f) R :=
  fun t s h => (hm t s h).bind fun r s h => hf r.1 r.2 s h

/-- More may be assumed, and less claimed. -/
theorem mono {A' : Session → System σ → Prop} {Q' : α → Session → System σ → Prop} {m : SessionM α}
    (hm : Gives A m Q) (before : ∀ t s, A' t s → A t s) (after : ∀ a t s, Q a t s → Q' a t s) :
    Gives A' m Q' :=
  fun t s h => (hm t s (before t s h)).mono fun r s h => after r.1 r.2 s h

/-- Reading the session gives it as it is. -/
theorem get {Q : Session → Session → System σ → Prop} (h : ∀ t s, A t s → Q t t s) :
    Gives A (MonadState.get : SessionM Session) Q :=
  h

/-- Changing the session gives what holds of the changed one. -/
theorem modify {f : Session → Session} {Q : PUnit → Session → System σ → Prop}
    (h : ∀ t s, A t s → Q ⟨⟩ (f t) s) : Gives A (modify f : SessionM PUnit) Q :=
  h

/-- A program gives what it yields. -/
theorem lift {p : Program α} (h : ∀ t s, A t s → p.Yields (fun a s => Q a t s) s) :
    Gives A (StateT.lift p : SessionM α) Q :=
  fun t s ht => (h t s ht).bind fun _ _ h => h

/-- An action gives what holds after it, if what was assumed is stable until then. -/
theorem perform {a : Action} {Q : a.Result → Session → System σ → Prop}
    (stable : ∀ t, System.Stable (A t))
    (h : ∀ {t s r s'}, A t s → s.perform a = some (r, s') → Q r t s') :
    Gives A (Session.perform a) Q :=
  lift fun t _ ht => Program.yields_act (stable t) ht h

/-! ### Work on a request -/

/-- Work that is not on a request cannot fail. -/
theorem bindLift {R : Except RequestFailure β → Session → System σ → Prop} {m : SessionM α}
    {f : α → RequestM β} (hm : Gives A m Q) (hf : ∀ a, Gives (Q a) (f a).run R) :
    Gives A (ExceptT.lift m >>= f).run R := by
  rw [ExceptT.run_bind_lift]
  exact hm.bind hf

variable {Q : Except RequestFailure α → Session → System σ → Prop}

/-- A step of the session gives the same within a request. -/
theorem liftM {m : SessionM α} (hm : Gives A m fun a => Q (.ok a)) :
    Gives A (ExceptT.lift m : RequestM α).run Q :=
  hm.bind fun _ => .pure fun _ _ h => h

/-- Two steps of a request in a row give what the second gives after the first, or the failure of the first. -/
theorem bindExcept {R : Except RequestFailure β → Session → System σ → Prop} {m : RequestM α}
    {f : α → RequestM β} (hm : Gives A m.run Q) (hf : ∀ a, Gives (Q (.ok a)) (f a).run R)
    (failed : ∀ e t s, Q (.error e) t s → R (.error e) t s) : Gives A (m >>= f).run R := by
  rw [ExceptT.run_bind]
  refine hm.bind fun r => ?_
  cases r with
  | ok a => exact hf a
  | error e => exact .pure (failed e)

end Gives

/-- What the other threads and all actions of a kind keep is kept by work that uses these actions. -/
theorem Uses.gives {P : Action → Prop} {S : Session → Prop} {A : System σ → Prop} {m : SessionM α}
    (hm : Uses P S m) (stable : System.Stable A)
    (keeps : ∀ {a}, P a → ∀ {s r s'}, A s → s.perform a = some (r, s') → A s') :
    Gives (fun t s => S t ∧ A s) m fun _ t s => S t ∧ A s :=
  fun t _ h => (hm t h.1).yields stable keeps h.2

end Session

namespace SessionRun

variable {σ α : Type} [Engine σ] {r : SessionRun σ α} {Q : α → System σ → Prop}

/-- A turn of any thread leaves what the program yields. -/
theorem yields_step (stable : ∀ a, System.Stable (Q a)) (h : r.program.Yields Q r.system)
    (t : SessionThread) : (r.step t).program.Yields Q (r.step t).system := by
  -- what the other threads do comes before the next action of the program
  have others : ∀ {s'}, r.system.Meanwhile s' → r.program.Yields Q s' := by
    intro s' m
    obtain ⟨s, p⟩ := r
    cases p with
    | done a => exact (stable a).meanwhile h m
    | act a next => exact fun _ _ _ m' e => h _ _ _ (m.trans m') e
  -- only the thread of the requests takes an action of the program
  cases t with
  | forwarder => exact others (.forwarder .none)
  | engine => exact others (.engine .none)
  | requests =>
    obtain ⟨s, p⟩ := r
    cases p with
    | done a => exact h
    | act a next =>
      simp only [step, stepRequests]
      cases e : s.perform a with
      | none => exact h
      | some result => exact h _ _ _ .none e

/-- However the threads are scheduled, a program that is done has yielded what it yields. -/
theorem yields_run (stable : ∀ a, System.Stable (Q a)) (h : r.program.Yields Q r.system)
    (schedule : List SessionThread) :
    (r.run schedule).program.Yields Q (r.run schedule).system := by
  induction schedule generalizing r with
  | nil => exact h
  | cons t schedule ih => exact ih (yields_step stable h t)

/-- What all threads keep. -/
theorem all_step {P : Action → Prop} {R : α → Prop} {A : System σ → Prop} (stable : System.Stable A)
    (keeps : ∀ {a}, P a → ∀ {s r s'}, A s → s.perform a = some (r, s') → A s')
    (h : A r.system ∧ r.program.All P R) (t : SessionThread) :
    A (r.step t).system ∧ (r.step t).program.All P R := by
  -- the other threads take no action of the program
  cases t with
  | forwarder => exact ⟨stable.forwarder h.1, h.2⟩
  | engine => exact ⟨stable.engine h.1, h.2⟩
  | requests =>
    obtain ⟨s, p⟩ := r
    cases p with
    | done a => exact h
    | act a next =>
      simp only [step, stepRequests]
      cases e : s.perform a with
      | none => exact h
      | some result => exact ⟨keeps h.2.1 h.1 e, h.2.2 _⟩

/-- What all threads keep holds at any time. -/
theorem all_run {P : Action → Prop} {R : α → Prop} {A : System σ → Prop} (stable : System.Stable A)
    (keeps : ∀ {a}, P a → ∀ {s r s'}, A s → s.perform a = some (r, s') → A s')
    (h : A r.system ∧ r.program.All P R) (schedule : List SessionThread) :
    A (r.run schedule).system ∧ (r.run schedule).program.All P R := by
  induction schedule generalizing r with
  | nil => exact h
  | cons t schedule ih => exact ih (all_step stable keeps h t)

end SessionRun

end DebugAdapter
