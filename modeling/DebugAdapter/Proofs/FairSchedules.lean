import DebugAdapter.Proofs.CommandsWhileHeld
import DebugAdapter.Proofs.DebuggeeStart

/-!
# Fair schedules

An action that waits for the engine thread holds up its program until that thread has come far enough. If
each thread makes steps again and again (`SessionThread.Fair`), and each action that waits needs no more than
some steps of the engine thread (`System.Frees`), then the program is done some day. A command that is carried
out while nothing else is asked of the engine thread waits for a few such steps only.

## Key results

- `SessionRun.exists_done`: a program that proceeds is done some day, however the threads are scheduled
- `Session.Does.bind`: work that proceeds, and gives what it is to give, step by step
- `Session.does_command?`: a command that is answered while nothing else is asked of the engine thread
-/

namespace DebugAdapter

variable {σ : Type} [Engine σ]

/-! ## Actions that wait -/

/-- The action waits for another thread. -/
def Action.Waits : Action → Prop
  | await _ | awaitEnd | joinForwarder => True
  | _ => False

namespace System

variable {s s' : System σ} {a : Action}

/-- An action that does not wait can be performed at any time. -/
theorem perform_ne_none (goesOn : ¬a.Waits) : s.perform a ≠ none := by
  cases a <;> first | exact Option.some_ne_none _ | exact absurd trivial goesOn

/-- The forwarder and the engine thread make one system of another, with this many steps of the engine
thread. -/
inductive Ahead (s : System σ) : Nat → System σ → Prop
  | none : Ahead s 0 s
  | forwarder {n : Nat} {s' : System σ} (h : Ahead s n s') : Ahead s n s'.stepForwarder
  | engine {n : Nat} {s' : System σ} (h : Ahead s n s') : Ahead s (n + 1) s'.stepEngine

/-- The steps of the other threads are what happens in between. -/
theorem Ahead.meanwhile {n : Nat} (h : s.Ahead n s') : s.Meanwhile s' := by
  induction h with
  | none => exact .none
  | forwarder _ ih => exact ih.forwarder
  | engine _ ih => exact ih.engine

/-- The action has not to wait any more when the engine thread has made `n` steps. -/
def Frees (a : Action) (n : Nat) (s : System σ) : Prop :=
  ∀ m s', s.Ahead m s' → n ≤ m → s'.perform a ≠ none

/-- An action that does not wait is free at once. -/
theorem frees_of_not_waits (goesOn : ¬a.Waits) (n : Nat) : s.Frees a n :=
  fun _ _ _ _ => perform_ne_none goesOn

end System

/-! ## Programs -/

namespace Program

variable {α β : Type} {s : System σ}

/-- No action of a program is held up for ever, whatever the other threads do. -/
def Proceeds : Program α → System σ → Prop
  | .done _, _ => True
  | .act a next, s => (∃ n, s.Frees a n) ∧
      ∀ s' r s'', s.Meanwhile s' → s'.perform a = some (r, s'') → (next r).Proceeds s''

/-- Two programs in a row proceed if the second does after the first. -/
theorem Proceeds.bind {Q : α → System σ → Prop} {p : Program α} {f : α → Program β} (hp : p.Proceeds s)
    (yields : p.Yields Q s) (hf : ∀ a s, Q a s → (f a).Proceeds s) : (p >>= f).Proceeds s := by
  induction p generalizing s with
  | done a => exact hf a s yields
  | act a next ih => exact ⟨hp.1, fun _ _ _ m e => ih _ (hp.2 _ _ _ m e) (yields _ _ _ m e)⟩

/-- A program of actions that do not wait. -/
theorem All.proceeds {P : Action → Prop} {Q : α → Prop} {p : Program α} (hp : p.All P Q)
    (goesOn : ∀ a, P a → ¬a.Waits) (s : System σ) : p.Proceeds s := by
  induction p generalizing s with
  | done a => trivial
  | act a next ih =>
    exact ⟨⟨0, System.frees_of_not_waits (goesOn a hp.1) 0⟩, fun _ r s'' _ _ => ih r (hp.2 r) s''⟩

end Program

/-! ## Schedules -/

namespace SessionThread

/-- Each thread makes steps again and again. -/
def Fair (f : Nat → SessionThread) : Prop :=
  ∀ t n, ∃ m, n ≤ m ∧ f m = t

/-- How many of the first `n` steps are those of the engine thread. -/
def engineSteps (f : Nat → SessionThread) (n : Nat) : Nat :=
  (List.range n).countP (f · = .engine)

variable {f : Nat → SessionThread}

/-- One more step of the schedule is one more of the engine, or not. -/
theorem engineSteps_succ (f : Nat → SessionThread) (n : Nat) :
    engineSteps f (n + 1) = engineSteps f n + if f n = .engine then 1 else 0 := by
  simp [engineSteps, List.range_succ]

/-- The engine has taken no fewer steps later. -/
theorem engineSteps_le {n m : Nat} (later : n ≤ m) : engineSteps f n ≤ engineSteps f m := by
  induction later with
  | refl => exact Nat.le_refl _
  | step _ ih => rw [engineSteps_succ]; omega

namespace Fair

/-- A fair schedule is fair from any moment on. -/
theorem shift (fair : Fair f) (k : Nat) : Fair fun n => f (k + n) := by
  intro t n
  obtain ⟨m, later, same⟩ := fair t (k + n)
  have sum : k + (m - k) = m := Nat.add_sub_of_le (by omega)
  exact ⟨m - k, by omega, (congrArg f sum).trans same⟩

/-- The engine thread makes any number of steps. -/
theorem exists_engineSteps (fair : Fair f) (n : Nat) : ∃ k, n ≤ engineSteps f k := by
  induction n with
  | zero => exact ⟨0, Nat.zero_le _⟩
  | succ n ih =>
    obtain ⟨k, enough⟩ := ih
    obtain ⟨m, later, engine⟩ := fair .engine k
    refine ⟨m + 1, ?_⟩
    have before := engineSteps_le (f := f) later
    rw [engineSteps_succ, if_pos engine]
    omega

end Fair

end SessionThread

namespace SessionRun

open SessionThread

variable {α : Type} {f : Nat → SessionThread}

/-- The state after the first `n` steps of a schedule. -/
def after (r : SessionRun σ α) (f : Nat → SessionThread) (n : Nat) : SessionRun σ α :=
  r.run ((List.range n).map f)

/-- One more step of the schedule is one more step of the run. -/
theorem after_succ (r : SessionRun σ α) (f : Nat → SessionThread) (n : Nat) :
    r.after f (n + 1) = (r.after f n).step (f n) := by
  rw [after, List.range_succ, List.map_append, run_append]
  rfl

/-- A run goes on by the rest of the schedule. -/
theorem after_add (r : SessionRun σ α) (f : Nat → SessionThread) (n m : Nat) :
    r.after f (n + m) = (r.after f n).after (fun k => f (n + k)) m := by
  induction m with
  | zero => rfl
  | succ m ih => rw [← Nat.add_assoc, after_succ, after_succ, ih]

variable {s : System σ} {a : Action}

/-- An action that is to be performed was performed at some time, or is still to be performed, and the
other threads have made their steps. -/
private theorem performed_or_ahead (next : a.Result → Program α) (f : Nat → SessionThread) (n : Nat) :
    (∃ k s' result s'', s.Meanwhile s' ∧ s'.perform a = some (result, s'') ∧
      (⟨s, .act a next⟩ : SessionRun σ α).after f k = ⟨s'', next result⟩) ∨
    ∃ s', s.Ahead (engineSteps f n) s' ∧
      (⟨s, .act a next⟩ : SessionRun σ α).after f n = ⟨s', .act a next⟩ := by
  -- by induction on the steps that were made: until it is performed, only the other threads move
  induction n with
  | zero => exact .inr ⟨s, .none, rfl⟩
  | succ n ih =>
    -- what is performed already needs no further step
    rcases ih with done | ⟨s', ahead, still⟩
    · exact .inl done
    have step := (after_succ ⟨s, .act a next⟩ f n).trans (congrArg (·.step (f n)) still)
    rw [engineSteps_succ]
    -- it is the turn of the requests, of the forwarder, or of the engine
    cases turn : f n with
    | requests =>
      rw [turn] at step
      simp only [SessionRun.step, stepRequests] at step
      cases e : s'.perform a with
      | none =>
        rw [e] at step
        exact .inr ⟨s', ahead, step⟩
      | some done =>
        rw [e] at step
        exact .inl ⟨n + 1, s', done.1, done.2, ahead.meanwhile, e, step⟩
    | forwarder =>
      rw [turn] at step
      exact .inr ⟨_, ahead.forwarder, step⟩
    | engine =>
      rw [turn] at step
      exact .inr ⟨_, ahead.engine, step⟩

/-- An action that is not held up for ever is performed at some time. -/
private theorem exists_performed (next : a.Result → Program α) (fair : Fair f) {n : Nat}
    (frees : s.Frees a n) :
    ∃ k s' result s'', s.Meanwhile s' ∧ s'.perform a = some (result, s'') ∧
      (⟨s, .act a next⟩ : SessionRun σ α).after f k = ⟨s'', next result⟩ := by
  -- the turn to perform it comes when the engine thread has made enough steps
  obtain ⟨k, enough⟩ := fair.exists_engineSteps n
  obtain ⟨m, later, turn⟩ := fair .requests k
  rcases performed_or_ahead (s := s) next f m with done | ⟨s', ahead, still⟩
  · exact done
  · have free := frees _ s' ahead (Nat.le_trans enough (engineSteps_le later))
    obtain ⟨⟨result, s''⟩, e⟩ := Option.ne_none_iff_exists'.1 free
    refine ⟨m + 1, s', result, s'', ahead.meanwhile, e, ?_⟩
    rw [after_succ, still, turn]
    simp only [step, stepRequests, e]

/-- However the threads are scheduled, as long as each of them makes steps again and again, a program whose
actions are not held up for ever is done at some time. -/
theorem exists_done (fair : Fair f) {r : SessionRun σ α} (h : r.program.Proceeds r.system) :
    ∃ n, (r.after f n).program.isDone = true := by
  obtain ⟨s, p⟩ := r
  -- what is left of a schedule after an action is fair as well, so the induction is on the program
  induction p generalizing s f with
  | done a => exact ⟨0, rfl⟩
  | act a next ih =>
    obtain ⟨⟨n, frees⟩, goesOn⟩ := h
    obtain ⟨k, s', result, s'', m, e, performed⟩ := exists_performed next fair frees
    obtain ⟨n, done⟩ := ih result (fair.shift k) s'' (goesOn s' result s'' m e)
    refine ⟨k + n, ?_⟩
    rw [after_add, performed]
    exact done

end SessionRun

/-! ## Work of a session -/

namespace System

variable {E P : Worker σ → Prop} {Q : Reply → Worker σ → Prop} {R : Reply → System σ → Prop} {c : Command}
  {B : System σ → Prop} {s : System σ} {ticket : Ticket}

/-- A command that starts no debuggee is answered when the engine thread has made some steps. -/
theorem Awaits.frees (around : Surrounds E B) (idles : Worker.Idles P) (published : ∀ w, P w → E w)
    (output : ∀ w, w.OnlyOutput → E w) (call : Worker.CarriesOut P (fun _ _ => False) Q c)
    (h : s.Awaits P (fun _ _ => False) Q c ticket B R) : ∃ n, s.Frees (.await ticket) n := by
  -- what is left to do becomes less with each step of the engine thread
  have closer : ∃ n, ∀ m s', s.Ahead m s' →
      s'.Amid (fun g => g.Asked P (fun _ _ => False) Q c ticket ∧
        Gateway.stepsAhead g.phase + m < n) B ∨ ∃ r, s'.Answered ticket r := by
    rcases h with asked | ⟨r, answered, -⟩
    · obtain ⟨g, gateway, asks⟩ := asked.gateway
      refine ⟨Gateway.stepsAhead g.phase + 1, fun m s' ahead => ?_⟩
      -- the forwarder leaves the measure as it is, and the engine thread lowers it or answers
      induction ahead with
      | none => exact .inl ⟨⟨g, gateway, asks, Nat.lt_succ_self _⟩, asked.rest⟩
      | forwarder _ ih =>
        refine ih.imp (fun asked => ?_) fun ⟨r, answered⟩ => ⟨r, (stable_answered ticket r).forwarder answered⟩
        exact asked.stepForwarder around fun _ h => h.1.published published output call
      | engine _ ih =>
        rcases ih with asked | ⟨r, answered⟩
        · obtain ⟨g', gateway', asks', before⟩ := asked.gateway
          rcases Amid.asked_stepEngine around idles call gateway' asks' asked.rest with asked | ⟨r, answered, -⟩
          · refine .inl (asked.mono fun g'' after => ⟨after.1, ?_⟩)
            rcases after.2 with less | ⟨_, _, none⟩
            · omega
            · exact none.elim
          · exact .inr ⟨r, answered⟩
        · exact .inr ⟨r, (stable_answered ticket r).engine answered⟩
    · refine ⟨0, fun m s' ahead => .inr ⟨r, ?_⟩⟩
      exact (stable_answered ticket r).meanwhile answered ahead.meanwhile
  -- after that many steps of the engine thread, the only way left is that the answer was given
  obtain ⟨n, closer⟩ := closer
  refine ⟨n, fun m s' ahead enough => ?_⟩
  rcases closer m s' ahead with asked | ⟨r, answered⟩
  · obtain ⟨g, -, -, less⟩ := asked.gateway
    omega
  · rw [answered.perform]
    exact Option.some_ne_none _

end System

namespace Session

variable {α β : Type} {A : Session → System σ → Prop} {Q : α → Session → System σ → Prop}

/-- Work that begins in a session and a system as `A` says is not held up for ever, and leaves a result, a
session and a system as `Q` says. -/
structure Does (A : Session → System σ → Prop) (m : SessionM α) (Q : α → Session → System σ → Prop) :
    Prop where
  gives : Gives A m Q
  proceeds : ∀ t s, A t s → (m.run t).Proceeds s

namespace Does

/-- Returning a value does what holds before. -/
theorem pure {a : α} (h : ∀ t s, A t s → Q a t s) : Does A (Pure.pure a) Q :=
  ⟨.pure h, fun _ _ _ => trivial⟩

/-- Two steps in a row do what the second does after the first. -/
theorem bind {R : β → Session → System σ → Prop} {m : SessionM α} {f : α → SessionM β}
    (hm : Does A m Q) (hf : ∀ a, Does (Q a) (f a) R) : Does A (m >>= f) R where
  gives := hm.gives.bind fun a => (hf a).gives
  proceeds t s h := (hm.proceeds t s h).bind (hm.gives t s h) fun r s h => (hf r.1).proceeds r.2 s h

/-- More may be assumed, and less claimed. -/
theorem mono {A' : Session → System σ → Prop} {Q' : α → Session → System σ → Prop} {m : SessionM α}
    (hm : Does A m Q) (before : ∀ t s, A' t s → A t s) (after : ∀ a t s, Q a t s → Q' a t s) :
    Does A' m Q' :=
  ⟨hm.gives.mono before after, fun t s h => hm.proceeds t s (before t s h)⟩

/-- An action does what holds after it, if it gets free at some time. -/
theorem perform {a : Action} {Q : a.Result → Session → System σ → Prop}
    (stable : ∀ t, System.Stable (A t)) (free : ∀ t s, A t s → ∃ n, s.Frees a n)
    (h : ∀ {t s r s'}, A t s → s.perform a = some (r, s') → Q r t s') : Does A (Session.perform a) Q where
  gives := .perform stable h
  proceeds t s ht := ⟨free t s ht, fun _ _ _ _ _ => trivial⟩

/-- What is known before the work may be used to show what the work does. -/
theorem const {p : Prop} {m : SessionM α} (hm : p → Does A m Q) : Does (fun t s => p ∧ A t s) m Q :=
  ⟨fun t s h => (hm h.1).gives t s h.2, fun t s h => (hm h.1).proceeds t s h.2⟩

/-- What is done for every member of a family is done for some member. -/
theorem ofExists {ι : Type} {A : ι → Session → System σ → Prop} {m : SessionM α}
    (hm : ∀ i, Does (A i) m Q) : Does (fun t s => ∃ i, A i t s) m Q :=
  ⟨fun t s ⟨i, h⟩ => (hm i).gives t s h, fun t s ⟨i, h⟩ => (hm i).proceeds t s h⟩

/-- Reading the session does not wait. -/
theorem get {Q : Session → Session → System σ → Prop} (h : ∀ t s, A t s → Q t t s) :
    Does A (MonadState.get : SessionM Session) Q :=
  ⟨.get h, fun _ _ _ => trivial⟩

/-- Changing the session does not wait. -/
theorem modify {f : Session → Session} {Q : PUnit → Session → System σ → Prop}
    (h : ∀ t s, A t s → Q ⟨⟩ (f t) s) : Does A (modify f : SessionM PUnit) Q :=
  ⟨.modify h, fun _ _ _ => trivial⟩

/-! ### Work on a request -/

/-- A step of the session does the same within a request. -/
theorem bindLift {R : Except RequestFailure β → Session → System σ → Prop} {m : SessionM α}
    {f : α → RequestM β} (hm : Does A m Q) (hf : ∀ a, Does (Q a) (f a).run R) :
    Does A (ExceptT.lift m >>= f).run R := by
  rw [ExceptT.run_bind_lift]
  exact hm.bind hf

/-- A request that returns a value does not wait. -/
theorem ok {Q : Except RequestFailure α → Session → System σ → Prop} {a : α}
    (h : ∀ t s, A t s → Q (.ok a) t s) : Does A (Pure.pure a : RequestM α).run Q :=
  .pure h

/-- Two steps of a request in a row do what the second does after the first, or the failure of the first. -/
theorem bindExcept {Q : Except RequestFailure α → Session → System σ → Prop}
    {R : Except RequestFailure β → Session → System σ → Prop} {m : RequestM α} {f : α → RequestM β}
    (hm : Does A m.run Q) (hf : ∀ a, Does (Q (.ok a)) (f a).run R)
    (failed : ∀ e t s, Q (.error e) t s → R (.error e) t s) : Does A (m >>= f).run R := by
  rw [ExceptT.run_bind]
  refine hm.bind fun r => ?_
  cases r with
  | ok a => exact hf a
  | error e => exact .pure (failed e)

end Does

/-- A command that starts no debuggee, and is carried out while nothing else is asked of the engine thread,
gets its answer. -/
theorem does_command? {E P : Worker σ → Prop} {Q : Reply → Worker σ → Prop} {R : Reply → System σ → Prop}
    {T : Session → Prop} {c : Command} {B : System σ → Prop} (around : System.Surrounds E B)
    (idles : Worker.Idles P) (published : ∀ w, P w → E w) (output : ∀ w, w.OnlyOutput → E w)
    (call : Worker.CarriesOut P (fun _ _ => False) Q c) (stable : ∀ r, System.Stable (R r))
    (answered : ∀ r s, s.Amid (Gateway.Replied (Q r)) B → R r s) (plain : c ≠ .pause ∧ c ≠ .terminate) :
    Does (fun t s => T t ∧ s.Amid (Gateway.Resting P) B) (Session.command? c)
      fun result t s => T t ∧ ∃ r, result = some r ∧ R r s := by
  have submits := gives_submit_amid (T := T) (S := fun _ _ => False) (Q := Q) (R := R) around idles published
    plain.2
  have submitted : Does (fun t s => T t ∧ s.Amid (Gateway.Resting P) B) (Session.perform (.submit c))
      fun result t s => T t ∧ ∃ ticket, result = some ticket ∧
        s.Awaits P (fun _ _ => False) Q c ticket B R :=
    ⟨submits, fun _ _ _ => ⟨⟨0, System.frees_of_not_waits id 0⟩, fun _ _ _ _ _ => trivial⟩⟩
  -- submitting never waits, and awaiting ends because the engine thread gives the answer of itself
  refine submitted.bind fun result => ?_
  cases result with
  | none => exact .pure fun _ _ ⟨_, _, given, _⟩ => nomatch given
  -- a command of this kind interrupts nothing, so its answer is awaited at once
  | some ticket =>
    dsimp only
    rw [if_neg (not_or.2 plain)]
    have awaits := gives_await_amid (T := T) around idles published output call stable answered ticket
    have waited : Does (fun t s => T t ∧ s.Awaits P (fun _ _ => False) Q c ticket B R)
        (Session.perform (.await ticket)) fun result t s => T t ∧ ∃ r, result = some r ∧ R r s :=
      ⟨awaits, fun _ _ h => ⟨h.2.frees around idles published output call, fun _ _ _ _ _ => trivial⟩⟩
    refine (waited.mono ?_ fun _ _ _ h => h).bind fun result => .pure ?_
    · rintro t s ⟨ht, ticket', same, awaits⟩
      exact ⟨ht, Option.some.inj same ▸ awaits⟩
    · rintro t s ⟨ht, r, rfl, known⟩
      exact ⟨ht, r, rfl, known⟩

end Session

end DebugAdapter
