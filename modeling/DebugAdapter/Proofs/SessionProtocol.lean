import DebugAdapter.Proofs.Interleaving

/-!
# Actions in order

Which actions a session may do depends on those it has done: a message is the answer to a request only
if the requests before it were answered. A `Protocol` says which actions may come next, by what is known
from the actions so far and from what they gave. A program follows a protocol if all its actions are such,
whatever they give.

So a protocol is a bridge. On the one side a program is taken apart, as it is written, by the rules of
`Session.Follows`. On the other side are its runs: alone, where anything may be given (`Program.play`), and
among the other threads of its session (`SessionRun`).

## Key results

- `Session.Follows.bind`, `Session.Follows.perform`, `Session.Follows.of_uses`: how to follow the work of
  a session
- `Session.follows_handle`: how to follow the work on a request
- `Program.Follows.play`, `SessionRun.follows_run`: what the allowed actions keep holds of every run
-/

namespace DebugAdapter

/-- Which actions may come next, and what is known when they were done. -/
structure Protocol (κ : Type) where
  allows : κ → Action → Prop
  next : κ → (a : Action) → a.Result → κ

/-- The action is allowed, and no more is known after it. -/
def Protocol.Quiet {κ : Type} (P : Protocol κ) (k : κ) (a : Action) : Prop :=
  P.allows k a ∧ ∀ r, P.next k a r = k

namespace Program

variable {κ α β : Type} {P : Protocol κ} {k : κ}

/-- All actions of a program are allowed when they are done, whatever they give, and its result is as `Q`
says. -/
def Follows (P : Protocol κ) (Q : α → κ → Prop) : Program α → κ → Prop
  | .done a, k => Q a k
  | .act a next, k => P.allows k a ∧ ∀ r, (next r).Follows P Q (P.next k a r)

/-- Two programs in a row follow a protocol if the second does after the first. -/
theorem Follows.bind {Q : α → κ → Prop} {R : β → κ → Prop} {p : Program α} {f : α → Program β}
    (hp : p.Follows P Q k) (hf : ∀ a k, Q a k → (f a).Follows P R k) : (p >>= f).Follows P R k := by
  induction p generalizing k with
  | done a => exact hf a k hp
  | act a next ih => exact ⟨hp.1, fun r => ih r (hp.2 r)⟩

/-- What a program ends with can be weakened. -/
theorem Follows.mono {Q Q' : α → κ → Prop} {p : Program α} (hp : p.Follows P Q k)
    (h : ∀ a k, Q a k → Q' a k) : p.Follows P Q' k := by
  induction p generalizing k with
  | done a => exact h a k hp
  | act a next ih => exact ⟨hp.1, fun r => ih r (hp.2 r)⟩

/-- After quiet actions no more is known. -/
theorem All.follows {A : Action → Prop} {Q : α → Prop} {p : Program α} (hp : p.All A Q)
    (quiet : ∀ {a}, A a → P.Quiet k a) : p.Follows P (fun a k' => Q a ∧ k' = k) k := by
  induction p with
  | done a => exact ⟨hp, rfl⟩
  | act a next ih =>
    obtain ⟨allowed, same⟩ := quiet hp.1
    refine ⟨allowed, fun r => ?_⟩
    rw [same]
    exact ih r (hp.2 r)

/-- A program alone, where `give` says what an action gives after those that were done before: the actions
that were done, and the result. -/
def play (give : List Action → (a : Action) → a.Result) (past : List Action) :
    Program α → List Action × α
  | .done a => (past, a)
  | .act a next => (next (give past a)).play give (past ++ [a])

/-- What the allowed actions keep holds when a program is done. -/
theorem Follows.play {Q : α → κ → Prop} {R : κ → List Action → Prop}
    (keeps : ∀ {k a past}, P.allows k a → R k past → ∀ r, R (P.next k a r) (past ++ [a]))
    {p : Program α} (hp : p.Follows P Q k) (past : List Action) (h : R k past)
    (give : List Action → (a : Action) → a.Result) :
    ∃ k', R k' (p.play give past).1 ∧ Q (p.play give past).2 k' := by
  induction p generalizing k past with
  | done a => exact ⟨k, h, hp⟩
  | act a next ih => exact ih _ (hp.2 _) _ (keeps hp.1 h _)

end Program

namespace Session

variable {κ α β : Type} {P : Protocol κ}

/-- Work of the session thread that begins as `A` says follows a protocol, and ends as `Q` says. -/
def Follows (P : Protocol κ) (A : Session → κ → Prop) (m : SessionM α)
    (Q : α → Session → κ → Prop) : Prop :=
  ∀ t k, A t k → (m.run t).Follows P (fun r k => Q r.1 r.2 k) k

namespace Follows

variable {A : Session → κ → Prop} {Q : α → Session → κ → Prop}

/-- Returning a value follows every protocol. -/
theorem pure {a : α} (h : ∀ t k, A t k → Q a t k) : Follows P A (Pure.pure a) Q :=
  h

/-- Two steps in a row follow a protocol if the second does after the first. -/
theorem bind {R : β → Session → κ → Prop} {m : SessionM α} {f : α → SessionM β}
    (hm : Follows P A m Q) (hf : ∀ a, Follows P (Q a) (f a) R) : Follows P A (m >>= f) R :=
  fun t k h => (hm t k h).bind fun r k h => hf r.1 r.2 k h

/-- More may be assumed, and less claimed. -/
theorem mono {A' : Session → κ → Prop} {Q' : α → Session → κ → Prop} {m : SessionM α}
    (hm : Follows P A m Q) (before : ∀ t k, A' t k → A t k) (after : ∀ a t k, Q a t k → Q' a t k) :
    Follows P A' m Q' :=
  fun t k h => (hm t k (before t k h)).mono fun r k h => after r.1 r.2 k h

/-- Reading the session follows every protocol. -/
theorem get {Q : Session → Session → κ → Prop} (h : ∀ t k, A t k → Q t t k) :
    Follows P A (MonadState.get : SessionM Session) Q :=
  h

/-- Changing the session follows every protocol. -/
theorem modify {f : Session → Session} {Q : PUnit → Session → κ → Prop}
    (h : ∀ t k, A t k → Q ⟨⟩ (f t) k) : Follows P A (modify f : SessionM PUnit) Q :=
  h

/-- A program of the session follows what it follows by itself. -/
theorem lift {p : Program α} (h : ∀ t k, A t k → p.Follows P (fun a k => Q a t k) k) :
    Follows P A (StateT.lift p : SessionM α) Q :=
  fun t k ht => (h t k ht).bind fun _ _ h => h

/-- An action follows a protocol that allows it. -/
theorem perform {a : Action} {Q : a.Result → Session → κ → Prop}
    (h : ∀ t k, A t k → P.allows k a ∧ ∀ r, Q r t (P.next k a r)) :
    Follows P A (Session.perform a) Q :=
  lift h

/-- A quiet action keeps to what is assumed. -/
theorem quiet {a : Action} (h : ∀ t k, A t k → P.Quiet k a) :
    Follows P A (Session.perform a) fun _ => A := by
  refine .perform fun t k ht => ⟨(h t k ht).1, fun r => ?_⟩
  rwa [(h t k ht).2 r]

/-! ### Work on a request -/

/-- Work that is not on a request cannot fail. -/
theorem bindLift {R : Except RequestFailure β → Session → κ → Prop} {m : SessionM α}
    {f : α → RequestM β} (hm : Follows P A m Q) (hf : ∀ a, Follows P (Q a) (f a).run R) :
    Follows P A (ExceptT.lift m >>= f).run R := by
  rw [ExceptT.run_bind_lift]
  exact hm.bind hf

/-- A step of the session follows the same within a request. -/
theorem liftM {Q : Except RequestFailure α → Session → κ → Prop} {m : SessionM α}
    (hm : Follows P A m fun a => Q (.ok a)) : Follows P A (ExceptT.lift m : RequestM α).run Q :=
  hm.bind fun _ => .pure fun _ _ h => h

/-- Two steps of a request in a row follow a protocol if the second does after the first, or the first fails. -/
theorem bindExcept {Q : Except RequestFailure α → Session → κ → Prop}
    {R : Except RequestFailure β → Session → κ → Prop} {m : RequestM α} {f : α → RequestM β}
    (hm : Follows P A m.run Q) (hf : ∀ a, Follows P (Q (.ok a)) (f a).run R)
    (failed : ∀ e t k, Q (.error e) t k → R (.error e) t k) : Follows P A (m >>= f).run R := by
  rw [ExceptT.run_bind]
  refine hm.bind fun r => ?_
  cases r with
  | ok a => exact hf a
  | error e => exact .pure (failed e)

/-- A request that may fail with a message follows every protocol. -/
theorem orFailWith (m : ErrorMessage) (o : Option α) :
    Follows P A (Session.orFailWith m o).run fun _ => A := by
  cases o <;> exact .pure fun _ _ h => h

end Follows

/-- Work by quiet actions, in which what is known of the session stays. -/
theorem Follows.of_uses {A : Action → Prop} {R : Session → κ → Prop} {m : SessionM α}
    (hm : ∀ k, Uses A (R · k) m) (quiet : ∀ {t k a}, R t k → A a → P.Quiet k a) :
    Follows P R m fun _ => R :=
  fun t k h => ((hm k t h).follows (quiet h)).mono fun r _ h => by rw [h.2]; exact h.1

/-! ### Requests -/

/-- After a request to begin the session: if it was carried out, an event waits to be sent. -/
def Begun (A : Session → κ → Prop) : Except RequestFailure (Option Json) → Session → κ → Prop
  | .ok _, t, k => ∃ t' : Session, A t' k ∧
      t = { t' with deferred := t'.deferred ++ [.ofJson "initialized" .null] }
  | .error _, t, k => A t k

/-- The request to initialize defers one event, and is quiet otherwise. -/
theorem follows_beginSession {A : Session → κ → Prop}
    (agree : ∀ {t t' k}, A t k → t.Agree t' → A t' k)
    (supported : ∀ {t k}, A t k → P.Quiet k .engineSupported)
    (advance : ∀ {t k} target, A t k → P.Quiet k (.updateState (SessionState.advanceTo target)))
    (r : Request) : Follows P A (beginSession r).run (Begun A) := by
  -- the event is kept back until the request is answered
  have announced : Follows P A (do
      Session.advanceTo .initialized
      modifyThe Session fun s => { s with deferred := s.deferred ++ [.ofJson "initialized" .null] }
      return some capabilities : RequestM (Option Json)).run (Begun A) := by
    have advanced : Follows P A (Session.advanceTo .initialized).run fun _ => A :=
      Follows.bindLift (.quiet fun _ _ h => advance _ h) fun _ => .pure fun _ _ h => h
    refine advanced.bindExcept (fun _ => ?_) fun _ _ _ h => h
    exact Follows.bindLift (.modify (Q := fun _ => Begun A (.ok none)) fun t _ h => ⟨t, h, rfl⟩)
      fun _ => .pure fun _ _ h => h
  -- from here it does not matter which format was named
  have begun : ∀ (engineName : String) (convention : Convention), Follows P A (do
      modifyThe Session fun s => { s with convention }
      if !(← Session.act .engineSupported) then
        Session.failWith ({ code := .platformNotSupported
                            format := "Engine '" ++ ErrorMessage.hole "_engine" ++ "' is not supported on '" ++
                              ErrorMessage.hole "_platform" ++ "' platform." : ErrorMessage }
          |>.withText "_engine" engineName |>.withText "_platform" "linux")
      Session.advanceTo .initialized
      modifyThe Session fun s => { s with deferred := s.deferred ++ [.ofJson "initialized" .null] }
      return some capabilities : RequestM (Option Json)).run (Begun A) := by
    intro engineName convention
    refine Follows.bindLift (.modify (Q := fun _ => A) fun _ _ h => agree h ⟨rfl, rfl, rfl⟩) fun _ => ?_
    refine Follows.bindLift (.quiet fun _ _ h => supported h) fun there => ?_
    split
    · -- a platform without an engine fails the request before anything is announced
      exact .pure fun _ _ h => h
    · exact announced
  refine Follows.bindLift (.get (Q := fun _ => A) fun _ _ h => h) fun s => ?_
  dsimp only
  split
  · exact (Follows.orFailWith _ _).bindExcept (fun format => begun _ _) fun _ _ _ h => h
  · exact begun _ _

/-- The event that waits to be sent when a request was carried out. -/
def eventAfter (r : Request) : Option Event :=
  if r.command = "initialize" then some (.ofJson "initialized" .null) else none

/-- A request to begin the session leaves an event to be sent when it was carried out, and the others
leave none. -/
theorem follows_dispatch {A : Session → κ → Prop} {r : Request}
    (agree : ∀ {t t' k}, A t k → t.Agree t' → A t' k)
    (defers : ∀ {t k} events, A t k → A { t with deferred := events } k)
    (supported : ∀ {t k}, A t k → P.Quiet k .engineSupported)
    (advance : ∀ {t k} target, A t k → P.Quiet k (.updateState (SessionState.advanceTo target)))
    (others : r.command ≠ "initialize" → Follows P (fun t k => t.deferred = [] ∧ A t k)
      (dispatch r).run fun _ t k => t.deferred = [] ∧ A t k) :
    Follows P (fun t k => t.deferred = [] ∧ A t k) (dispatch r).run fun result t k =>
      A t k ∧ ∀ body, result = .ok body → t.deferred = (eventAfter r).toList := by
  -- only the request to initialize defers an event
  by_cases begins : r.command = "initialize"
  · have begun : Follows P (fun t k => t.deferred = [] ∧ A t k) (beginSession r).run
        (Begun fun t k => t.deferred = [] ∧ A t k) :=
      follows_beginSession (fun h same => ⟨same.deferred.trans h.1, agree h.2 same⟩)
        (fun h => supported h.2) (fun _ h => advance _ h.2) r
    have same : dispatch r = beginSession r := by simp only [dispatch, begins]
    rw [same]
    refine begun.mono (fun _ _ h => h) fun result t k h => ?_
    cases result with
    -- a request that fails defers nothing
    | error failure => exact ⟨h.2, fun _ e => by cases e⟩
    | ok body =>
      obtain ⟨t', ⟨none, h⟩, rfl⟩ := h
      refine ⟨defers _ h, fun _ _ => ?_⟩
      rw [none, eventAfter, if_pos begins]
      rfl
  · refine (others begins).mono (fun _ _ h => h) fun result t k h => ⟨h.2, fun _ _ => ?_⟩
    rw [h.1, eventAfter, if_neg begins]
    rfl

/-- The event that waits is sent, if there is one. -/
private theorem follows_sendDeferred {A after : Session → κ → Prop} {event : Option Event}
    (none : event = none → ∀ {t k}, A t k → after { t with deferred := [] } k)
    (some : ∀ {e}, event = some e → ∀ {t k}, A t k → P.allows k (.send (.event e)) ∧
      ∀ x, after { t with deferred := [] } (P.next k (.send (.event e)) x)) :
    Follows P (fun t k => t.deferred = event.toList ∧ A t k) sendDeferred
      fun _ t k => t.deferred = [] ∧ after t k := by
  rintro ⟨config, engineName, environment, convention, sourceMap, started, forwarding, pending, configured,
    deferred⟩ k ⟨waiting, h⟩
  obtain rfl : deferred = event.toList := waiting
  cases event with
  | none => exact ⟨rfl, none rfl h⟩
  | some e => exact ⟨(some rfl h).1, fun x => ⟨rfl, (some rfl h).2 x⟩⟩

/-- A request is handled: it is carried out, and then the answer to it is allowed, and the event that
waits to be sent. -/
theorem follows_handle {before carried after : Session → κ → Prop} {r : Request}
    (drops : ∀ {t k}, carried t k → carried { t with deferred := [] } k)
    (logs : ∀ {t k}, before t k → ∀ record, P.Quiet k (.note record))
    (notes : ∀ {t k}, carried t k → ∀ record, P.Quiet k (.note record))
    (dispatched : Follows P (fun t k => t.deferred = [] ∧ before t k) (dispatch r).run fun result t k =>
      carried t k ∧ ∀ body, result = .ok body → t.deferred = (eventAfter r).toList)
    (failed : ∀ {t k}, carried t k → ∀ m, P.allows k (.send (.response (.error r m))) ∧
      ∀ x, after t (P.next k (.send (.response (.error r m))) x))
    (succeeded : ∀ {t k}, carried t k → ∀ body, P.allows k (.send (.response (.success r body))) ∧
      ∀ x, match eventAfter r with
        | none => after t (P.next k (.send (.response (.success r body))) x)
        | some e => P.allows (P.next k (.send (.response (.success r body))) x) (.send (.event e)) ∧
            ∀ y, after t (P.next (P.next k (.send (.response (.success r body))) x) (.send (.event e)) y)) :
    Follows P (fun t k => t.deferred = [] ∧ before t k) (handle r) fun _ t k =>
      t.deferred = [] ∧ after t k := by
  refine Follows.bind (.quiet fun t k h => logs h.2 _) fun _ => dispatched.bind fun result => ?_
  -- a request that succeeds is followed by the event that it has deferred, if any
  cases result with
  | ok body =>
    generalize eventAfter r = event at dispatched succeeded
    -- when the response was sent, the event is allowed
    let Responded := fun (t : Session) (k : κ) => match event with
      | none => after { t with deferred := [] } k
      | some e => P.allows k (.send (.event e)) ∧
          ∀ y, after { t with deferred := [] } (P.next k (.send (.event e)) y)
    refine Follows.bind (Q := fun _ t k => t.deferred = event.toList ∧ Responded t k)
      (.perform fun t k h => ?_) fun _ => ?_
    · obtain ⟨allowed, rest⟩ := succeeded (drops h.1) body
      exact ⟨allowed, fun x => ⟨h.2 body rfl, rest x⟩⟩
    · refine follows_sendDeferred ?_ ?_
      · rintro rfl t k h
        exact h
      · rintro e rfl t k h
        exact h
  -- a request that fails has its failure put in words, and drops what was deferred
  | error failure =>
    have message : Follows P carried (failureMessage r failure) fun _ => carried := by
      cases failure with
      | reported m => exact .pure fun _ _ h => h
      | other text => exact Follows.bind (.quiet fun _ _ h => notes h _) fun _ => .pure fun _ _ h => h
    refine Follows.bind (message.mono (fun _ _ h => h.1) fun _ _ _ h => h) fun m => ?_
    refine Follows.bind (.modify (Q := fun _ t k => t.deferred = [] ∧ carried t k)
      fun _ _ h => ⟨rfl, drops h⟩) fun _ => ?_
    refine Follows.bind (.quiet fun _ _ h => notes h.2 _) fun _ => ?_
    exact .perform fun t k h => ⟨(failed h.2 m).1, fun x => ⟨h.1, (failed h.2 m).2 x⟩⟩

end Session

namespace SessionRun

variable {σ κ α : Type} [Engine σ] {P : Protocol κ} {Q : α → κ → Prop} {r : SessionRun σ α} {k : κ}
variable {A : κ → System σ → Prop}

/-- A turn of any thread keeps to the protocol. -/
theorem follows_step (stable : ∀ k, System.Stable (A k))
    (keeps : ∀ {k a}, P.allows k a → ∀ {s r s'}, A k s → s.perform a = some (r, s') → A (P.next k a r) s')
    (h : A k r.system ∧ r.program.Follows P Q k) (t : SessionThread) :
    ∃ k, A k (r.step t).system ∧ (r.step t).program.Follows P Q k := by
  -- only the thread of the requests is bound to the protocol
  cases t with
  | forwarder => exact ⟨k, (stable k).forwarder h.1, h.2⟩
  | engine => exact ⟨k, (stable k).engine h.1, h.2⟩
  | requests =>
    obtain ⟨s, p⟩ := r
    cases p with
    | done a => exact ⟨k, h⟩
    | act a next =>
      simp only [step, stepRequests]
      cases e : s.perform a with
      | none => exact ⟨k, h⟩
      | some result => exact ⟨_, keeps h.2.1 h.1 e, h.2.2 _⟩

/-- What the other threads and the allowed actions keep holds at any time. -/
theorem follows_run (stable : ∀ k, System.Stable (A k))
    (keeps : ∀ {k a}, P.allows k a → ∀ {s r s'}, A k s → s.perform a = some (r, s') → A (P.next k a r) s')
    (h : A k r.system ∧ r.program.Follows P Q k) (schedule : List SessionThread) :
    ∃ k, A k (r.run schedule).system ∧ (r.run schedule).program.Follows P Q k := by
  induction schedule generalizing r k with
  | nil => exact ⟨k, h⟩
  | cons t schedule ih =>
    obtain ⟨k', h'⟩ := follows_step stable keeps h t
    exact ih h'

end SessionRun

end DebugAdapter
