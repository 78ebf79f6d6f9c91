import DebugAdapter.Proofs.Forwarding

/-!
# Sessions without a debuggee

Between two requests, a session that has no debuggee has no gateway either, unless it is over
(`Session.Bare`). Once a session is over it stays so, since no action takes that back.

## Key results

- `System.Ended.perform`, `System.stable_ended`: a session that is over stays so
- `System.Holds.perform`, `System.stable_holds`: what all actions at a gateway keep
- `Session.Uses.bare`: requests that neither start a debuggee nor end the session keep what is known of
  it
-/

namespace DebugAdapter

variable {σ : Type} [Engine σ]

/-- Forwarding an event is tame. -/
theorem Session.tame_forward (e : GatewayEvent) : (forward e).All Action.Tame fun _ => True :=
  (careful_forward e).tame (tells_forward e)

/-- What all actions at a gateway keep holds after a history. -/
theorem Gateway.run_of_acts {P : Gateway σ → Prop} (acts : ∀ {g}, P g → ∀ a, P (g.act a))
    {g : Gateway σ} (h : P g) (history : List GatewayAction) : P (g.run history) := by
  induction history generalizing g with
  | nil => exact h
  | cons a history ih => exact ih (acts h a)

namespace System

variable {s s' : System σ}

/-- There is no gateway. -/
structure NoGateway (s : System σ) : Prop where
  gateway : s.gateway = none
  forwarder : s.forwarder = .done ()

/-- The forwarder makes no gateway, and does not take back that the session is over. -/
def Tame (s : System σ) : Prop :=
  s.forwarder.All Action.Tame fun _ => True

/-- The session is over. -/
structure Ended (s : System σ) : Prop where
  tame : s.Tame
  state : s.state = .terminated

omit [Engine σ] in
/-- Without a gateway there is nothing to forward. -/
theorem NoGateway.tame (h : s.NoGateway) : s.Tame := by
  rw [Tame, h.forwarder]
  trivial

/-! ### What the other threads keep -/

/-- Without a gateway there is nothing to forward. -/
theorem NoGateway.stepForwarder_eq (h : s.NoGateway) : s.stepForwarder = s := by
  have none : s.nextEvent? = none := by rw [nextEvent?, h.gateway]; rfl
  simp only [stepForwarder, h.forwarder, none]

/-- The other threads open no gateway. -/
theorem stable_noGateway : Stable (NoGateway (σ := σ)) where
  forwarder := by
    intro s h
    rwa [h.stepForwarder_eq]
  engine := by
    intro s h
    exact { h with gateway := by rw [stepEngine, onGateway, h.gateway]; rfl }

/-- What is left of a tame forwarder is tame. -/
private theorem Tame.stepForwarder (h : s.Tame) : s.stepForwarder.Tame := by
  rcases s.stepForwarder_cases with ⟨a, next, r, s', hf, -, step⟩ | ⟨event, -, -, step⟩ | step
  · rw [Tame, hf] at h
    rw [step]
    exact h.2 r
  · rw [step]
    exact Session.tame_forward event
  · rwa [step]

/-- The forwarder stays tame. -/
theorem stable_tame : Stable (Tame (σ := σ)) where
  forwarder := Tame.stepForwarder
  engine := id

/-- The forwarder makes no gateway, and the gateway is as `P` says. -/
structure Holds (P : Gateway σ → Prop) (s : System σ) : Prop where
  tame : s.Tame
  gateway : ∀ g, s.gateway = some g → P g

section

variable {P : Gateway σ → Prop} (acts : ∀ {g}, P g → ∀ a, P (g.act a))
include acts

/-- What is known of the gateway is so after an action. -/
private theorem Holds.run (h : s.Holds P) {a : Action} {r : a.Result} (e : s.perform a = some (r, s'))
    (on : ¬a.Opens) (g : Gateway σ) (hg : s'.gateway = some g) : P g := by
  rw [(perform_frame e on).1, Option.map_eq_some_iff] at hg
  obtain ⟨g₀, hg₀, rfl⟩ := hg
  exact Gateway.run_of_acts acts (h.gateway g₀ hg₀) a.atGateway

/-- What all actions at a gateway keep is kept by the forwarder and the engine thread. -/
theorem stable_holds : Stable (Holds P) where
  forwarder := by
    intro s h
    refine ⟨h.tame.stepForwarder, ?_⟩
    -- the forwarder acts, takes an event, or waits
    rcases s.stepForwarder_cases with ⟨a, next, r, s', hf, e, step⟩ | ⟨event, -, -, step⟩ | step
    · have tame := h.tame
      rw [Tame, hf] at tame
      have kept := h.run acts e tame.1.not_opens
      rw [step]
      exact kept
    · rw [step]
      exact h.gateway
    · rw [step]
      exact h.gateway
  engine := by
    intro s h
    refine ⟨h.tame, fun g hg => ?_⟩
    rw [stepEngine, onGateway, Option.map_eq_some_iff] at hg
    obtain ⟨g₀, hg₀, rfl⟩ := hg
    exact acts (h.gateway g₀ hg₀) .advance

end

/-- A session that has ended stays so. -/
theorem stable_ended : Stable (Ended (σ := σ)) where
  forwarder := by
    intro s h
    refine ⟨h.tame.stepForwarder, ?_⟩
    -- what a tame forwarder does leaves an end that has come
    rcases s.stepForwarder_cases with ⟨a, next, r, s', hf, e, step⟩ | ⟨event, -, -, step⟩ | step
    · have tame := h.tame
      rw [Tame, hf] at tame
      have state := (perform_shown e).1
      rw [h.state, tame.1.lasts] at state
      rw [step]
      exact state
    · rw [step]
      exact h.state
    · rw [step]
      exact h.state
  engine := fun h => ⟨h.tame, h.state⟩

/-! ### What actions keep -/

variable {a : Action} {r : a.Result}

/-- An action that does not open a gateway leaves a system without one. -/
theorem NoGateway.perform (h : s.NoGateway) (e : s.perform a = some (r, s')) (on : ¬a.Opens) :
    s'.NoGateway := by
  obtain ⟨gateway, forwarder, -⟩ := perform_frame e on
  refine ⟨?_, forwarder.trans h.forwarder⟩
  rw [gateway, h.gateway]
  rfl

/-- Actions of a session leave the forwarder tame. -/
theorem Tame.perform (h : s.Tame) (e : s.perform a = some (r, s')) : s'.Tame := by
  rcases perform_forwarder e with same | anew
  · rw [Tame, same]
    exact h
  · rw [Tame, anew]
    trivial

/-- Actions at the gateway keep what they keep one by one. -/
theorem Holds.perform {P : Gateway σ → Prop} (acts : ∀ {g}, P g → ∀ a, P (g.act a)) (h : s.Holds P)
    (e : s.perform a = some (r, s')) (on : ¬a.Opens) : s'.Holds P :=
  ⟨h.tame.perform e, h.run acts e on⟩

/-- A session that has ended stays so through an action that does not take it back. -/
theorem Ended.perform (h : s.Ended) (e : s.perform a = some (r, s'))
    (lasts : a.stateAfter .terminated = .terminated) : s'.Ended := by
  refine ⟨h.tame.perform e, ?_⟩
  rw [(perform_shown e).1, h.state]
  exact lasts

end System

namespace Session

/-- Without a debuggee there is no gateway, unless the session is over. -/
def Bare (t : Session) (s : System σ) : Prop :=
  s.NoGateway ∨ s.Ended ∨ s.Tame ∧ t.started = true

/-- What is known between two requests stays known while the other threads go on. -/
theorem stable_bare (t : Session) : System.Stable (t.Bare (σ := σ)) :=
  System.stable_noGateway.or (System.stable_ended.or ⟨fun h => ⟨h.1.stepForwarder, h.2⟩, id⟩)

/-- Requests that neither start a debuggee nor end the session make no gateways. -/
theorem ordinaryUse_tame {S : Session → Prop}
    (keeps : ∀ {t t' : Session}, S t → t'.started = t.started → S t') :
    OrdinaryUse Action.Tame S where
  read := ⟨id, rfl⟩
  advance := fun _ => ⟨id, rfl⟩
  continued := fun _ => ⟨id, rfl⟩
  note := fun _ => ⟨id, rfl⟩
  -- a call opens no gateway and leaves the state as it is
  calls := by
    intro a h
    cases a <;> first | exact ⟨id, rfl⟩ | exact False.elim h
  keeps := fun h agree => keeps h agree.started
  respond := fun _ => ⟨id, rfl⟩
  sendable := fun _ _ _ => ⟨id, rfl⟩
  drops := fun h => keeps h rfl
  supported := ⟨id, rfl⟩
  announces := fun h => keeps h rfl

/-- What tame actions keep, and the sessions without a debuggee, are kept by work that uses tame actions
and does not change whether there is a debuggee. -/
theorem Uses.bare {α : Type} {m : SessionM α}
    (hm : ∀ {S : Session → Prop}, (∀ {t t' : Session}, S t → t'.started = t.started → S t') →
      Uses Action.Tame S m) {A : System σ → Prop} (stable : System.Stable A)
    (keeps : ∀ {a : Action}, a.Tame → ∀ {s r s'}, A s → s.perform a = some (r, s') → A s') :
    Gives (fun t s => t.Bare s ∧ A s) m fun _ t s => t.Bare s ∧ A s := by
  -- what is known before the request is known after it, each of the three for itself
  rintro t s ⟨bare | ended | ⟨tame, started⟩, h⟩
  · have hm := hm (S := fun _ => True) fun _ _ => trivial
    have keeps : ∀ {a : Action}, a.Tame → ∀ {s r s'}, s.NoGateway ∧ A s →
        s.perform a = some (r, s') → s'.NoGateway ∧ A s' :=
      fun ha => fun h e => ⟨h.1.perform e ha.not_opens, keeps ha h.2 e⟩
    exact ((hm.gives (System.stable_noGateway.and stable) keeps) t s ⟨trivial, bare, h⟩).mono
      fun _ _ h => ⟨.inl h.2.1, h.2.2⟩
  · have hm := hm (S := fun _ => True) fun _ _ => trivial
    have keeps : ∀ {a : Action}, a.Tame → ∀ {s r s'}, s.Ended ∧ A s →
        s.perform a = some (r, s') → s'.Ended ∧ A s' :=
      fun ha => fun h e => ⟨h.1.perform e ha.lasts, keeps ha h.2 e⟩
    exact ((hm.gives (System.stable_ended.and stable) keeps) t s ⟨trivial, ended, h⟩).mono
      fun _ _ h => ⟨.inr (.inl h.2.1), h.2.2⟩
  · -- a debuggee that was started before stays started
    have hm := hm (S := fun t => t.started = true) fun h started => started.trans h
    have keeps : ∀ {a : Action}, a.Tame → ∀ {s r s'}, s.Tame ∧ A s →
        s.perform a = some (r, s') → s'.Tame ∧ A s' :=
      fun ha => fun h e => ⟨h.1.perform e, keeps ha h.2 e⟩
    exact ((hm.gives (System.stable_tame.and stable) keeps) t s ⟨started, tame, h⟩).mono
      fun _ _ h => ⟨.inr (.inr ⟨h.2.1, h.1⟩), h.2.2⟩

end Session

end DebugAdapter
