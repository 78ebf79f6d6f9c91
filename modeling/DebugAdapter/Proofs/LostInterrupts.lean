import DebugAdapter.Proofs.GatewayLifecycle
import DebugAdapter.Scripted.Engine

/-!
# Interrupts that come too early

Whoever pauses, terminates or disposes of a gateway interrupts the native wait last. An interrupt
outside a wait has no effect, and the engine thread looks at the queue and at the order to end in
steps before the one in which it enters the wait. So an interrupt between them is lost: the engine
thread enters the wait and stays there, although it was to leave it.

Only so can the engine thread be kept in a wait for a stop although it is to end. An interrupt inside
a wait makes the wait return, and after that the engine thread looks at the queue and at the order to
end before it enters another one for a stop.

## Key results

- `Observed.run_blocked`: when an interrupt was made if the engine thread is kept in a wait after it
- `Observed.leftWaiting_after_requests`: each of the three requests can be lost
-/

namespace DebugAdapter

variable {σ : Type}

/-! ## Waits that are interrupted -/

/-- An engine is inside a native wait that has not returned, and was interrupted or not. -/
inductive Engine.InWait [Engine σ] : Bool → σ → Prop
  | entered {s : σ} (unanswered : (Engine.waitForEvent.run s).1 = none) :
      InWait false (Engine.waitForEvent.run s).2
  | interrupted {b : Bool} {s : σ} (h : InWait b s) : InWait true (Engine.interrupt s)

/-- An interrupted wait returns when it is asked again. -/
def Engine.InterruptsWake (σ : Type) [Engine σ] : Prop :=
  ∀ s : σ, Engine.InWait true s → (Engine.waitForEvent.run s).1 ≠ none

namespace Gateway

variable [Engine σ]

/-- The engine of a gateway whose engine thread is inside a wait is inside a native wait. -/
def Attended (g : Gateway σ) : Prop :=
  g.phase.isWaiting = true → ∃ b, Engine.InWait b g.engine

/-- The wait that the engine thread is inside was interrupted. -/
def Roused (g : Gateway σ) : Prop :=
  g.phase.isWaiting = true ∧ Engine.InWait true g.engine

/-- Callers do nothing to the engine but interrupt it inside a wait. -/
theorem engine_act (g : Gateway σ) {a : GatewayAction} (ha : a ≠ .advance) :
    (g.act a).engine = g.engine ∨
      (g.phase.isWaiting = true ∧ (g.act a).engine = Engine.interrupt g.engine) := by
  -- of the callers' actions only an interrupt reaches the engine, and only inside a wait
  cases a with
  | submit c =>
    simp only [act, submit]
    split <;> exact .inl rfl
  | closeQueue =>
    simp only [act, closeQueue, submit]
    split <;> exact .inl rfl
  | interrupt =>
    simp only [act, interrupt]
    split
    · next waits => exact .inr ⟨waits, rfl⟩
    · exact .inl rfl
  | advance => exact absurd rfl ha
  | markDisposed | cancel | silence => exact .inl rfl

/-- While the engine thread waits, the engine is inside a wait; any action keeps that so. -/
theorem Attended.act {g : Gateway σ} (h : g.Attended) (a : GatewayAction) : (g.act a).Attended := by
  by_cases ha : a = .advance
  · subst ha
    intro waits
    have step := g.moves_advance
    simp only [Gateway.act] at waits ⊢
    generalize hp : g.advance.phase = phase at step waits
    -- the one step that ends inside a wait is that of a wait which does not return
    cases step with
    | wait phase unanswered engine => exact ⟨false, engine ▸ .entered unanswered⟩
    | _ => cases waits
  · intro waits
    rw [(g.act_kept ha).1] at waits
    obtain ⟨b, inside⟩ := h waits
    rcases engine_act g ha with e | ⟨-, e⟩ <;> rw [e]
    · exact ⟨b, inside⟩
    · exact ⟨true, .interrupted inside⟩

/-- A wait that was interrupted stays so until the engine thread makes a step. -/
theorem Roused.act {g : Gateway σ} (h : g.Roused) {a : GatewayAction} (ha : a ≠ .advance) :
    (g.act a).Roused := by
  refine ⟨by rw [(g.act_kept ha).1]; exact h.1, ?_⟩
  rcases engine_act g ha with e | ⟨-, e⟩ <;> rw [e]
  · exact h.2
  · exact .interrupted h.2

/-- An interrupt rouses a wait that is under way. -/
theorem Attended.roused {g : Gateway σ} (h : g.Attended) (waits : g.phase.isWaiting = true) :
    (g.act .interrupt).Roused := by
  obtain ⟨b, inside⟩ := h waits
  simp only [Gateway.act, interrupt, if_pos waits]
  exact ⟨waits, .interrupted inside⟩

/-- The engine thread leaves a wait that was interrupted in its next step. -/
theorem Roused.advance {g : Gateway σ} (wakes : Engine.InterruptsWake σ) (h : g.Roused) :
    ∃ purpose answer, g.phase = .waiting purpose ∧ g.advance.phase = .woken purpose answer := by
  obtain ⟨waits, inside⟩ := h
  have step := g.moves_advance
  generalize g.advance.phase = phase' at step ⊢
  -- inside a wait the engine thread can only ask it again
  cases step with
  | wait phase unanswered engine => exact absurd unanswered (wakes _ inside)
  | wake phase answered =>
    rcases phase with e | e
    · rw [e] at waits
      cases waits
    · exact ⟨_, _, e, rfl⟩
  | reported e | started e | begin e | enter e | attend e | decide e =>
    rw [e] at waits
    cases waits
  | performed e | start e | turn e | finish e =>
    rcases e with e | e <;> rw [e] at waits <;> cases waits

end Gateway

/-! ## The end of the engine thread -/

/-- The engine thread may be in a wait for a stop before it looks at the queue again. -/
def Phase.TowardsStop : Phase → Prop
  | starting | looping | entering .stop | waiting .stop => True
  | _ => False

namespace Gateway

variable [Engine σ] {g : Gateway σ}

/-- The engine thread enters no wait for a stop any more: it was told to end and is past the test for
that, or no further commands are accepted and it looks at the queue first. -/
def Ending (g : Gateway σ) : Prop :=
  (g.worker.cancelled = true ∧ g.phase ≠ .entering .stop ∧ g.phase ≠ .waiting .stop) ∨
  (g.accepting = false ∧ ¬g.phase.TowardsStop)

/-- The engine thread enters no wait for a stop any more, or leaves the one it is in and is to end. -/
def Heeding (g : Gateway σ) : Prop :=
  g.Ending ∨
  (g.phase = .waiting .stop ∧ g.Roused ∧ (g.accepting = false ∨ g.worker.cancelled = true))

omit [Engine σ] in
/-- An engine thread that is ending does not wait for a stop. -/
theorem Ending.not_waiting (h : g.Ending) : g.phase ≠ .waiting .stop := by
  intro waits
  rcases h with ⟨-, -, off⟩ | ⟨-, off⟩
  · exact off waits
  · rw [waits] at off
    exact off trivial

/-- An engine thread that is ending goes on ending. -/
private theorem Ending.advance (h : g.Ending) : g.advance.Ending := by
  have step := g.moves_advance
  -- a queue that was closed stays so
  have moved : ∀ {phase}, g.advance.phase = phase → ¬phase.TowardsStop → g.accepting = false →
      g.advance.Ending := fun e off closed => .inr ⟨g.later_advance.closed closed, e ▸ off⟩
  generalize hp : g.advance.phase = phase' at step
  rcases h with ⟨cancelled, off⟩ | ⟨closed, off⟩
  · have cancelled' : g.advance.worker.cancelled = true := g.later_advance.cancelled cancelled
    refine .inl ⟨cancelled', ?_⟩
    rw [hp]
    -- the test whether to end bars the way to a new wait, and no wait for a stop is under way
    cases step with
    | enter phase on | attend phase on => exact absurd cancelled on
    | @wait purpose phase unanswered engine =>
      refine ⟨nofun, ?_⟩
      rintro ⟨⟩
      rcases phase with e | e
      · exact off.1 e
      · exact off.2 e
    | _ => exact ⟨nofun, nofun⟩
  · -- no phase on the way to a wait for a stop is left, so the queue is looked at first
    cases step with
    | begin e | enter e | attend e | decide e =>
      rw [e] at off
      exact absurd trivial off
    | @wait purpose phase unanswered engine =>
      refine moved hp (fun towards => off ?_) closed
      cases purpose with
      | start ticket d => cases towards
      | stop => rcases phase with e | e <;> rw [e] <;> trivial
    | turn phase goal =>
      rcases goal with accepting | cancelled
      · rw [closed] at accepting
        cases accepting
      · exact .inl ⟨cancelled, by rw [hp]; exact ⟨nofun, nofun⟩⟩
    | _ => exact moved hp id closed

/-- No action turns an ending engine thread back. -/
theorem Ending.act (h : g.Ending) (a : GatewayAction) : (g.act a).Ending := by
  by_cases ha : a = .advance
  · subst ha
    exact h.advance
  · rcases h with ⟨cancelled, off⟩ | ⟨closed, off⟩
    · exact .inl ⟨(g.later_act a).cancelled cancelled, by rwa [(g.act_kept ha).1]⟩
    · exact .inr ⟨(g.later_act a).closed closed, by rwa [(g.act_kept ha).1]⟩

/-- An engine thread that heeds the request goes on heeding it. -/
theorem Heeding.act (wakes : Engine.InterruptsWake σ) (h : g.Heeding) (a : GatewayAction) :
    (g.act a).Heeding := by
  rcases h with ending | ⟨waits, roused, goal⟩
  · exact .inl (ending.act a)
  · have over_act : (g.act a).accepting = false ∨ (g.act a).worker.cancelled = true :=
      goal.imp (g.later_act a).closed (g.later_act a).cancelled
    by_cases ha : a = .advance
    · -- the wait returns, and from there on the engine thread is ending
      subst ha
      obtain ⟨purpose, answer, -, woken⟩ := roused.advance wakes
      rcases over_act with closed | cancelled
      · exact .inl (.inr ⟨closed, by rw [Gateway.act, woken]; exact id⟩)
      · exact .inl (.inl ⟨cancelled, by simp [Gateway.act, woken]⟩)
    · exact .inr ⟨by rwa [(g.act_kept ha).1], roused.act ha, over_act⟩

/-- The engine thread does not stay in a wait for a stop. -/
theorem Heeding.not_blocked (wakes : Engine.InterruptsWake σ) (h : g.Heeding)
    (waits : g.phase = .waiting .stop) : g.advance.phase ≠ .waiting .stop := by
  rcases h with ending | ⟨-, roused, -⟩
  · exact absurd waits ending.not_waiting
  · obtain ⟨purpose, answer, -, woken⟩ := roused.advance wakes
    rw [woken]
    nofun

/-- An interrupt is heeded when the queue is closed, unless the wait was to be entered without another
look at the queue. -/
theorem heeding_of_closed (attended : g.Attended) (closed : g.accepting = false)
    (late : ¬(g.phase = .starting ∨ g.phase = .looping ∨ g.phase = .entering .stop)) :
    (g.act .interrupt).Heeding := by
  by_cases waits : g.phase = .waiting .stop
  · have same := (g.act_kept (a := .interrupt) (by simp)).1.trans waits
    exact .inr ⟨same, attended.roused (by rw [waits]; rfl), .inl ((g.later_act _).closed closed)⟩
  · refine .inl (Ending.act (.inr ⟨closed, fun towards => ?_⟩) _)
    simp only [not_or] at late
    -- outside a wait for a stop the thread is ending already, but for the three phases that lead into one
    cases hp : g.phase with
    | starting => exact late.1 hp
    | looping => exact late.2.1 hp
    | entering purpose | waiting purpose =>
      rw [hp] at towards waits late
      cases purpose with
      | stop => simp at waits late
      | start ticket d => exact towards
    | _ =>
      rw [hp] at towards
      exact towards

/-- An interrupt is heeded when the engine thread was told to end, unless the wait was to be entered
without another test for that. -/
theorem heeding_of_cancelled (attended : g.Attended) (cancelled : g.worker.cancelled = true)
    (late : g.phase ≠ .entering .stop) : (g.act .interrupt).Heeding := by
  by_cases waits : g.phase = .waiting .stop
  · have same := (g.act_kept (a := .interrupt) (by simp)).1.trans waits
    exact .inr ⟨same, attended.roused (by rw [waits]; rfl), .inr ((g.later_act _).cancelled cancelled)⟩
  · exact .inl (Ending.act (.inl ⟨cancelled, late, waits⟩) _)

end Gateway

/-! ## Requests -/

namespace GatewayCall

/-- Each interrupt among some actions comes after the engine thread was told to end. -/
def CancelsFirst (cancelled : Prop) : List GatewayAction → Prop
  | [] => True
  | a :: rest => (a = .interrupt → cancelled) ∧ CancelsFirst (cancelled ∨ a = .cancel) rest

/-- What cancels first does so under any weaker condition. -/
theorem CancelsFirst.mono {p q : Prop} (h : p → q) {actions : List GatewayAction}
    (first : CancelsFirst p actions) : CancelsFirst q actions := by
  induction actions generalizing p q with
  | nil => trivial
  | cons a rest ih => exact ⟨fun e => h (first.1 e), ih (Or.imp_left h) first.2⟩

/-- What a call has seen to when it goes on with some actions. -/
def HasSeenTo (g : Gateway σ) : GatewayCall → List GatewayAction → Prop
  | terminate, actions => actions = [] ∨ g.accepting = false
  | dispose, actions => CancelsFirst (g.worker.cancelled = true) actions
  | _, _ => True

/-- A call goes on with some actions, none of them by the engine thread. -/
structure Underway (g : Gateway σ) (c : GatewayCall) (actions : List GatewayAction) : Prop where
  callers : .advance ∉ actions
  hasSeenTo : c.HasSeenTo g actions

variable [Engine σ] {g : Gateway σ} {c : GatewayCall} {actions : List GatewayAction}

/-- A call that has begun is under way with what is left of it. -/
theorem underway_first (g : Gateway σ) (c : GatewayCall) : c.Underway (g.act c.first) (c.rest g) := by
  -- a command to terminate has closed the queue, and disposal cancels before it interrupts
  cases c with
  | submit | interrupt => exact ⟨List.not_mem_nil, trivial⟩
  | pause =>
    refine ⟨?_, trivial⟩
    simp only [rest]
    split <;> simp
  | terminate =>
    refine ⟨?_, .inr (Gateway.accepting_submit_terminate g)⟩
    simp only [rest]
    split <;> simp
  | dispose =>
    simp only [rest]
    split
    · exact ⟨List.not_mem_nil, trivial⟩
    · exact ⟨by simp, by simp [HasSeenTo, CancelsFirst]⟩

/-- A call stays under way while others act. -/
theorem Underway.act (h : c.Underway g actions) (a : GatewayAction) :
    c.Underway (g.act a) actions := by
  refine ⟨h.callers, ?_⟩
  cases c with
  | terminate => exact h.hasSeenTo.imp id (g.later_act a).closed
  | dispose => exact h.hasSeenTo.mono (g.later_act a).cancelled
  | _ => trivial

/-- A call stays under way when it goes on itself. -/
theorem Underway.proceed {a : GatewayAction} (h : c.Underway g (a :: actions)) :
    c.Underway (g.act a) actions := by
  refine ⟨fun mem => h.callers (List.mem_cons_of_mem _ mem), ?_⟩
  cases c with
  | terminate =>
    rcases h.hasSeenTo with none | closed
    · cases none
    · exact .inr ((g.later_act a).closed closed)
  | dispose =>
    refine h.hasSeenTo.2.mono ?_
    rintro (cancelled | rfl)
    · exact (g.later_act a).cancelled cancelled
    · rfl
  | _ => trivial

end GatewayCall

/-- The call that a turn begins. -/
def Turn.begins? : Turn → Option GatewayCall
  | call c => some c
  | engine | proceed _ => none

/-- The calls that are begun in turns, oldest first. -/
def begun (turns : List Turn) : List GatewayCall :=
  turns.filterMap Turn.begins?

namespace Observed

variable [Engine σ]

/-- The calls under way are those that were begun, in the same order. -/
structure CallsOf (o : Observed σ) (begun : List GatewayCall) : Prop where
  length : o.calls.length = begun.length
  underway : ∀ {i : Nat} {c : GatewayCall} {actions : List GatewayAction},
    begun[i]? = some c → o.calls[i]? = some actions → c.Underway o.gateway actions

namespace CallsOf

variable {o : Observed σ} {calls : List GatewayCall}

/-- The open calls of a run are those that were begun, each under way, after any turn. -/
theorem take (h : o.CallsOf calls) (t : Turn) : (o.take t).CallsOf (calls ++ t.begins?.toList) := by
  cases t with
  -- no call goes on in a turn of the engine thread
  | engine =>
    rw [Turn.begins?, Option.toList_none, List.append_nil]
    exact ⟨h.length, fun hc ha => (h.underway hc ha).act .advance⟩
  | call c =>
    have length : (o.take (.call c)).calls.length = (calls ++ [c]).length := by
      simp only [Observed.take, List.length_append, h.length, List.length_singleton]
    refine ⟨length, ?_⟩
    intro i c' actions hc ha
    simp only [Turn.begins?, Option.toList_some] at hc
    simp only [Observed.take] at ha ⊢
    -- either a call that was under way before, or the one that is begun, which comes last
    by_cases old : i < calls.length
    · rw [List.getElem?_append_left old] at hc
      rw [List.getElem?_append_left (h.length ▸ old)] at ha
      exact (h.underway hc ha).act c.first
    · have le := Nat.le_of_not_lt old
      rw [List.getElem?_append_right le, List.getElem?_singleton] at hc
      rw [List.getElem?_append_right (h.length ▸ le), h.length, List.getElem?_singleton] at ha
      split at hc
      · next here =>
        rw [if_pos here] at ha
        obtain rfl := Option.some.inj hc
        obtain rfl := Option.some.inj ha
        exact GatewayCall.underway_first _ _
      · cases hc
  | proceed i =>
    rw [Turn.begins?, Option.toList_none, List.append_nil]
    simp only [Observed.take]
    split
    · next a rest hi =>
      refine ⟨by simp only [List.length_set, h.length], ?_⟩
      intro j c actions hc ha
      -- the call that goes on has one action less to do, for the others it is one by someone else
      by_cases here : i = j
      · subst here
        rw [List.getElem?_set_self (List.getElem?_eq_some_iff.1 hi).1] at ha
        obtain rfl := Option.some.inj ha
        exact (h.underway hc hi).proceed
      · rw [List.getElem?_set_ne here] at ha
        exact (h.underway hc ha).act a
    · exact h

/-- The open calls of a run are those that were begun, each under way. -/
theorem run (h : o.CallsOf calls) (turns : List Turn) :
    (o.run turns).CallsOf (calls ++ begun turns) := by
  -- on the turns, adding to the calls those that are begun
  induction turns generalizing o calls with
  | nil =>
    rw [begun, List.filterMap_nil, List.append_nil]
    exact h
  | cons t turns ih =>
    have later := ih (h.take t)
    cases hb : t.begins? with
    | none =>
      rw [hb, Option.toList_none, List.append_nil] at later
      rwa [begun, List.filterMap_cons_none hb]
    | some c =>
      rw [hb, Option.toList_some, List.append_assoc] at later
      rwa [begun, List.filterMap_cons_some hb]

end CallsOf

omit [Engine σ] in
/-- Before the first turn no call is open. -/
theorem callsOf_new (engine : σ) (options : GatewayOptions) : (new engine options).CallsOf [] :=
  ⟨rfl, fun none => by cases none⟩

/-- In any run, an engine thread that waits has the engine inside a wait. -/
theorem attended_run (engine : σ) (options : GatewayOptions) (turns : List Turn) :
    ((new engine options).run turns).gateway.Attended :=
  run_induction (P := fun g _ _ => g.Attended) (fun h a => h.act a)
    (fun waits => by cases waits) turns

/-- As long as the engine thread makes no step, an interrupted wait stays interrupted. -/
private theorem CallsOf.roused {o : Observed σ} {calls : List GatewayCall} (h : o.CallsOf calls)
    (roused : o.gateway.Roused) {turns : List Turn} (idle : .engine ∉ turns) :
    (o.run turns).gateway.Roused := by
  induction turns generalizing o calls with
  | nil => exact roused
  | cons t turns ih =>
    rw [List.mem_cons, not_or] at idle
    refine ih (h.take t) ?_ idle.2
    -- no caller makes a step of the engine thread
    cases t with
    | engine => exact absurd rfl idle.1
    | call c => exact roused.act (by cases c <;> simp [GatewayCall.first])
    | proceed i =>
      simp only [Observed.take]
      split
      · next a rest hi =>
        refine roused.act ?_
        rintro rfl
        have bound : i < calls.length := h.length ▸ (List.getElem?_eq_some_iff.1 hi).1
        exact (h.underway (List.getElem?_eq_getElem bound) hi).callers List.mem_cons_self
      · exact roused

/-- An engine thread that is kept in a wait after an interrupted one has returned from that one, in its
first step after the interrupt. -/
private theorem CallsOf.returned {o : Observed σ} {calls : List GatewayCall} (h : o.CallsOf calls)
    (wakes : Engine.InterruptsWake σ) (roused : o.gateway.Roused) {turns : List Turn}
    {purpose : WaitPurpose} (blocked : (o.run turns).gateway.advance.phase = .waiting purpose) :
    ∃ during later, turns = during ++ .engine :: later ∧ .engine ∉ during ∧
      ∃ purpose answer, (o.run (during ++ [.engine])).gateway.phase = .woken purpose answer := by
  by_cases mem : .engine ∈ turns
  · obtain ⟨during, later, rfl, idle⟩ := List.eq_append_cons_of_mem mem
    obtain ⟨purpose, answer, -, woken⟩ := (h.roused roused idle).advance wakes
    refine ⟨during, later, rfl, idle, purpose, answer, ?_⟩
    rw [run_append]
    exact woken
  · -- without a step of the engine thread the wait is still the interrupted one
    obtain ⟨purpose, answer, -, woken⟩ := (h.roused roused mem).advance wakes
    rw [woken] at blocked
    cases blocked

/-- Let interrupts end native waits. If the engine thread is kept in a wait after the interrupt of a
request, then the interrupt was made outside a wait and had no effect, or the wait it was made in has
returned in the next step of the engine thread. And if it is a wait for a stop, the interrupt of a
command to terminate was made on the way from the last look at the queue to the wait, and that of a
disposal right before the wait was entered. -/
theorem run_blocked (wakes : Engine.InterruptsWake σ) (engine : σ) (options : GatewayOptions)
    (before after : List Turn) {i : Nat} {c : GatewayCall} {rest : List GatewayAction}
    {purpose : WaitPurpose} (request : (begun before)[i]? = some c)
    (last : ((new engine options).run before).calls[i]? = some (.interrupt :: rest))
    (waits : ((new engine options).run (before ++ .proceed i :: after)).gateway.phase =
      .waiting purpose)
    (blocked : ((new engine options).run (before ++ .proceed i :: after)).gateway.advance.phase =
      .waiting purpose) :
    let o := (new engine options).run before
    ((o.gateway.phase.isWaiting = false ∧ (o.take (.proceed i)).gateway = o.gateway) ∨
      ∃ during later, after = during ++ .engine :: later ∧ .engine ∉ during ∧
        ∃ purpose answer, (o.run (.proceed i :: during ++ [.engine])).gateway.phase =
          .woken purpose answer) ∧
    (purpose = .stop →
      (c = .terminate → o.gateway.phase = .starting ∨ o.gateway.phase = .looping ∨
        o.gateway.phase = .entering .stop) ∧
      (c = .dispose → o.gateway.phase = .entering .stop)) := by
  intro o
  have calls : o.CallsOf (begun before) := (callsOf_new engine options).run before
  have attended : o.gateway.Attended := attended_run engine options before
  have underway := calls.underway request last
  -- the turn in question makes the interrupt of the call
  have made : o.take (.proceed i) = { o.act .interrupt with calls := o.calls.set i rest } := by
    simp only [Observed.take, o, last]
  rw [run_append] at waits blocked
  change ((o.take (.proceed i)).run after).gateway.phase = _ at waits
  change ((o.take (.proceed i)).run after).gateway.advance.phase = _ at blocked
  -- an interrupt that is heeded cannot be followed by a wait for a stop that lasts
  have unheeded : purpose = .stop → ¬(o.gateway.act .interrupt).Heeding := by
    rintro rfl heeding
    have now : (o.take (.proceed i)).gateway.Heeding := by rwa [made]
    have later := run_induction (P := fun g _ _ => g.Heeding) (fun h a => h.act wakes a) now after
    exact later.not_blocked wakes waits blocked
  refine ⟨?_, fun stop => ⟨?_, ?_⟩⟩
  · -- outside a wait the interrupt has done nothing
    cases inside : o.gateway.phase.isWaiting with
    | false =>
      refine .inl ⟨rfl, ?_⟩
      simp only [made, act, Gateway.act, Gateway.interrupt, inside, Bool.false_eq_true, if_false]
    | true =>
      have roused : (o.take (.proceed i)).gateway.Roused := by
        rw [made]
        exact attended.roused inside
      -- inside, it has roused the wait, and the wait that lasts is a later one
      exact .inr ((calls.take (.proceed i)).returned wakes roused blocked)
  · -- a command to terminate had closed the queue before it interrupted
    rintro rfl
    rcases underway.hasSeenTo with none | closed
    · cases none
    · exact Classical.byContradiction fun late =>
        unheeded stop (Gateway.heeding_of_closed attended closed late)
  · -- a disposal had cancelled the thread before it interrupted
    rintro rfl
    exact Classical.byContradiction fun late =>
      unheeded stop (Gateway.heeding_of_cancelled attended (underway.hasSeenTo.1 rfl) late)

end Observed

/-! ## Requests that are lost -/

namespace Scripted.World

/-- A wait that has not returned is noted. -/
private theorem waiting_of_unanswered {w : World} (unanswered : w.wait.1 = none) :
    w.wait.2.waiting = true := by
  -- the world answers unless it has nothing to report, and then it notes that it is waited for
  unfold wait at unanswered ⊢
  split
  · next h => simp [h] at unanswered
  · next h =>
    simp only [h] at unanswered
    split
    · next stopped => simp [stopped] at unanswered
    · next running =>
      simp only [running] at unanswered
      split
      · next stops => simp [stops] at unanswered
      · next stops =>
        split
        · next interrupted => simp [stops, interrupted] at unanswered
        · rfl

/-- The scripted engine returns from a wait that was interrupted. -/
theorem interruptsWake : Engine.InterruptsWake World := by
  -- inside a wait the world knows it is waited for, and an interrupt is noted only then
  have noted : ∀ {b : Bool} {w : World}, Engine.InWait b w →
      w.waiting = true ∧ (b = true → w.interrupted = true) := by
    intro b w h
    induction h with
    | entered unanswered => exact ⟨waiting_of_unanswered unanswered, nofun⟩
    | interrupted h ih => exact ⟨ih.1, fun _ => ih.1⟩
  intro w h answer
  obtain ⟨waiting, interrupted⟩ := noted h
  have answer : w.wait.1 = none := answer
  unfold wait at answer
  simp only [waiting, interrupted rfl, Bool.not_true, Bool.and_false, Bool.false_eq_true, if_false,
    if_true] at answer
  split at answer
  · cases answer
  · split at answer <;> cases answer

/-- A wait is under way that nothing ends. -/
def hangs (w : World) : Bool :=
  w.failures.isEmpty && w.status.isRunning && w.stops.isEmpty && w.waiting && !w.interrupted

/-- A world with nothing to report stays inside the wait. -/
theorem wait_of_hangs {w : World} (h : w.hangs = true) : w.wait = (none, w) := by
  simp only [hangs, Bool.and_eq_true, List.isEmpty_iff, Bool.not_eq_true'] at h
  obtain ⟨⟨⟨⟨failures, running⟩, stops⟩, waiting⟩, interrupted⟩ := h
  have noted : { w with waiting := true } = w := by rw [← waiting]
  unfold wait
  split
  · next found => simp [failures] at found
  · split
    · next stopped => simp [running] at stopped
    · split
      · next left => simp [stops] at left
      · split
        · next woken => simp [interrupted] at woken
        · exact congrArg (Prod.mk none) noted

end Scripted.World

/-- Whether the engine thread is inside a wait for a stop. -/
private def Phase.awaitsStop : Phase → Bool
  | waiting .stop => true
  | _ => false

/-- The test for a wait for a stop is exact. -/
private theorem Phase.eq_of_awaitsStop {phase : Phase} (h : phase.awaitsStop = true) :
    phase = .waiting .stop := by
  cases phase with
  | waiting purpose => cases purpose <;> first | rfl | cases h
  | _ => cases h

namespace Observed

/-- An engine thread inside a wait that nothing ends stays in it. -/
theorem gateway_run_of_hangs {o : Observed Scripted.World} {purpose : WaitPurpose}
    (waits : o.gateway.phase = .waiting purpose) (hangs : o.gateway.engine.hangs = true) (n : Nat) :
    (o.run (List.replicate n .engine)).gateway = o.gateway := by
  have step : o.gateway.advance = o.gateway := by
    have asked : (Engine.waitForEvent : StateM Scripted.World _).run o.gateway.engine =
        (none, o.gateway.engine) := Scripted.World.wait_of_hangs hangs
    simp only [Gateway.advance, waits, Gateway.poll_eq asked, Phase.afterWait, Gateway.goto]
    rw [← waits]
    rfl
  -- on the number of steps, each of which changes nothing
  induction n generalizing o with
  | zero => rfl
  | succ n ih =>
    have same : (o.take .engine).gateway = o.gateway := step
    refine (ih (o := o.take .engine) ?_ ?_ ?_).trans same
    all_goals rw [same]
    · exact waits
    · exact hangs
    · exact step

/-- A debuggee is launched and resumed, and the engine thread is about to enter the wait for a stop. -/
def aboutToWait : List Turn :=
  [.call (.submit (.launch ⟨"app", "app", [], []⟩)), .call (.submit .continue)] ++
    List.replicate 8 .engine

/-- A call is made, down to its last action, when the engine thread is about to wait for a stop of a
debuggee that makes none; then the engine thread goes on. -/
def calledTooEarly (c : GatewayCall) : Observed Scripted.World :=
  (new {} {}).run (aboutToWait ++ .call c :: List.replicate 4 (.proceed 2) ++ [.engine])

/-- The interrupt of a command to terminate is made right before the wait is entered. -/
theorem run_blocked_terminate :
    (calledTooEarly .terminate).gateway.phase = .waiting .stop ∧
    (calledTooEarly .terminate).gateway.advance.phase = .waiting .stop ∧
    ((new ({} : Scripted.World) {}).run (aboutToWait ++ [.call .terminate])).gateway.phase.isWaiting =
      false := by
  have waits : (calledTooEarly .terminate).gateway.phase = .waiting .stop :=
    Phase.eq_of_awaitsStop (by decide +kernel)
  have blocked : (calledTooEarly .terminate).gateway.advance.phase = .waiting .stop :=
    Phase.eq_of_awaitsStop (by decide +kernel)
  refine ⟨waits, blocked, ?_⟩
  have turns : aboutToWait ++ Turn.call .terminate ::
      List.replicate 4 (Turn.proceed 2) ++ [Turn.engine] =
        (aboutToWait ++ [Turn.call .terminate]) ++
          Turn.proceed 2 :: (List.replicate 3 (Turn.proceed 2) ++ [Turn.engine]) := by decide +kernel
  rw [calledTooEarly, turns] at waits blocked
  -- the call in question is the third one, and its interrupt is all that is left of it
  have request : (begun (aboutToWait ++ [.call .terminate]))[2]? = some .terminate := by
    decide +kernel
  have accepting : ((new ({} : Scripted.World) {}).run aboutToWait).gateway.accepting = true := by
    decide +kernel
  have two : ((new ({} : Scripted.World) {}).run aboutToWait).calls.length = 2 := by decide +kernel
  have last : ((new ({} : Scripted.World) {}).run (aboutToWait ++ [.call .terminate])).calls[2]? =
      some [.interrupt] := by
    rw [run_append]
    change (_ ++ [_])[2]? = _
    rw [List.getElem?_append_right (Nat.le_of_eq two), two, GatewayCall.rest, if_pos accepting]
    rfl
  -- the interrupt of a command to terminate was made in one of three phases, all of them outside a wait
  rcases ((run_blocked Scripted.World.interruptsWake _ _ _ _ request last waits blocked).2 rfl).1 rfl
    with e | e | e <;> rw [e] <;> rfl

/-- Nothing is left to do for the callers, and the engine thread does not leave its wait for a stop. -/
def LeftWaiting [Engine σ] (o : Observed σ) : Prop :=
  (∀ actions ∈ o.calls, actions = []) ∧
  ∀ n, (o.run (List.replicate n .engine)).gateway.phase = .waiting .stop

/-- With all calls done and nothing to report, the engine thread is left waiting. -/
private theorem leftWaiting_of_hangs {o : Observed Scripted.World}
    (idle : o.calls.all List.isEmpty = true) (waits : o.gateway.phase.awaitsStop = true)
    (hangs : o.gateway.engine.hangs = true) : o.LeftWaiting := by
  have waits := Phase.eq_of_awaitsStop waits
  refine ⟨fun actions mem => List.isEmpty_iff.1 (List.all_eq_true.1 idle actions mem), fun n => ?_⟩
  rw [gateway_run_of_hangs waits hangs]
  exact waits

/-- The interrupt of each of the requests that are to end a wait can be lost. -/
theorem leftWaiting_after_requests :
    (calledTooEarly .pause).LeftWaiting ∧ (calledTooEarly .terminate).LeftWaiting ∧
    (calledTooEarly .dispose).LeftWaiting := by
  refine ⟨leftWaiting_of_hangs ?_ ?_ ?_, leftWaiting_of_hangs ?_ ?_ ?_, leftWaiting_of_hangs ?_ ?_ ?_⟩
  all_goals decide +kernel

end Observed

end DebugAdapter
