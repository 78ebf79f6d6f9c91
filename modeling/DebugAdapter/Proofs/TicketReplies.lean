import DebugAdapter.Proofs.BareSessions
import DebugAdapter.Proofs.GatewayTrace

/-!
# Replies and their tickets

A caller that waits with the ticket of a command gets what carrying out that very command gives, in some
state of the engine thread (`Gateway.Replying`), whatever is done at the gateway before, meanwhile and
later. This holds at every gateway a session has, since it holds of a new one and is kept by all actions.

## Key results

- `Gateway.Replying.act`: all actions at a gateway keep it
- `System.replying_run`: the gateway of a session, however its threads are scheduled
-/

namespace DebugAdapter

variable {σ : Type} [Engine σ]

/-- Carrying out a command may give a reply: at once, or when a debuggee was started by it. -/
def Command.MayGive (σ : Type) [Engine σ] (c : Command) (r : Reply) : Prop :=
  (∃ w : Worker σ, ((Worker.execute c).run w).1 = .answered r) ∨
  ∃ (w : Worker σ) (d : NewDebuggee) (result : Except LaunchFailure ProcessInfo),
    ((Worker.execute c).run w).1 = .started d ∧ r = .launched result

namespace Gateway

/-- The commands in the queue, and those that are being carried out or were answered, were accepted, each
under the number of those before it, and the answers are theirs. -/
structure Replying (accepted : List Command) (g : Gateway σ) : Prop where
  issued : accepted.length = g.issued
  queue : ∀ p ∈ g.queue, accepted[p.1]? = some p.2
  starting : ∀ {ticket d}, g.phase.starting? = some (ticket, d) → ∃ c, accepted[ticket]? = some c ∧
    ∃ w : Worker σ, ((Worker.execute c).run w).1 = .started d
  answers : ∀ p ∈ g.answers, ∃ c, accepted[p.1]? = some c ∧ c.MayGive σ p.2

/-- A new gateway has accepted nothing. -/
theorem replying_new (engine : σ) (options : GatewayOptions) : (new engine options).Replying [] where
  issued := rfl
  queue := nofun
  starting := nofun
  answers := nofun

namespace Replying

variable {g : Gateway σ} {accepted : List Command}

/-- The answer to a command is what carrying it out may give. -/
theorem mayGive (h : g.Replying accepted) {ticket : Ticket} {c : Command}
    (accepted_eq : accepted[ticket]? = some c) {r : Reply} (answer : g.answer? ticket = some r) :
    c.MayGive σ r := by
  rw [answer?, Option.map_eq_some_iff] at answer
  obtain ⟨p, found, rfl⟩ := answer
  obtain ⟨c', accepted_eq', gives⟩ := h.answers p (List.mem_of_find?_eq_some found)
  have ticket_eq : p.1 = ticket := by simpa using List.find?_some found
  rw [ticket_eq, accepted_eq] at accepted_eq'
  exact Option.some.inj accepted_eq' ▸ gives

/-- A command that is accepted gets the next number. -/
theorem submit (h : g.Replying accepted) (on : g.accepting = true) (c : Command) :
    (g.submit c).2.Replying (accepted ++ [c]) := by
  -- the new command comes last, so the others keep their places
  have before : ∀ {ticket : Ticket} {c' : Command}, accepted[ticket]? = some c' →
      (accepted ++ [c])[ticket]? = some c' := by
    intro ticket c' eq
    rwa [List.getElem?_append_left (List.getElem?_eq_some_iff.1 eq).1]
  rw [Gateway.submit, if_pos on]
  refine ⟨?_, fun p mem => ?_, fun start => ?_, fun p mem => ?_⟩
  · rw [List.length_append, h.issued]
    rfl
  · rcases List.mem_append.1 mem with mem | mem
    · exact before (h.queue p mem)
    · rw [List.mem_singleton.1 mem, ← h.issued]
      exact List.getElem?_concat_length
  · obtain ⟨c', eq, started⟩ := h.starting start
    exact ⟨c', before eq, started⟩
  · obtain ⟨c', eq, gives⟩ := h.answers p mem
    exact ⟨c', before eq, gives⟩

/-- What is answered now was accepted. -/
private theorem answered (h : g.Replying accepted) {ticket : Ticket} {c : Command} {r : Reply}
    (eq : accepted[ticket]? = some c) (gives : c.MayGive σ r) :
    ∀ p ∈ g.answers ++ [(ticket, r)], ∃ c, accepted[p.1]? = some c ∧ c.MayGive σ p.2 := by
  intro p mem
  rcases List.mem_append.1 mem with mem | mem
  · exact h.answers p mem
  · rw [List.mem_singleton.1 mem]
    exact ⟨c, eq, gives⟩

/-- A turn of the engine thread gives no reply but those that the command may give. -/
theorem advance (h : g.Replying accepted) : g.advance.Replying accepted := by
  have step := advance_spec g
  generalize g.executions = executions, g.advance = g' at step ⊢
  -- one case for each kind of turn
  cases step with
  | begin phase => exact ⟨h.issued, h.queue, nofun, h.answers⟩
  | work quiet idle =>
    exact ⟨h.issued, h.queue, fun start => (nomatch idle.2.symm.trans start), h.answers⟩
  | wait phase =>
    refine ⟨h.issued, h.queue, fun start => h.starting ?_, h.answers⟩
    exact (Phase.starting?_afterWait phase _).symm.trans start
  -- a start is answered under the ticket that was kept for it
  | @finishStart ticket d answer phase =>
    obtain ⟨c, known, w, started⟩ := h.starting (phase ▸ rfl : g.phase.starting? = some (ticket, d))
    exact ⟨h.issued, h.queue, nofun, h.answered known (.inr ⟨w, d, _, started, rfl⟩)⟩
  -- the command at the head of the queue is answered under its own ticket
  | @answered w ticket c rest r quiet phase queue outcome =>
    have known : ∀ p ∈ (ticket, c) :: rest, accepted[p.1]? = some p.2 := queue ▸ h.queue
    exact ⟨h.issued, fun p later => known p (List.mem_cons_of_mem _ later), nofun,
      h.answered (known _ List.mem_cons_self) (.inl ⟨w, outcome⟩)⟩
  | @started w ticket c rest d quiet phase queue outcome =>
    have known : ∀ p ∈ (ticket, c) :: rest, accepted[p.1]? = some p.2 := queue ▸ h.queue
    refine ⟨h.issued, fun p later => known p (List.mem_cons_of_mem _ later), ?_, h.answers⟩
    rintro _ _ ⟨⟩
    exact ⟨c, known _ List.mem_cons_self, w, outcome⟩
  | giveUp => exact ⟨h.issued, h.queue, nofun, h.answers⟩
  | decide => exact ⟨h.issued, h.queue, nofun, h.answers⟩
  | leave =>
    -- a command that is carried out at last was in the queue, and so its ticket is known
    rw [leave_eq]
    refine ⟨h.issued, nofun, nofun, fun p mem => ?_⟩
    rcases (Trace.answers_foldl_performLast g.queue { g with queue := [] }).1 p mem with
      mem | ⟨e, last, same, gives⟩
    · exact h.answers p mem
    · have entry : e.entry ∈ g.queue.filter (·.2 = .terminate) := by
        rw [← Trace.entries_lastExecutions g.queue g.worker]
        exact List.mem_map_of_mem last
      refine ⟨e.command, ?_, ?_⟩
      · rw [← same]
        exact h.queue _ (List.mem_filter.1 entry).1
      · rcases gives with outcome | ⟨d, _, _, started, -, reply⟩
        · exact .inl ⟨e.worker, outcome⟩
        · exact .inr ⟨e.worker, d, _, started, reply⟩
  | stay => exact h

/-- All actions at a gateway keep what was accepted. -/
theorem act (h : g.Replying accepted) (a : GatewayAction) :
    ∃ more, (g.act a).Replying (accepted ++ more) := by
  have same : ∀ {g' : Gateway σ}, g'.Replying accepted → ∃ more, g'.Replying (accepted ++ more) :=
    fun h => ⟨[], by rwa [List.append_nil]⟩
  have submitted : ∀ c, ∃ more, (g.submit c).2.Replying (accepted ++ more) := by
    intro c
    by_cases on : g.accepting = true
    · exact ⟨_, h.submit on c⟩
    · rw [Gateway.submit, if_neg on]
      exact same h
  -- only a submission accepts a command
  cases a with
  | submit c => exact submitted c
  | closeQueue => exact submitted .terminate
  | advance => exact same h.advance
  | interrupt =>
    refine same ?_
    change g.interrupt.Replying accepted
    rw [Gateway.interrupt]
    split
    · exact ⟨h.issued, h.queue, h.starting, h.answers⟩
    · exact h
  | markDisposed | cancel | silence => exact same ⟨h.issued, h.queue, h.starting, h.answers⟩

end Replying

end Gateway

/-! ## Sessions -/

namespace System

/-- The commands were accepted by the gateway, if there is one, and maybe others since. -/
def Replying (accepted : List Command) : System σ → Prop :=
  Holds fun g => ∃ more, g.Replying (accepted ++ more)

variable {accepted : List Command} {s s' : System σ}

/-- Whatever is done at the gateway, every reply is one that its command may give. -/
private theorem acts (accepted : List Command) {g : Gateway σ}
    (h : ∃ more, g.Replying (accepted ++ more)) (a : GatewayAction) :
    ∃ more, (g.act a).Replying (accepted ++ more) := by
  obtain ⟨more, h⟩ := h
  obtain ⟨later, h⟩ := h.act a
  exact ⟨more ++ later, List.append_assoc .. ▸ h⟩

/-- The other threads give no other replies. -/
theorem stable_replying (accepted : List Command) :
    Stable (Replying (σ := σ) accepted) :=
  stable_holds (acts accepted)

/-- Unless a gateway is opened, an action gives no other replies. -/
theorem Replying.perform (h : s.Replying accepted) {a : Action} {r : a.Result}
    (e : s.perform a = some (r, s')) (on : ¬a.Opens) : s'.Replying accepted :=
  Holds.perform (acts accepted) h e on

/-- Of a new gateway, nothing is asked. -/
private theorem replying_perform (h : s.Replying []) {a : Action} {r : a.Result}
    (e : s.perform a = some (r, s')) : s'.Replying [] := by
  -- only opening a gateway begins anew
  cases a with
  | openGateway engineOptions options =>
    refine ⟨h.tame.perform e, fun g gateway => ?_⟩
    simp only [System.perform, openGateway, Option.some.injEq] at e
    split at e
    · cases e
      rw [onGateway, Option.map_eq_some_iff] at gateway
      obtain ⟨g₀, hg₀, rfl⟩ := gateway
      obtain ⟨more, h⟩ := h.gateway g₀ hg₀
      exact ⟨more, ⟨h.issued, h.queue, h.starting, h.answers⟩⟩
    · next g' native created =>
      cases e
      obtain ⟨engine, rfl⟩ := Gateway.create_ok created
      obtain rfl := Option.some.inj gateway
      exact ⟨[], Gateway.replying_new _ _⟩
  | _ => exact h.perform e id

/-- A command is accepted under the ticket that its caller is given. -/
theorem Replying.submit (h : s.Replying []) {c : Command} {ticket : Ticket}
    (e : s.perform (.submit c) = some (some ticket, s')) :
    ∃ accepted, s'.Replying accepted ∧ accepted[ticket]? = some c := by
  have tame := h.tame.perform e
  simp only [System.perform, System.submit] at e
  split at e
  · cases e
  · next g gateway =>
    obtain ⟨more, known⟩ := h.gateway g gateway
    by_cases on : g.accepting = true
    · -- the ticket is the number of commands that were accepted before
      have after := known.submit on c
      rw [Gateway.submit, if_pos on] at e after
      obtain ⟨given, rfl⟩ := Prod.mk.inj (Option.some.inj e)
      obtain rfl := Option.some.inj given
      refine ⟨more ++ [c], ⟨tame, fun g' gateway' => ⟨[], ?_⟩⟩, ?_⟩
      · obtain rfl := Option.some.inj gateway'
        rw [List.append_nil]
        exact after
      · rw [← known.issued]
        exact List.getElem?_concat_length
    · rw [Gateway.submit, if_neg on] at e
      cases e

/-- The answer to a command that was accepted is what carrying it out may give. -/
theorem Replying.await (h : s.Replying accepted) {ticket : Ticket} {c : Command}
    (known : accepted[ticket]? = some c) {r : Reply}
    (e : s.perform (.await ticket) = some (some r, s')) : c.MayGive σ r := by
  obtain ⟨g, gateway, answer⟩ := (perform_await e).2 rfl
  obtain ⟨more, replying⟩ := h.gateway g gateway
  refine replying.mayGive ?_ answer
  rwa [List.getElem?_append_left (List.getElem?_eq_some_iff.1 known).1]

end System

/-- What is answered at the gateway of a session is so at any time. -/
theorem SessionRun.replying_run {α : Type} {r : SessionRun σ α} (h : r.system.Replying [])
    (schedule : List SessionThread) : (r.run schedule).system.Replying [] :=
  (all_run (System.stable_replying (σ := σ) []) (fun _ => fun h e => System.replying_perform h e)
    ⟨h, Program.all_trivial _⟩ schedule).1

end DebugAdapter
