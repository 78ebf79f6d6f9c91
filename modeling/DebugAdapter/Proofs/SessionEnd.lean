import DebugAdapter.Proofs.FailedStart
import DebugAdapter.Proofs.SessionWire

/-!
# What a client is told of the end

The session state is changed by the session thread and by the forwarder of the gateway, but only the
forwarder tells the client that the session is over, and it does so in a step of its own: after it has
changed the state, and if the state was another one before. So at any time, the client was told at most
once, and not before the state says so; and when it was told, what the forwarder is left to do tells of no
stop (`System.Concluding`).

## Key results

- `Session.concludes_forward`: what is left of forwarding an event when the client was told of the end
- `System.Concluding.perform`, `System.stable_concluding`: every step of one of the threads keeps what was
  told of the end in order
- `SessionRun.ended_run`: a session that is over stays so
-/

namespace DebugAdapter

/-- Whether the client is told of the end, or of a stop. -/
def endNames : List String :=
  ["terminated", "stopped"]

namespace Program

variable {α : Type}

/-- After the program tells that the session is over, it tells of no stop. -/
def Concludes : Program α → Prop
  | .done _ => True
  | .act a next => (a.tells "terminated" = true → ∀ r, (next r).Silent) ∧ ∀ r, (next r).Concludes

/-- A program that never tells of the end has nothing to conclude. -/
theorem All.concludes {Q : α → Prop} {p : Program α} (h : p.All (·.tells "terminated" = false) Q) :
    p.Concludes := by
  induction p with
  | done a => trivial
  | act a next ih => exact ⟨fun tells => (nomatch h.1.symm.trans tells), fun r => ih r (h.2 r)⟩

/-- What the next action tells of the end is what is owed. -/
theorem Tells.owes {owes : Bool} {a : Action} {next : a.Result → Program α}
    (h : (Program.act a next).Tells owes) : a.tells "terminated" = owes := by
  cases a with
  | send m => exact h.1
  | _ => exact h.1.symm

end Program

namespace Session

/-- When the forwarder has told that the session is over, it tells of no stop. -/
theorem concludes_forward (e : GatewayEvent) : (forward e).Concludes := by
  have quiet : ∀ {α : Type} {p : Program α}, (p.All (·.tells "terminated" = false) fun _ => True) →
      p.Concludes := fun h => h.concludes
  have disposed : dispose.Concludes := by
    refine quiet (all_dispose fun a h => ?_)
    cases a <;> first | rfl | exact False.elim h
  have stop : ∀ reason thread text, (forwardStop reason thread text).Concludes := by
    intro reason thread text
    refine quiet ⟨rfl, fun previous => ?_⟩
    cases previous <;> first | trivial | exact ⟨rfl, fun _ => trivial⟩
  -- only two events end the session
  cases e with
  | processExited code =>
    refine ⟨nofun, fun _ => ⟨nofun, fun previous => ?_⟩⟩
    cases previous <;> first | exact disposed | exact ⟨fun _ _ => silent_dispose, fun _ => disposed⟩
  | terminated =>
    refine ⟨nofun, fun previous => ?_⟩
    cases previous <;> first | trivial | exact ⟨fun _ _ => trivial, fun _ => trivial⟩
  | breakpointHit | exceptionHit | breakHit | stepCompleted => exact stop _ _ _
  | threadStarted | threadExited | output => exact ⟨nofun, fun _ => trivial⟩

end Session

/-! ## What was written -/

/-- How often an event was told is counted in the messages. -/
theorem Outbox.told_eq (name : String) (o : Outbox) :
    o.told name = o.messages.countP (·.tells name) := by
  rw [told, messages, List.countP_map, List.countP_reverse]
  rfl

/-- What an action writes tells what the action tells, but for log records. -/
theorem Action.tells_of_writes {a : Action} {console : Option LogFilter} {m : Message}
    (mem : m ∈ a.writes console) {name : String} (other : name ≠ "output") :
    m.tells name = a.tells name := by
  rcases a.of_mem_writes mem with rfl | ⟨r, rfl, rfl⟩
  · rfl
  · exact beq_eq_false_iff_ne.2 (Ne.symm other)

/-- After the first of the messages, the second does not tell of the end or a stop if the first told of the
end. -/
def Message.EndsBefore (m m' : Message) : Prop :=
  m.tells "terminated" = true → ∀ name ∈ endNames, m'.tells name = false

namespace System

variable {σ : Type} [Engine σ] {s s' : System σ}

/-- What was told of the end is in order. `owes` means that the client is to be told now. -/
structure Concluding (s : System σ) : Prop where
  once : ∃ owes, s.forwarder.Tells owes ∧
    s.outbox.told "terminated" + owes.toNat ≤ if s.state = .terminated then 1 else 0
  concludes : s.forwarder.Concludes
  silent : 0 < s.outbox.told "terminated" → s.forwarder.Silent
  last : s.outbox.messages.Pairwise Message.EndsBefore

omit [Engine σ] in
/-- The end is told at most once. -/
theorem Concluding.told_le (h : s.Concluding) : s.outbox.told "terminated" ≤ 1 := by
  obtain ⟨owes, -, told⟩ := h.once
  split at told <;> omega

omit [Engine σ] in
/-- Once the end was told, the session is over. -/
theorem Concluding.state (h : s.Concluding) (told : 0 < s.outbox.told "terminated") :
    s.state = .terminated := by
  obtain ⟨owes, -, once⟩ := h.once
  split at once
  · assumption
  · omega

/-- What was written is in order after an action that tells nothing of the end if the client was told of it
before. -/
private theorem Concluding.written (h : s.Concluding) {a : Action} {r : a.Result}
    (e : s.perform a = some (r, s'))
    (quiet : 0 < s.outbox.told "terminated" → ∀ name ∈ endNames, a.tells name = false) :
    s'.outbox.messages.Pairwise Message.EndsBefore := by
  rw [perform_messages e, List.pairwise_append]
  refine ⟨h.last, a.pairwise_writes _ _, fun m hm m' hm' tells name hname => ?_⟩
  have other : name ≠ "output" := by
    rintro rfl
    exact absurd hname (by decide)
  rw [Action.tells_of_writes hm' other]
  refine quiet ?_ name hname
  rw [Outbox.told_eq]
  exact List.countP_pos_iff.2 ⟨m, hm, tells⟩

/-- An action of a request tells of no end, and of no stop after it. -/
theorem Concluding.perform (h : s.Concluding) {a : Action} {r : a.Result}
    (e : s.perform a = some (r, s')) (lasting : a.Lasting endNames) : s'.Concluding := by
  obtain ⟨state, told⟩ := perform_shown e
  have told : s'.outbox.told "terminated" =
      s.outbox.told "terminated" + (a.tells "terminated").toNat := told (by decide)
  rw [lasting.silent "terminated" (by decide)] at told
  have told : s'.outbox.told "terminated" = s.outbox.told "terminated" := told
  have lasts : s.state = .terminated → s'.state = .terminated := by
    intro isOver
    rw [state, isOver, lasting.lasts]
  obtain ⟨owes, tells, once⟩ := h.once
  -- no further end is told, and the state stays over if it is
  have kept : s'.outbox.told "terminated" + owes.toNat ≤ if s'.state = .terminated then 1 else 0 := by
    rw [told]
    split at once
    · rwa [if_pos (lasts ‹_›)]
    · exact Nat.le_trans once (Nat.zero_le _)
  have last := h.written e fun _ => lasting.silent
  -- a new gateway has a forwarder with nothing to do
  rcases perform_forwarder e with same | anew
  · exact ⟨⟨owes, same ▸ tells, kept⟩, same ▸ h.concludes, fun on => same ▸ h.silent (told ▸ on), last⟩
  · refine ⟨⟨false, by rw [anew]; rfl, ?_⟩, by rw [anew]; trivial, fun _ => by rw [anew]; trivial, last⟩
    exact Nat.le_trans (Nat.le_add_right _ _) kept

/-- What the forwarder does keeps what was told in order. -/
private theorem Concluding.performed (h : s.Concluding) {a : Action} {next : a.Result → Program Unit}
    (hf : s.forwarder = .act a next) {r : a.Result} (e : s.perform a = some (r, s')) :
    { s' with forwarder := next r }.Concluding := by
  obtain ⟨owes, tells, once⟩ := h.once
  have concludes := h.concludes
  rw [hf] at tells concludes
  obtain ⟨owes', tells', balance⟩ := tells.after e
  -- the end is told exactly where it was owed
  have told' : s'.outbox.told "terminated" = s.outbox.told "terminated" + owes.toNat := by
    rw [← tells.owes]
    exact (perform_shown e).2 (by decide)
  -- what is left when the client was told before
  have rest : 0 < s.outbox.told "terminated" → owes = false ∧ (next r).Silent ∧ a.tells "stopped" = false := by
    intro told
    -- the end is told now, or it was told before
    have silent := h.silent told
    rw [hf] at silent
    obtain ⟨rest, -, quiet⟩ := silent.after e (h.state told)
    refine ⟨?_, rest, quiet⟩
    cases owes with
    | false => rfl
    | true =>
      have one := Bool.toNat_true
      split at once <;> omega
  have last : s'.outbox.messages.Pairwise Message.EndsBefore := by
    refine h.written e fun told name hname => ?_
    obtain ⟨rfl, -, stopped⟩ := rest told
    simp only [endNames, List.mem_cons, List.not_mem_nil, or_false] at hname
    rcases hname with rfl | rfl
    · exact tells.owes
    · exact stopped
  -- once the end is told, the forwarder is silent
  have silent : 0 < s'.outbox.told "terminated" → (next r).Silent := by
    intro told
    cases owes with
    | true => exact concludes.1 tells.owes r
    | false => exact (rest (by rwa [told'] at told)).2.1
  refine ⟨⟨owes', tells', ?_⟩, concludes.2 r, silent, last⟩
  dsimp only
  omega

/-- The other threads tell of the end at most once, and of no stop after it. -/
theorem stable_concluding : Stable (Concluding (σ := σ)) where
  forwarder := by
    intro s h
    -- the forwarder acts, takes an event, or waits
    rcases s.stepForwarder_cases with ⟨a, next, r, s', hf, e, step⟩ | ⟨event, hf, -, step⟩ | step
    · rw [step]
      exact h.performed hf e
    · obtain ⟨owes, tells, once⟩ := h.once
      rw [hf] at tells
      obtain rfl : owes = false := tells
      rw [step]
      exact ⟨⟨false, Session.tells_forward event, once⟩, Session.concludes_forward event,
        fun _ => Session.silent_forward event, h.last⟩
    · rwa [step]
  engine := fun h => ⟨h.once, h.concludes, h.silent, h.last⟩

end System

/-! ## Sessions -/

namespace SessionRun

variable {σ α : Type} [Engine σ] {r : SessionRun σ α} {R : α → Prop}

/-- A session that is over stays so, as long as its thread does not take that back. -/
theorem ended_run {names : List String} (ended : r.system.Ended)
    (lasting : r.program.All (Action.Lasting names) R) (schedule : List SessionThread) :
    (r.run schedule).system.state = .terminated :=
  (all_run System.stable_ended (fun lasting => fun h e => h.perform e lasting.lasts) ⟨ended, lasting⟩
    schedule).1.state

/-- What was told of the end is in order at any time, as long as the session thread tells nothing of it. -/
theorem concluding_run (concluding : r.system.Concluding) (tame : r.system.Tame)
    (lasting : r.program.All (Action.Lasting endNames) R) (schedule : List SessionThread) :
    ((r.run schedule).system.Concluding ∧ (r.run schedule).system.Tame) ∧
      (r.run schedule).program.All (Action.Lasting endNames) R :=
  all_run (System.stable_concluding.and System.stable_tame)
    (fun lasting => fun h e => ⟨h.1.perform e lasting, h.2.perform e⟩) ⟨⟨concluding, tame⟩, lasting⟩ schedule

end SessionRun

end DebugAdapter
