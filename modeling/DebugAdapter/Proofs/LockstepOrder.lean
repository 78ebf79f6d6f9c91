import DebugAdapter.CommandLine.Run
import DebugAdapter.Proofs.SessionWire

/-!
# The order of lockstep

In lockstep, the threads of a session make their steps in one order. So what holds of a session whatever
the order holds of it in lockstep: the session of a client that is served in lockstep is one that its
threads come to, and so is what the program writes.

## Key results

- `Lockstep.leads_perform`: work of the session thread in lockstep is done by the threads
- `Lockstep.serve_eq_run`: so is all that is done for a client
- `CommandLine.serveStreams_eq_run`: what the program writes is written by the threads of a session
-/

namespace DebugAdapter

variable {σ α β : Type} [Engine σ]

/-! ## Where threads come to -/

/-- The threads of a session come from a state to another, in some order. -/
def SessionRun.Leads (r r' : SessionRun σ α) : Prop :=
  ∃ schedule, r.run schedule = r'

namespace SessionRun.Leads

variable {s s' : System σ} {a : Action} {r : a.Result}

/-- A run leads to itself. -/
theorem refl (r : SessionRun σ α) : r.Leads r :=
  ⟨[], rfl⟩

/-- What a run leads to leads on. -/
theorem trans {r₁ r₂ r₃ : SessionRun σ α} (first : r₁.Leads r₂) (rest : r₂.Leads r₃) : r₁.Leads r₃ := by
  obtain ⟨schedule₁, rfl⟩ := first
  obtain ⟨schedule₂, rfl⟩ := rest
  exact ⟨schedule₁ ++ schedule₂, run_append _ _ _⟩

/-- A run leads to what one step makes of it. -/
theorem step (r : SessionRun σ α) (thread : SessionThread) : r.Leads (r.step thread) :=
  ⟨[thread], rfl⟩

/-- A run leads to what its next action makes of it. -/
theorem of_perform {next : a.Result → Program α} (h : s.perform a = some (r, s')) :
    Leads ⟨s, .act a next⟩ ⟨s', next r⟩ := by
  have stepped : (⟨s, .act a next⟩ : SessionRun σ α).stepRequests = ⟨s', next r⟩ := by
    simp only [stepRequests, h]
  exact stepped ▸ step _ .requests

/-- A run leads to what the next action of the forwarder makes of it. -/
theorem of_forwarder {next : a.Result → Program Unit} (taken : s.forwarder = .act a next)
    (h : s.perform a = some (r, s')) (p : Program α) :
    Leads ⟨s, p⟩ ⟨{ s' with forwarder := next r }, p⟩ := by
  have stepped : s.stepForwarder = { s' with forwarder := next r } := by
    simp only [System.stepForwarder, taken, h]
  exact stepped ▸ step ⟨s, p⟩ .forwarder

/-- The engine thread makes steps. -/
theorem engine (s : System σ) (p : Program α) (n : Nat) :
    Leads ⟨s, p⟩ ⟨s.onGateway (·.run (List.replicate n .advance)), p⟩ := by
  -- induction on the number of turns
  induction n generalizing s with
  | zero =>
    have same : s.onGateway (·.run (List.replicate 0 .advance)) = s := by
      simp [System.onGateway, Gateway.run]
    rw [same]
    exact refl _
  | succ n ih =>
    have advanced : s.stepEngine.onGateway (·.run (List.replicate n .advance)) =
        s.onGateway (·.run (List.replicate (n + 1) .advance)) := by
      simp only [System.stepEngine, System.onGateway, Option.map_map]
      rfl
    exact advanced ▸ (step ⟨s, p⟩ .engine).trans (ih s.stepEngine)

end SessionRun.Leads

/-! ## Lockstep -/

namespace Lockstep

open SessionRun

variable (fuel : Gateway σ → Nat)

/-- Whatever lets the engine thread make steps only. -/
theorem leads_onGateway {f : Gateway σ → Gateway σ}
    (h : ∀ g, ∃ n, f g = g.run (List.replicate n .advance)) (s : System σ) (p : Program α) :
    Leads ⟨s, p⟩ ⟨s.onGateway f, p⟩ := by
  -- without a gateway there is nothing to do
  cases hg : s.gateway with
  | none =>
    have same : s.onGateway f = s := by
      obtain ⟨_, _, _, _, _, _, _, _, _⟩ := s
      subst hg
      rfl
    rw [same]
    exact .refl _
  | some g =>
    obtain ⟨n, steps⟩ := h g
    have same : s.onGateway f = s.onGateway (·.run (List.replicate n .advance)) := by
      simp only [System.onGateway, hg, Option.map_some, steps]
    rw [same]
    exact .engine s p n

/-- Waiting for the engine is some turns of it. -/
theorem leads_awaitEngine (a : Action) (s : System σ) (p : Program α) :
    Leads ⟨s, p⟩ ⟨awaitEngine fuel a s, p⟩ := by
  cases a with
  | await ticket => exact leads_onGateway (fun g => g.await_eq_run ticket (fuel g)) s p
  | awaitEnd => exact leads_onGateway (fun g => g.settle_eq_run (fuel g)) s p
  | _ => exact .refl _

/-- Waiting for the engine leaves the forwarder as it is. -/
theorem awaitEngine_forwarder (a : Action) (s : System σ) :
    (awaitEngine fuel a s).forwarder = s.forwarder := by
  cases a <;> rfl

/-- An action that was attempted is performed at once, or after what it waits for. -/
theorem perform_of_attempt {unblock : Action → System σ → System σ} {a : Action} {s s' : System σ}
    {r : a.Result} (h : attempt unblock a s = some (r, s')) :
    s.perform a = some (r, s') ∨ (unblock a s).perform a = some (r, s') := by
  unfold attempt at h
  cases e : s.perform a with
  | none => exact .inr (by simpa [e] using h)
  | some result => exact .inl (by simpa [e] using h)

/-- Running the forwarder to its end is some turns of it and of the engine. -/
theorem leads_runForwarder (todo : Program Unit) {s : System σ} (taken : s.forwarder = todo)
    (p : Program α) : Leads ⟨s, p⟩ ⟨runForwarder fuel todo s, p⟩ := by
  -- induction on what is left to do; an action that has to wait lets the engine go first
  induction todo generalizing s with
  | done => exact .refl _
  | act a next ih =>
    unfold runForwarder
    cases e : attempt (awaitEngine fuel) a s with
    | none => exact .refl _
    | some result =>
      obtain ⟨r, s'⟩ := result
      refine .trans ?_ (ih r rfl)
      rcases perform_of_attempt e with performed | performed
      · exact .of_forwarder taken performed p
      · exact (leads_awaitEngine fuel a s p).trans
          (.of_forwarder ((awaitEngine_forwarder fuel a s).trans taken) performed p)

/-- Forwarding events is some turns of the forwarder and of the engine. -/
theorem leads_forwardEvents (n : Nat) (s : System σ) (p : Program α) :
    Leads ⟨s, p⟩ ⟨forwardEvents fuel n s, p⟩ := by
  induction n generalizing s with
  | zero => exact leads_runForwarder fuel _ rfl p
  | succ n ih =>
    refine (leads_runForwarder fuel s.forwarder rfl p).trans ?_
    unfold forwardEvents
    dsimp only
    split
    · exact (Leads.step ⟨_, p⟩ .forwarder).trans (ih _)
    · exact .refl _

/-- What the session thread waits for is done by the other threads. -/
theorem leads_awaitThreads (a : Action) (s : System σ) (p : Program α) :
    Leads ⟨s, p⟩ ⟨awaitThreads fuel a s, p⟩ := by
  unfold awaitThreads
  split
  · exact leads_forwardEvents fuel _ s p
  · exact leads_awaitEngine fuel _ s p

/-- Letting the other threads come to rest is some turns of them. -/
theorem leads_rest (s : System σ) (p : Program α) : Leads ⟨s, p⟩ ⟨rest fuel s, p⟩ :=
  (leads_onGateway (fun g => g.settle_eq_run (fuel g)) s p).trans (leads_forwardEvents fuel _ _ p)

/-- A program in lockstep is run by the threads. When it has a result, what comes after it is left. -/
theorem leads_runProgram (p : Program α) (s : System σ) (k : α → Program β) :
    ∃ left, Leads ⟨s, p.bind k⟩ ⟨(runProgram (awaitThreads fuel) p s).2, left⟩ ∧
      ∀ a, (runProgram (awaitThreads fuel) p s).1 = some a → left = k a := by
  -- induction on the program; an action that has to wait lets the other threads go first
  induction p generalizing s with
  | done a =>
    refine ⟨k a, .refl _, fun b same => ?_⟩
    rw [Option.some.inj same]
  | act a next ih =>
    unfold runProgram
    cases e : attempt (awaitThreads fuel) a s with
    | none => exact ⟨_, .refl _, fun b none => absurd none.symm (Option.some_ne_none b)⟩
    | some result =>
      obtain ⟨r, s'⟩ := result
      obtain ⟨left, leads, done⟩ := ih r s'
      refine ⟨left, .trans ?_ leads, done⟩
      rcases perform_of_attempt e with performed | performed
      · exact .of_perform performed
      · exact (leads_awaitThreads fuel a s _).trans (.of_perform performed)

/-- Work of the session thread in lockstep is done by the threads. When it is done, what comes after it is
left. -/
theorem leads_perform (m : SessionM α) (l : Live σ) (k : α × Session → Program β) :
    ∃ left, Leads ⟨l.system, (m.run l.session).bind k⟩ ⟨(perform fuel m l).2.system, left⟩ ∧
      ∀ a, (perform fuel m l).1 = some a → left = k (a, (perform fuel m l).2.session) := by
  obtain ⟨left, leads, done⟩ := leads_runProgram fuel (m.run l.session) l.system k
  unfold perform
  cases e : runProgram (awaitThreads fuel) (m.run l.session) l.system with
  | mk result system =>
    rw [e] at leads done
    refine ⟨left, ?_⟩
    -- with and without a result, the other threads come to rest afterwards
    cases result with
    | none => exact ⟨leads.trans (leads_rest fuel system left),
        fun a none => absurd none.symm (Option.some_ne_none a)⟩
    | some result =>
      refine ⟨leads.trans (leads_rest fuel system left), fun a same => ?_⟩
      rw [done result rfl, ← Option.some.inj same]

/-! ## Serving a client -/

open Framing

/-- Recording what was written is no step. -/
theorem Served.leads_perform (m : SessionM α) (s : Served σ) (k : α × Session → Program β) :
    ∃ left, Leads ⟨s.live.system, (m.run s.live.session).bind k⟩
        ⟨(s.perform fuel m).2.live.system, left⟩ ∧
      ∀ a, (s.perform fuel m).1 = some a → left = k (a, (s.perform fuel m).2.live.session) :=
  Lockstep.leads_perform fuel m s.live k

/-- The messages behind the first are served if the session goes on. -/
theorem serveMessages_cons (body : List UInt8) (m : Json) (rest : List (List UInt8 × Json))
    (s : Served σ) :
    let first := Served.perform fuel (Session.receive m)
      { s with traffic := s.traffic ++ [(Direction.incoming, body)] }
    serveMessages fuel ((body, m) :: rest) s =
      if first.1 = some true then serveMessages fuel rest first.2 else first := by
  intro first
  rw [serveMessages]
  cases e : first with
  | mk goesOn after =>
    simp only [first] at e
    rw [e]
    cases goesOn with
    | none => rfl
    | some goesOn => cases goesOn <;> rfl

/-- Messages that are taken in lockstep are taken by the threads. -/
theorem leads_serveMessages (read : List (List UInt8 × Json)) (s : Served σ)
    (k : Bool × Session → Program β) :
    ∃ left, Leads ⟨s.live.system, ((Session.receiveAll (read.map (·.2))).run s.live.session).bind k⟩
        ⟨(serveMessages fuel read s).2.live.system, left⟩ ∧
      ∀ goesOn, (serveMessages fuel read s).1 = some goesOn →
        left = k (goesOn, (serveMessages fuel read s).2.live.session) := by
  -- induction on the messages that were read
  induction read generalizing s with
  | nil =>
    refine ⟨_, .refl _, fun goesOn same => ?_⟩
    rw [← Option.some.inj same]
    rfl
  | cons one rest ih =>
    obtain ⟨body, m⟩ := one
    let recorded : Served σ := { s with traffic := s.traffic ++ [(Direction.incoming, body)] }
    -- what is left after the first message
    let onward : Bool × Session → Program β := fun r =>
      ((if r.1 then Session.receiveAll (rest.map (·.2)) else return false).run r.2).bind k
    have first : ((Session.receiveAll (((body, m) :: rest).map (·.2))).run s.live.session).bind k =
        ((Session.receive m).run recorded.live.session).bind onward :=
      Program.bind_assoc _ _ _
    obtain ⟨left, leads, done⟩ := recorded.leads_perform fuel (Session.receive m) onward
    rw [first, serveMessages_cons]
    by_cases goesOn : (recorded.perform fuel (Session.receive m)).1 = some true
    · rw [if_pos goesOn]
      obtain ⟨left', further, done'⟩ := ih (recorded.perform fuel (Session.receive m)).2
      refine ⟨left', leads.trans ?_, done'⟩
      rw [done true goesOn]
      exact further
    · -- a session that ends or waits for ever receives no more
      rw [if_neg goesOn]
      refine ⟨left, leads, fun last given => ?_⟩
      obtain rfl : last = false := by
        cases last with
        | true => exact absurd given goesOn
        | false => rfl
      exact done false given

/-- No more messages are read than bodies. -/
theorem length_messages_readAll (stream : List UInt8) :
    (readAll stream).messages.length ≤ (readAll stream).bodies.length := by
  fun_induction readAll stream with
  | case1 => simp
  | case2 => simp
  | case3 => simp
  | case4 stream body rest h this m read r ih => simpa using ih

/-- A client that is served in lockstep is served by the threads of a session in some order. -/
theorem serve_eq_run (stream : List UInt8) (live : Live σ) :
    let received := readAll stream
    ∃ schedule, (SessionRun.run ⟨live.system,
        (Session.serve received.messages received.failure.isNone).run live.session⟩ schedule).system =
      (serve fuel stream live).2.live.system := by
  intro received
  let closed := received.failure.isNone
  let leave : Bool × Session → Program (Bool × Session) := fun r =>
    (do Session.leave (r.1 && closed); return r.1 : SessionM Bool).run r.2
  obtain ⟨left, leads, done⟩ :=
    leads_serveMessages fuel (received.bodies.zip received.messages) { live } leave
  rw [List.map_snd_zip (length_messages_readAll stream)] at leads
  cases e : serveMessages fuel (received.bodies.zip received.messages) { live } with
  | mk goesOn s =>
    rw [e] at leads done
    -- without a result the session is kept waiting, otherwise it is left
    cases goesOn with
    | none =>
      obtain ⟨schedule, same⟩ := leads
      refine ⟨schedule, (congrArg SessionRun.system same).trans ?_⟩
      simp only [serve, e, received]
    | some goesOn =>
      obtain rfl := done goesOn rfl
      -- leaving is one more program that the schedule goes on with
      obtain ⟨left, leaves, -⟩ := Lockstep.leads_perform fuel (Session.leave (goesOn && closed)) s.live
        fun r => Program.done (goesOn, r.2)
      obtain ⟨schedule, same⟩ := leads.trans leaves
      refine ⟨schedule, (congrArg SessionRun.system same).trans ?_⟩
      simp only [serve, e, received]
      cases goesOn <;> rfl

end Lockstep

/-! ## The program -/

/-- What the program writes at its standard streams is what the threads of a session with that client
write in some order. -/
theorem CommandLine.serveStreams_eq_run (fuel : Gateway σ → Nat) (provider : EngineProvider σ)
    (native : σ) (env : Environment) (c : CommandLine) (log : Option (List String))
    (input : List UInt8) (h : Host) :
    let received := Framing.readAll input
    let config := AdapterConfig.load (c.configPath? env >>= h.content?)
    ∃ schedule, (c.serveStreams fuel provider native env log input h).output =
      Framing.writeAll ((SessionRun.new provider h (c.console env) native config provider.name env
        received.messages received.failure.isNone).run schedule).system.outbox.toList := by
  intro received config
  obtain ⟨schedule, same⟩ := Lockstep.serve_eq_run fuel input
    { session := { config, engineName := provider.name, environment := env }
      system := { provider, host := h, console := c.console env, native } }
  exact ⟨schedule, by rw [SessionRun.new, same]; rfl⟩

end DebugAdapter
