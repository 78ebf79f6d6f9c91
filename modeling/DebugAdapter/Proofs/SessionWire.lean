import DebugAdapter.Proofs.SessionProtocol

/-!
# What is on the wire

A message gets its number when it is written, and the threads of a session write one after the other. So
whoever writes, the wire carries the messages under the numbers from one on (`SessionRun.wire_run`). An
action writes one message at most, and which one does not depend on the other threads
(`System.perform_writes`).

## Key results

- `System.perform_writes`: what an action writes
- `Session.all_forward`: the kinds of actions by which events are forwarded
- `SessionRun.wire_run`: the numbers on the wire
-/

namespace DebugAdapter

namespace Outbox

/-- The messages written, oldest first. -/
def messages (o : Outbox) : List Message :=
  o.written.reverse.map (·.2)

/-- A message that is sent is the last one. -/
@[simp] theorem messages_send (o : Outbox) (m : Message) : (o.send m).messages = o.messages ++ [m] := by
  simp [messages, send]

/-- The messages are numbered from one in the order in which they were written. -/
def Numbered (o : Outbox) : Prop :=
  o.toList = o.messages.mapIdx fun i m => m.toJson (i + 1)

/-- A message that is sent gets the next number. -/
theorem Numbered.send {o : Outbox} (h : o.Numbered) (m : Message) : (o.send m).Numbered := by
  have next : o.nextSeq = o.messages.length + 1 := by simp [nextSeq, messages]
  have last : (o.send m).toList = o.toList ++ [m.toJson o.nextSeq] := by simp [toList, Outbox.send]
  rw [Numbered, last, h, next, messages_send, List.mapIdx_concat]

/-- Messages that are sent one after the other are the last ones, in order. -/
theorem messages_foldl_send (ms : List Message) (o : Outbox) :
    (ms.foldl Outbox.send o).messages = o.messages ++ ms := by
  induction ms generalizing o with
  | nil => exact (List.append_nil _).symm
  | cons m ms ih => rw [List.foldl_cons, ih, messages_send, List.append_assoc]; rfl

/-- Messages that are sent one after the other are numbered on. -/
theorem Numbered.foldl_send {o : Outbox} (h : o.Numbered) (ms : List Message) :
    (ms.foldl Outbox.send o).Numbered := by
  induction ms generalizing o with
  | nil => exact h
  | cons m ms ih => exact ih (h.send m)

end Outbox

/-- What an action writes, if records that `console` accepts are shown. -/
def Action.writes (console : Option LogFilter) : Action → List Message
  | send m => [m]
  | note r => if console.any (·.accepts r) then [.event r.toEvent] else []
  | _ => []

/-- What is written is sent, or shows a log record. -/
theorem Action.of_mem_writes (a : Action) {console : Option LogFilter} {m : Message}
    (mem : m ∈ a.writes console) : a = .send m ∨ ∃ r : LogRecord, a = .note r ∧ m = .event r.toEvent := by
  cases a with
  | send m' =>
    obtain rfl := List.mem_singleton.1 mem
    exact .inl rfl
  | note r =>
    simp only [writes] at mem
    split at mem
    · obtain rfl := List.mem_singleton.1 mem
      exact .inr ⟨r, rfl, rfl⟩
    · exact nomatch mem
  | _ => exact nomatch mem

/-- An action writes one message at most. -/
theorem Action.pairwise_writes (R : Message → Message → Prop) (a : Action) (console : Option LogFilter) :
    (a.writes console).Pairwise R := by
  cases a with
  | send m => exact List.pairwise_singleton R m
  | note r =>
    simp only [writes]
    split
    · exact List.pairwise_singleton R _
    · exact .nil
  | _ => exact .nil

namespace System

variable {σ : Type} [Engine σ] {s s' : System σ}

/-- An action writes what it writes, whatever it is done among. -/
theorem perform_writes {a : Action} {r : a.Result} (h : s.perform a = some (r, s')) :
    s'.outbox = (a.writes s.console).foldl Outbox.send s.outbox ∧ s'.console = s.console := by
  -- an action writes a message, or a record that the console is to show
  cases a with
  | note r =>
    cases h
    simp only [System.note, Action.writes]
    split <;> exact ⟨rfl, rfl⟩
  -- a gateway that is opened, or not, writes nothing
  | openGateway engineOptions options =>
    simp only [perform, System.openGateway, Option.some.injEq] at h
    split at h <;> cases h <;> exact ⟨rfl, rfl⟩
  | submit c =>
    simp only [perform, System.submit, Option.some.injEq] at h
    split at h <;> cases h <;> exact ⟨rfl, rfl⟩
  | await ticket =>
    rw [(perform_await h).1]
    exact ⟨rfl, rfl⟩
  | awaitEnd =>
    rw [(perform_awaitEnd h).1]
    exact ⟨rfl, rfl⟩
  | joinForwarder =>
    rw [(perform_joinForwarder h).1]
    exact ⟨rfl, rfl⟩
  | _ =>
    cases h
    exact ⟨rfl, rfl⟩

/-- An action adds the messages that it writes. -/
theorem perform_messages {a : Action} {r : a.Result} (h : s.perform a = some (r, s')) :
    s'.outbox.messages = s.outbox.messages ++ a.writes s.console := by
  rw [(perform_writes h).1, Outbox.messages_foldl_send]

/-- What all actions keep is kept by the other threads. -/
theorem stable_of_perform {A : System σ → Prop}
    (congr : ∀ {s s' : System σ}, A s → s'.outbox = s.outbox → A s')
    (perform : ∀ {a s r s'}, A s → s.perform a = some (r, s') → A s') : Stable A where
  forwarder := by
    intro s h
    rcases s.stepForwarder_cases with ⟨a, next, r, s', -, e, step⟩ | ⟨e, -, -, step⟩ | step
    · rw [step]
      exact congr (perform h e) rfl
    · rw [step]
      exact congr h rfl
    · rwa [step]
  engine := fun h => congr h rfl

end System

namespace Session

/-- The kinds of actions by which an event is forwarded. Only when the process has exited, the gateway is
disposed of. -/
theorem all_forward_of {P : Action → Prop} {e : GatewayEvent}
    (stops : P (.updateState (SessionState.advanceTo .stopped)))
    (ends : P (.updateState fun _ => .terminated))
    (tells : ∀ name ∈ ["stopped", "terminated", "thread", "output", "exited"], ∀ body,
      P (.send (.event (.ofJson name body))))
    (disposes : ∀ code, e = .processExited code → ∀ a, a.Disposes → P a) :
    (forward e).All P fun _ => True := by
  have told : ∀ name ∈ ["stopped", "terminated", "thread", "output", "exited"], ∀ body,
      (forwardEvent name body).All P fun _ => True :=
    fun name h body => Program.all_perform (tells name h body)
  -- a stop, or the end, is told of unless the session is over
  have stopped : ∀ reason thread text, (forwardStop reason thread text).All P fun _ => True := by
    intro reason thread text
    refine (Program.all_perform stops).bind fun previous _ => ?_
    split
    · exact told "stopped" (by decide) _
    · exact trivial
  have ended : forwardEnd.All P fun _ => True := by
    refine (Program.all_perform ends).bind fun previous _ => ?_
    split
    · exact told "terminated" (by decide) _
    · exact trivial
  cases e with
  -- the exit of the debuggee ends the session and disposes of its gateway
  | processExited code =>
    have disposed := all_dispose (disposes code rfl)
    exact (told "exited" (by decide) _).bind fun _ _ => ended.bind fun _ _ => disposed
  | terminated => exact ended
  | breakpointHit | exceptionHit | breakHit | stepCompleted => exact stopped _ _ _
  | threadStarted | threadExited => exact told "thread" (by decide) _
  | output => exact told "output" (by decide) _

/-- The kinds of actions by which events are forwarded. -/
theorem all_forward {P : Action → Prop}
    (stops : P (.updateState (SessionState.advanceTo .stopped)))
    (ends : P (.updateState fun _ => .terminated))
    (tells : ∀ name ∈ ["stopped", "terminated", "thread", "output", "exited"], ∀ body,
      P (.send (.event (.ofJson name body))))
    (disposes : ∀ a, a.Disposes → P a) (e : GatewayEvent) : (forward e).All P fun _ => True :=
  all_forward_of stops ends tells fun _ _ => disposes

end Session

namespace SessionRun

variable {σ α : Type}

/-- The session of a new client, whose messages are to be taken. -/
def new (provider : EngineProvider σ) (host : Host) (console : Option LogFilter) (native : σ)
    (config : AdapterConfig) (engineName : String) (environment : Environment) (messages : List Json)
    (closed : Bool) : SessionRun σ (Bool × Session) where
  system := { provider, host, console, native }
  program := (Session.serve messages closed).run { config, engineName, environment }

/-- Whoever writes, the messages are on the wire under the numbers from one on. -/
theorem wire_run [Engine σ] {r : SessionRun σ α} (h : r.system.outbox.Numbered) (schedule : List SessionThread) :
    (r.run schedule).system.outbox.Numbered := by
  have perform : ∀ {a} {s : System σ} {r s'}, s.outbox.Numbered → s.perform a = some (r, s') →
      s'.outbox.Numbered := by
    intro a s r s' h e
    rw [(System.perform_writes e).1]
    exact h.foldl_send _
  have stable := System.stable_of_perform (A := fun s : System σ => s.outbox.Numbered)
    (fun h same => same ▸ h) perform
  exact (all_run stable (fun _ => perform) ⟨h, Program.all_trivial _⟩ schedule).1

end SessionRun

end DebugAdapter
