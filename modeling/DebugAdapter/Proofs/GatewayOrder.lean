import DebugAdapter.Proofs.GatewaySteps

/-!
# How a gateway ends

A gateway ends in an orderly way: it takes no further commands once one to terminate is queued, that
one is carried out at the latest when the engine thread leaves, and whoever carries it out publishes
that the session is over. So an engine thread that has ended has published this exactly once.

The one thing that callers have to see to is that they do not have the engine thread end as long as
commands are accepted (`GatewayAction.AllowedIn`).

## Key results

- `Worker.calm_execute`: only a command to terminate ends the session and publishes that it is over
- `Gateway.Orderly.act`: every action keeps a gateway orderly
- `Gateway.Orderly.count_terminated`: what an engine thread that has ended has published
- `Gateway.later_run`: what was answered, published and ended stays so
-/

namespace DebugAdapter

variable {σ : Type}

namespace Worker

/-- Of what a worker has come to do since `w₀`, nothing was to end the session. -/
structure Calm (w₀ w : Worker σ) : Prop where
  cancelled_eq : w.cancelled = w₀.cancelled
  ended_eq : w.session.ended = w₀.session.ended
  published_eq : ∃ es, w.published = w₀.published ++ es ∧ GatewayEvent.terminated ∉ es

/-- Doing nothing is calm. -/
theorem Calm.refl (w : Worker σ) : w.Calm w :=
  ⟨rfl, rfl, [], by simp, by simp⟩

/-- Calm work in a row is calm. -/
theorem Calm.trans {w₀ w w' : Worker σ} (h : w₀.Calm w) (h' : w.Calm w') : w₀.Calm w' := by
  obtain ⟨es, hes, hnot⟩ := h.published_eq
  obtain ⟨es', hes', hnot'⟩ := h'.published_eq
  refine ⟨h'.cancelled_eq.trans h.cancelled_eq, h'.ended_eq.trans h.ended_eq, es ++ es', ?_, ?_⟩
  · rw [hes', hes, List.append_assoc]
  · simp [hnot, hnot']

/-- Calm work does not tell of the end of the session. -/
theorem Calm.count_terminated {w₀ w : Worker σ} (h : w₀.Calm w) :
    w.published.count .terminated = w₀.published.count .terminated := by
  obtain ⟨es, he, hnot⟩ := h.published_eq
  rw [he, List.count_append, List.count_eq_zero.2 hnot, Nat.add_zero]

/-- A fold of changes of the engine is one change of the engine. -/
theorem foldl_onEngine {α : Type} (f : α → σ → σ) (l : List α) (w : Worker σ) :
    l.foldl (fun w a => onEngine (f a) w) w =
      w.onEngine fun engine => l.foldl (fun engine a => f a engine) engine := by
  induction l generalizing w with
  | nil => rfl
  | cons a l ih => exact ih _

variable [Engine σ]

/-- The groups that are released by `retainGroups`, from the engine's point of view. -/
theorem retainGroups_eq (keep : GroupKey → Bool) (w : Worker σ) :
    w.retainGroups keep =
      { w with
        session := { w.session with
          engine := ((w.groups.filter fun g => !keep g.1).map (·.2.group)).foldl
            (fun engine g => Engine.releaseGroup g engine) w.session.engine }
        groups := w.groups.filter fun g => keep g.1 } := by
  simp only [retainGroups, foldl_onEngine]
  rfl

/-- Clearing the groups releases all of them and forgets them. -/
theorem clearGroups_eq (w : Worker σ) :
    w.clearGroups =
      { w with
        session := { w.session with
          engine := (w.groups.map (·.2.group)).foldl (fun engine g => Engine.releaseGroup g engine)
            w.session.engine }
        groups := [] } := by
  have all : w.groups.filter (fun _ => !false) = w.groups := List.filter_eq_self.2 fun _ _ => rfl
  have none : w.groups.filter (fun _ => false) = [] := List.filter_eq_nil_iff.2 fun _ _ => nofun
  rw [clearGroups, retainGroups_eq, all, none]

/-- What a command to terminate does: the native session is ended, then the symbol groups are
released. -/
theorem terminate_eq (w : Worker σ) :
    (terminate.run w).2 =
      { w with
        session := { w.session.finish.2 with
          engine := (w.groups.map (·.2.group)).foldl (fun engine g => Engine.releaseGroup g engine)
            w.session.finish.2.engine }
        store := {}
        groups := []
        process := none
        cancelled := true
        published := w.published ++ [.terminated] } := by
  have h : (terminate.run w).2 =
      let ended := ({ w with cancelled := true, session := w.session.finish.2, store := {} } :
        Worker σ).clearGroups
      { ended with process := none, published := ended.published ++ [.terminated] } := rfl
  rw [h, clearGroups_eq]

/-! ## Work that does not end the session -/

/-- Being calm is kept by all the work on threads. -/
theorem calm_frame (w₀ : Worker σ) : ThreadFrame w₀.Calm where
  call := fun _ w h => ⟨h.cancelled_eq, h.ended_eq, h.published_eq⟩
  wait := fun w h => ⟨h.cancelled_eq, h.ended_eq, h.published_eq⟩
  interrupt := fun w h => ⟨h.cancelled_eq, h.ended_eq, h.published_eq⟩
  store := fun w op _ _ h => ⟨h.cancelled_eq, h.ended_eq, h.published_eq⟩
  anyStore := fun w op _ h => ⟨h.cancelled_eq, h.ended_eq, h.published_eq⟩
  retainGroups := by
    intro w keep h
    rw [retainGroups_eq]
    exact ⟨h.cancelled_eq, h.ended_eq, h.published_eq⟩
  publish := by
    intro w e he h
    -- an event that is added is not the end of the session
    obtain ⟨es, hes, hnot⟩ := h.published_eq
    refine ⟨h.cancelled_eq, h.ended_eq, es ++ [e], ?_, ?_⟩
    · rw [hes, List.append_assoc]
    · simp [hnot, Ne.symm he]
  typeNames := fun w _ h => ⟨h.cancelled_eq, h.ended_eq, h.published_eq⟩
  process := fun w _ h => ⟨h.cancelled_eq, h.ended_eq, h.published_eq⟩
  resume := fun w _ h => ⟨h.cancelled_eq, h.ended_eq, h.published_eq⟩
  knownThreads := fun w _ h => ⟨h.cancelled_eq, h.ended_eq, h.published_eq⟩
  exited := fun w _ h => ⟨h.cancelled_eq, h.ended_eq, h.published_eq⟩
  stalled := fun w _ h => ⟨h.cancelled_eq, h.ended_eq, h.published_eq⟩

/-- Being calm is kept while a group is taken out and put back. -/
theorem calm_groupFrame (w₀ : Worker σ) : GroupFrame w₀.Calm fun _ _ => w₀.Calm :=
  (calm_frame w₀).commands.storing.groupFrame
    (fun _ _ h => ⟨h.cancelled_eq, h.ended_eq, h.published_eq⟩)
    fun _ _ _ h => ⟨h.cancelled_eq, h.ended_eq, h.published_eq⟩

/-- Being calm is kept by the work on breakpoints. -/
theorem calm_breakpointFrame (w₀ : Worker σ) : BreakpointFrame w₀.Calm where
  call := (calm_frame w₀).looking.call
  breakpointCall := fun _ _ h => ⟨h.cancelled_eq, h.ended_eq, h.published_eq⟩
  breakpoints := fun _ _ h => ⟨h.cancelled_eq, h.ended_eq, h.published_eq⟩

/-- No command but the one to terminate ends the session. -/
theorem calm_execute {c : Command} (hc : c ≠ .terminate) (w : Worker σ) :
    w.Calm ((execute c).run w).2 :=
  (calm_frame w).commands.execute (calm_groupFrame w) (calm_breakpointFrame w).setBreakpoints hc w (.refl w)

/-- Clearing the engine's breakpoints is calm. -/
theorem calm_clearBreakpoints (w : Worker σ) : w.Calm ((ask Engine.clearBreakpoints).run w).2 :=
  (calm_breakpointFrame w).breakpointCall .clearBreakpoints w (.refl w)

/-- Quiet work is calm. -/
theorem Quiet.calm {w w' : Worker σ} (h : w.Quiet w') : w.Calm w' :=
  h _ (calm_frame w).toFrame (.refl w)

end Worker

namespace Gateway

/-- The commands to terminate that are queued, and those carried out, are one as soon as the queue is
closed. -/
structure Orderly (g : Gateway σ) : Prop where
  closed_of_cancelled : g.worker.cancelled = true → g.accepting = false
  closed_of_leaving : g.phase = .leaving ∨ g.phase = .finished → g.accepting = false
  queue_of_finished : g.phase = .finished → g.queue = []
  count_terminate : g.queue.countP (·.2 = .terminate) + g.worker.published.count .terminated =
    if g.accepting then 0 else 1

/-- A new gateway is orderly. -/
theorem orderly_new (engine : σ) (options : GatewayOptions) : (new engine options).Orderly where
  closed_of_cancelled := nofun
  closed_of_leaving := by rintro (h | h) <;> exact nomatch h
  queue_of_finished := nofun
  count_terminate := rfl

end Gateway

/-- The engine thread is only told to end when no further commands are accepted. -/
def GatewayAction.AllowedIn (g : Gateway σ) : GatewayAction → Prop
  | .cancel => g.accepting = false
  | _ => True

namespace Gateway.Orderly

variable {g : Gateway σ}

/-! ## Callers -/

/-- Submitting a command keeps a gateway orderly, be it accepted or refused. -/
theorem submit (h : g.Orderly) (c : Command) : (g.submit c).2.Orderly := by
  unfold Gateway.submit
  split
  · next hacc =>
    -- a queue that accepts belongs to a thread that is not about to leave
    have count := h.count_terminate
    simp only [hacc, if_true] at count
    exact
    { closed_of_cancelled := by
        intro hc
        rw [h.closed_of_cancelled hc] at hacc
        exact nomatch hacc
      closed_of_leaving := by
        intro hp
        rw [h.closed_of_leaving hp] at hacc
        exact nomatch hacc
      queue_of_finished := by
        intro hp
        rw [h.closed_of_leaving (.inr hp)] at hacc
        exact nomatch hacc
      count_terminate := by
        simp only [List.countP_append, List.countP_singleton]
        -- a command to terminate closes the queue, and is the one that is counted; others do not count
        by_cases hc : c = .terminate
        · simp only [hc, decide_true, if_true, ne_eq, not_true, decide_false, Bool.false_eq_true, if_false]
          omega
        · simp only [hc, decide_false, ne_eq, not_false_eq_true, decide_true, if_true, Bool.false_eq_true,
            if_false]
          omega }
  · exact h

/-- An engine thread that has ended has published exactly once that the session is over. -/
theorem count_terminated (h : g.Orderly) (finished : g.phase = .finished) :
    g.worker.published.count .terminated = 1 := by
  have count := h.count_terminate
  rw [h.queue_of_finished finished, h.closed_of_leaving (.inr finished)] at count
  simpa using count

/-! ## The engine thread -/

/-- Calm work, with some commands taken that are not to terminate. -/
private theorem of_calm (h : g.Orderly) {w : Worker σ} (calm : g.worker.Calm w) {g' : Gateway σ}
    (hw : g'.worker = w) (hacc : g'.accepting = g.accepting)
    (hq : g'.queue.countP (·.2 = .terminate) = g.queue.countP (·.2 = .terminate))
    (on : g'.phase ≠ .leaving ∧ g'.phase ≠ .finished) : g'.Orderly where
  closed_of_cancelled := by
    rw [hw, hacc, calm.cancelled_eq]
    exact h.closed_of_cancelled
  closed_of_leaving := fun hp => absurd hp (not_or.2 on)
  queue_of_finished := fun hp => absurd hp on.2
  count_terminate := by
    rw [hw, hacc, hq, calm.count_terminated]
    exact h.count_terminate

variable [Engine σ]

/-- A command that is carried out is off the queue; if it was to terminate, that the session is over
is published. -/
private theorem of_execute (h : g.Orderly) {w : Worker σ} {ticket : Ticket} {c : Command}
    {rest : List (Ticket × Command)} (quiet : g.worker.Quiet w) (hq : g.queue = (ticket, c) :: rest)
    {g' : Gateway σ} (hw : g'.worker = ((Worker.execute c).run w).2)
    (hacc : g'.accepting = g.accepting) (hq' : g'.queue = rest)
    (on : g'.phase ≠ .leaving ∧ g'.phase ≠ .finished) : g'.Orderly := by
  have count := h.count_terminate
  rw [hq, List.countP_cons] at count
  -- terminating tells of the end and takes its command off the queue, so the count stays
  by_cases hc : c = .terminate
  · subst hc
    -- the queue was closed when this command was accepted
    have closed : g.accepting = false := by
      cases hacc : g.accepting with
      | false => rfl
      | true =>
        simp only [hacc, decide_true, if_true] at count
        omega
    simp only [closed, decide_true, if_true, Bool.false_eq_true, if_false] at count
    have published : g'.worker.published = w.published ++ [.terminated] := by
      rw [hw]
      exact congrArg Worker.published (Worker.terminate_eq w)
    exact
    { closed_of_cancelled := fun _ => hacc.trans closed
      closed_of_leaving := fun _ => hacc.trans closed
      queue_of_finished := fun hp => absurd hp on.2
      count_terminate := by
        rw [published, hq', hacc, closed, List.count_append, List.count_singleton_self,
          quiet.calm.count_terminated]
        simp only [Bool.false_eq_true, if_false]
        omega }
  · refine h.of_calm (quiet.calm.trans (Worker.calm_execute hc w)) hw hacc ?_ on
    rw [hq', hq, List.countP_cons]
    simp [hc]

/-- The commands that are carried out at the end are those to terminate. -/
theorem count_foldl_performLast (l : List (Ticket × Command)) (g : Gateway σ) :
    (l.foldl performLast g).worker.published.count .terminated =
      g.worker.published.count .terminated + l.countP (·.2 = .terminate) := by
  -- on the commands that are left, from whatever gateway the ones before have led to
  induction l generalizing g with
  | nil => rfl
  | cons head rest ih =>
    obtain ⟨ticket, c⟩ := head
    rw [List.foldl_cons, ih, List.countP_cons]
    by_cases hc : c = .terminate
    · subst hc
      have published : (g.performLast (ticket, .terminate)).worker.published =
          g.worker.published ++ [.terminated] :=
        congrArg Worker.published (Worker.terminate_eq g.worker)
      rw [published, List.count_append, List.count_singleton_self]
      simp only [decide_true, if_true]
      omega
    · rw [performLast_of_ne hc]
      simp [hc]

/-- A step of the engine thread keeps a gateway orderly. -/
theorem advance (h : g.Orderly) : g.advance.Orderly := by
  have step := advance_spec g
  generalize g.executions = executions, g.advance = g' at step ⊢
  -- most steps are calm and touch neither the queue nor what closes it
  cases step with
  | begin phase => exact h.of_calm (Worker.calm_clearBreakpoints _) rfl rfl rfl ⟨nofun, nofun⟩
  | work quiet idle off on => exact h.of_calm quiet.calm rfl rfl rfl on
  | wait phase => exact h.of_calm (Worker.quiet_awaited _).calm rfl rfl rfl (Phase.afterWait_ne _ _)
  | finishStart phase =>
    exact h.of_calm (Worker.quiet_finishStart _ _ _).calm rfl rfl rfl ⟨nofun, nofun⟩
  | answered quiet phase queue outcome =>
    exact h.of_execute quiet queue rfl rfl rfl ⟨nofun, nofun⟩
  | started quiet phase queue outcome =>
    exact h.of_execute quiet queue rfl rfl rfl ⟨nofun, nofun⟩
  | giveUp quiet phase queue closed =>
    -- the thread gives up only where the queue is closed
    exact
    { closed_of_cancelled := fun _ => closed
      closed_of_leaving := fun _ => closed
      queue_of_finished := nofun
      count_terminate := by
        simp only [goto]
        rw [quiet.calm.count_terminated]
        exact h.count_terminate }
  | decide phase cancelled =>
    exact
    { h with
      closed_of_leaving := fun _ => h.closed_of_cancelled cancelled
      queue_of_finished := nofun }
  | leave phase =>
    have closed := h.closed_of_leaving (.inl phase)
    have published : ∀ w : Worker σ, w.release.published = w.published := by
      intro w
      simp only [Worker.release, Worker.clearGroups_eq]
    rw [leave_eq]
    have count := h.count_terminate
    exact
    { closed_of_cancelled := fun _ => closed
      closed_of_leaving := fun _ => closed
      queue_of_finished := fun _ => rfl
      count_terminate := by
        -- the commands to terminate that are still in the queue are carried out now
        rw [published, count_foldl_performLast, List.countP_nil, ← count]
        exact (Nat.zero_add _).trans (Nat.add_comm _ _) }
  | stay phase => exact h

/-! ## All actions -/

/-- Any allowed action keeps a gateway orderly. -/
theorem act (h : g.Orderly) {a : GatewayAction} (allowed : a.AllowedIn g) : (g.act a).Orderly := by
  cases a with
  | submit c => exact h.submit c
  | interrupt =>
    simp only [Gateway.act, Gateway.interrupt]
    split
    · exact { h with }
    · exact h
  | markDisposed => exact { h with }
  | closeQueue => exact h.submit .terminate
  | cancel => exact { h with closed_of_cancelled := fun _ => allowed }
  | silence => exact { h with }
  | advance => exact h.advance

end Gateway.Orderly

/-! ## What stays -/

/-- Calm work publishes after what was published before. -/
theorem Worker.Calm.published {w₀ w : Worker σ} (h : w₀.Calm w) : w₀.published <+: w.published := by
  obtain ⟨es, he, -⟩ := h.published_eq
  exact ⟨es, he.symm⟩

variable [Engine σ]

/-- Executing a command takes back no event. -/
theorem Worker.published_execute (c : Command) (w : Worker σ) :
    w.published <+: ((execute c).run w).2.published := by
  by_cases hc : c = .terminate
  · subst hc
    exact ⟨[.terminated], (congrArg Worker.published (terminate_eq w)).symm⟩
  · exact (calm_execute hc w).published

/-- Executing a command does not undo a cancellation. -/
theorem Worker.cancelled_execute (c : Command) {w : Worker σ} (h : w.cancelled = true) :
    ((execute c).run w).2.cancelled = true := by
  by_cases hc : c = .terminate
  · subst hc
    exact congrArg Worker.cancelled (terminate_eq w)
  · exact (calm_execute hc w).cancelled_eq.trans h

namespace Gateway

/-- What was there at a gateway is there later: no answer is taken back, nothing published is, and
neither the end of the engine thread, nor the order to end, nor the end of the queue is. -/
structure Later (g g' : Gateway σ) : Prop where
  accepting : g'.accepting = true → g.accepting = true
  finished : g.phase = .finished → g'.phase = .finished
  published : g.worker.published <+: g'.worker.published
  answers : g.answers <+: g'.answers
  cancelled : g.worker.cancelled = true → g'.worker.cancelled = true

omit [Engine σ] in
/-- A gateway is as late as itself. -/
theorem Later.refl (g : Gateway σ) : g.Later g :=
  ⟨id, id, List.prefix_refl _, List.prefix_refl _, id⟩

omit [Engine σ] in
/-- Later than a later one is later. -/
theorem Later.trans {g₁ g₂ g₃ : Gateway σ} (h : g₁.Later g₂) (h' : g₂.Later g₃) : g₁.Later g₃ :=
  ⟨fun on => h.accepting (h'.accepting on), fun off => h'.finished (h.finished off),
    h.published.trans h'.published, h.answers.trans h'.answers,
    fun off => h'.cancelled (h.cancelled off)⟩

omit [Engine σ] in
/-- A gateway that accepts no command does not accept one later. -/
theorem Later.closed {g g' : Gateway σ} (h : g.Later g') (closed : g.accepting = false) :
    g'.accepting = false := by
  cases on : g'.accepting with
  | false => rfl
  | true => exact (h.accepting on).symm.trans closed

omit [Engine σ] in
/-- A gateway is later after a command was submitted. -/
theorem later_submit (g : Gateway σ) (c : Command) : g.Later (g.submit c).2 := by
  unfold submit
  split
  · next on => exact ⟨fun _ => on, id, List.prefix_refl _, List.prefix_refl _, id⟩
  · exact .refl g

/-- A gateway is later after the last commands were carried out. -/
theorem later_foldl_performLast (l : List (Ticket × Command)) (g : Gateway σ) :
    g.Later (l.foldl performLast g) := by
  induction l generalizing g with
  | nil => exact .refl g
  | cons head rest ih =>
    obtain ⟨ticket, c⟩ := head
    rw [List.foldl_cons]
    refine .trans ?_ (ih _)
    -- of the commands that are left, only those to terminate do anything
    by_cases hc : c = .terminate
    · subst hc
      exact ⟨id, id, Worker.published_execute .terminate g.worker, List.prefix_append _ _,
        Worker.cancelled_execute .terminate⟩
    · rw [performLast_of_ne hc]
      exact .refl g

/-- A gateway is later after a step of the engine thread. -/
theorem later_advance (g : Gateway σ) : g.Later g.advance := by
  have step := advance_spec g
  generalize g.executions = executions, g.advance = g' at step ⊢
  -- a step never starts from a thread that has ended, but for the last case
  cases step with
  | begin phase =>
    have calm := Worker.calm_clearBreakpoints g.worker
    exact ⟨id, fun h => (nomatch phase.symm.trans h), calm.published, List.prefix_refl _,
      calm.cancelled_eq.trans⟩
  | work quiet idle off on =>
    exact ⟨id, fun h => absurd h off.2, quiet.calm.published, List.prefix_refl _,
      quiet.calm.cancelled_eq.trans⟩
  | wait phase =>
    refine ⟨id, fun h => ?_, (Worker.quiet_awaited _).calm.published, List.prefix_refl _, id⟩
    rcases phase with e | e <;> exact nomatch e.symm.trans h
  | @finishStart ticket d answer phase =>
    have calm := (Worker.quiet_finishStart d answer g.worker).calm
    exact ⟨id, fun h => (nomatch phase.symm.trans h), calm.published, List.prefix_append _ _,
      calm.cancelled_eq.trans⟩
  | answered quiet phase queue outcome =>
    refine ⟨id, fun h => ?_, quiet.calm.published.trans (Worker.published_execute _ _),
      List.prefix_append _ _, fun h => Worker.cancelled_execute _ (quiet.calm.cancelled_eq.trans h)⟩
    rcases phase with e | e <;> exact nomatch e.symm.trans h
  | started quiet phase queue outcome =>
    refine ⟨id, fun h => ?_, quiet.calm.published.trans (Worker.published_execute _ _),
      List.prefix_refl _, fun h => Worker.cancelled_execute _ (quiet.calm.cancelled_eq.trans h)⟩
    rcases phase with e | e <;> exact nomatch e.symm.trans h
  | @giveUp w quiet phase queue closed =>
    have published : g.worker.published <+: w.published := quiet.calm.published
    refine ⟨id, fun h => ?_, published, List.prefix_refl _, fun _ => rfl⟩
    rcases phase with e | e <;> exact nomatch e.symm.trans h
  | decide phase cancelled =>
    exact ⟨id, fun h => (nomatch phase.symm.trans h), List.prefix_refl _, List.prefix_refl _, id⟩
  -- nothing of what was published or answered is taken back
  | leave phase =>
    -- a thread that leaves has answered the commands that were left and released its groups
    have last := later_foldl_performLast g.queue { g with queue := [] }
    rw [leave_eq]
    refine ⟨id, fun _ => rfl, ?_, last.answers, ?_⟩ <;>
      simp only [Worker.release, Worker.clearGroups_eq]
    · exact last.published
    · exact last.cancelled
  | stay phase => exact .refl g

/-- A gateway is later after any action. -/
theorem later_act (g : Gateway σ) (a : GatewayAction) : g.Later (g.act a) := by
  cases a with
  | submit c => exact g.later_submit c
  | interrupt =>
    simp only [act, interrupt]
    split <;> exact ⟨id, id, List.prefix_refl _, List.prefix_refl _, id⟩
  | closeQueue => exact g.later_submit .terminate
  | cancel => exact ⟨id, id, List.prefix_refl _, List.prefix_refl _, fun _ => rfl⟩
  | markDisposed | silence => exact ⟨id, id, List.prefix_refl _, List.prefix_refl _, id⟩
  | advance => exact g.later_advance

/-- A gateway is later after any history. -/
theorem later_run (g : Gateway σ) (history : List GatewayAction) : g.Later (g.run history) := by
  induction history generalizing g with
  | nil => exact .refl g
  | cons a history ih => exact (g.later_act a).trans (ih _)

/-- Only callers drop the subscribers. -/
theorem silenced_advance (g : Gateway σ) : g.advance.silenced = g.silenced := by
  have step := advance_spec g
  generalize g.executions = executions, g.advance = g' at step ⊢
  cases step with
  | leave phase => rw [leave_eq]
  | _ => rfl

/-- Callers change neither the phase of the engine thread nor what it has published. -/
theorem act_kept (g : Gateway σ) {a : GatewayAction} (ha : a ≠ .advance) :
    (g.act a).phase = g.phase ∧ (g.act a).worker.published = g.worker.published := by
  -- the callers' actions work on the queue and the engine's wait only
  cases a with
  | submit c =>
    simp only [act, submit]
    split <;> exact ⟨rfl, rfl⟩
  | closeQueue =>
    simp only [act, closeQueue, submit]
    split <;> exact ⟨rfl, rfl⟩
  | interrupt =>
    simp only [act, interrupt]
    split <;> exact ⟨rfl, rfl⟩
  | advance => exact absurd rfl ha
  | markDisposed | cancel | silence => exact ⟨rfl, rfl⟩

/-- The subscribers are dropped by one action only. -/
theorem silenced_act (g : Gateway σ) {a : GatewayAction} (ha : a ≠ .silence) :
    (g.act a).silenced = g.silenced := by
  -- only one action silences, and the engine thread does not
  cases a with
  | submit c =>
    simp only [act, submit]
    split <;> rfl
  | closeQueue =>
    simp only [act, closeQueue, submit]
    split <;> rfl
  | interrupt =>
    simp only [act, interrupt]
    split <;> rfl
  | advance => exact g.silenced_advance
  | silence => exact absurd rfl ha
  | markDisposed | cancel => rfl

/-- An engine thread that has ended does nothing. -/
theorem advance_of_finished {g : Gateway σ} (finished : g.phase = .finished) : g.advance = g := by
  simp only [advance, finished]

end Gateway

end DebugAdapter
