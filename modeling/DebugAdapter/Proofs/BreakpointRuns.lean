import DebugAdapter.Proofs.BreakpointLedger
import DebugAdapter.Proofs.ScriptedBreakpoints
import DebugAdapter.Proofs.StopFreshness
import DebugAdapter.Proofs.StopReports

/-!
# Breakpoints over whole runs

However callers and the engine thread take turns, the table has the breakpoints that are set in the
engine, parted by file, and the ids that were asked for count up. So when a stop is reported, an id
stands for the line it was asked for.

A stop is reported if the engine waited for one and the engine thread is not to end. Of the first stop of
a debuggee nothing but output is published, so a breakpoint hit there is not.

## Key results

- `Gateway.Registers.act`: every action keeps the table and the engine in step
- `Observed.run_breakpointsAgree`: what is true of the breakpoints after all turns
- `Observed.unpublished_hit_at_start`: a hit at the first stop, which is not published
-/

namespace DebugAdapter

variable {σ : Type} [Engine σ] {V : BreakpointView σ}

namespace Gateway

/-- The table and the engine are in step, and there are no breakpoints at the start. -/
structure Registers (V : BreakpointView σ) (g : Gateway (BreakpointLog σ)) : Prop where
  inStep : g.worker.InStep V []
  untouched : g.phase = .starting → g.worker.breakpoints = {}

omit [Engine σ] in
/-- A new gateway registers no breakpoint, and its engine has none. -/
theorem registers_new {engine : σ} (fit : V.fit engine) (none : ∀ id, ¬V.has engine id)
    (options : GatewayOptions) :
    (new ({ engine } : BreakpointLog σ) options).Registers V where
  inStep := fun _ =>
    { fit
      has_iff := fun id => iff_of_false (none id) (by simp [new, BreakpointTable.get?])
      nodup_loose := List.nodup_nil
      get?_loose := fun _ mem => absurd mem List.not_mem_nil
      consistent := BreakpointTable.consistent_empty
      ids := rfl
      asked := fun known => by cases known }
  untouched := fun _ => rfl

namespace Registers

variable {g : Gateway (BreakpointLog σ)}

/-- Carrying out the last commands keeps the table in step with the engine. -/
private theorem inStep_foldl_performLast (L : V.Lawful) (l : List (Ticket × Command))
    {g : Gateway (BreakpointLog σ)} (h : g.worker.InStep V []) :
    (l.foldl performLast g).worker.InStep V [] := by
  induction l generalizing g with
  | nil => exact h
  | cons head rest ih =>
    obtain ⟨ticket, c⟩ := head
    rw [List.foldl_cons]
    by_cases hc : c = .terminate
    · subst hc
      exact ih (Worker.inStep_execute L h .terminate)
    · rw [performLast_of_ne hc]
      exact ih h

/-- A step of the engine thread keeps the table in step with the engine. -/
private theorem inStep_advance (L : V.Lawful) (h : g.Registers V) :
    g.advance.worker.InStep V [] := by
  have quiet : ∀ {w : Worker (BreakpointLog σ)}, g.worker.Quiet w → w.InStep V [] :=
    fun q => q _ (Worker.inStep_frame L).toFrame h.inStep
  have step := advance_spec g
  generalize g.executions = executions, g.advance = g' at step ⊢
  -- breakpoints are touched when the engine is made, by a command, and at the end
  cases step with
  | begin phase => exact fun few => (h.inStep few).clear L (h.untouched phase)
  | work q idle off on => exact quiet q
  | wait phase => exact quiet (Worker.quiet_awaited _)
  | finishStart phase => exact quiet (Worker.quiet_finishStart _ _ _)
  | answered q phase queue outcome => exact Worker.inStep_execute L (quiet q) _
  | started q phase queue outcome => exact Worker.inStep_execute L (quiet q) _
  | giveUp q phase queue closed => exact (quiet q).congr rfl (.refl V _)
  | decide phase cancelled => exact h.inStep
  | leave phase =>
    rw [leave_eq]
    have emptied : ({ g with queue := [] } : Gateway _).worker.InStep V [] := h.inStep
    exact Worker.inStep_release L (inStep_foldl_performLast L g.queue emptied)
  | stay phase => exact h.inStep

/-- A step of the engine thread keeps what is registered. -/
theorem advance (L : V.Lawful) (h : g.Registers V) : g.advance.Registers V := by
  refine ⟨inStep_advance L h, fun starting => ?_⟩
  -- no step leads back to the start
  have step := g.moves_advance
  rw [starting] at step
  cases step

/-- Any action keeps what is registered. -/
theorem act (L : V.Lawful) (h : g.Registers V) (a : GatewayAction) : (g.act a).Registers V := by
  -- a queue may hold what it likes, as long as no command is carried out
  have submitted : ∀ c, (g.submit c).2.Registers V := by
    intro c
    unfold submit
    split
    · exact ⟨h.inStep, h.untouched⟩
    · exact h
  cases a with
  | submit c => exact submitted c
  | closeQueue => exact submitted .terminate
  | interrupt =>
    simp only [Gateway.act, interrupt]
    split
    · exact ⟨h.inStep.congr rfl ⟨L.interrupt _, rfl⟩, h.untouched⟩
    · exact h
  | cancel => exact ⟨h.inStep.congr rfl (.refl V _), h.untouched⟩
  | markDisposed | silence => exact ⟨h.inStep, h.untouched⟩
  | advance => exact h.advance L

end Registers

/-- The breakpoints of a gateway are those of its engine, and are what is reported. -/
structure BreakpointsAgree (V : BreakpointView σ) (g : Gateway (BreakpointLog σ)) : Prop where
  /-- The breakpoints of the table are those set in the engine. -/
  has_iff : ∀ id, V.has g.engine.engine id ↔ (g.worker.breakpoints.get? id).isSome = true
  /-- The lists of the files part the ids of the table, without duplicates. -/
  consistent : g.worker.breakpoints.Consistent
  /-- The ids that were asked for count up. -/
  pairwise_ids : g.engine.requests.Pairwise fun a b => a.1 < b.1
  /-- A breakpoint of the table was asked for under its id. -/
  asked : ∀ {id b}, g.worker.breakpoints.get? id = some b → (id, some b) ∈ g.engine.requests
  /-- A hit is published as one of the breakpoint under its id, and as a break if there is none. -/
  reports : ∀ {events}, g.phase = .woken .stop (.ok events) → g.worker.cancelled = false →
    g.worker.breakpoints.Reports events g.worker.published g.advance.worker.published
  /-- If the wait was for the first stop of a debuggee, or the engine thread is to end, output is all
  that is published. -/
  unreported : ∀ {purpose answer}, g.phase = .woken purpose answer →
    purpose ≠ .stop ∨ g.worker.cancelled = true → ∃ texts : List String,
      g.advance.worker.published = g.worker.published ++ texts.map .output

/-- A table that is in step agrees with the engine. -/
theorem Registers.breakpointsAgree {g : Gateway (BreakpointLog σ)} (h : g.Registers V)
    (few : g.worker.Few) : g.BreakpointsAgree V where
  has_iff := fun id => ((h.inStep few).has_iff id).trans (or_iff_left List.not_mem_nil)
  consistent := (h.inStep few).consistent
  pairwise_ids := (h.inStep few).pairwise_ids
  asked := (h.inStep few).asked
  reports := reports_advance
  unreported := published_advance_of_unreported

end Gateway

namespace Observed

/-- Whatever turns the callers and the engine thread take, the breakpoints are those of the engine, and
are what is reported, as long as ids do not run out. -/
theorem run_breakpointsAgree (L : V.Lawful) {engine : σ} (fit : V.fit engine)
    (none : ∀ id, ¬V.has engine id) (options : GatewayOptions) (turns : List Turn)
    (few : ((new ({ engine } : BreakpointLog σ) options).run turns).gateway.worker.Few) :
    ((new ({ engine } : BreakpointLog σ) options).run turns).gateway.BreakpointsAgree V := by
  have registers : ((new ({ engine } : BreakpointLog σ) options).run turns).gateway.Registers V :=
    run_induction (P := fun g _ _ => g.Registers V) (fun h a => h.act L a)
      (Gateway.registers_new fit none options) turns
  exact registers.breakpointsAgree few

/-- Two lines with code, and a stop at the second. -/
def stoppingAtSecond : Scripted.World where
  lines := [("a.rs", 3, 0x1000), ("a.rs", 5, 0x2000)]
  stops := [{ offset := some 0x2000 }]

/-- Breakpoints are asked for on the first line and then on the second instead; a debuggee is launched
and resumed. -/
def replaced (steps : Nat) : Observed (BreakpointLog Scripted.World) :=
  (new { engine := stoppingAtSecond } {}).run
    ([.call (.submit (.setBreakpoints "a.rs" [3])), .call (.submit (.setBreakpoints "a.rs" [5])),
      .call (.submit (.launch ⟨"app", "app", [], []⟩)), .call (.submit .continue)] ++
      List.replicate steps .engine)

/-- The breakpoint on the second line is hit under the id that it got. -/
theorem run_breakpointsAgree_replaced :
    (replaced 11).gateway.phase.returned? = some [.breakpoint 2] ∧
    (replaced 11).gateway.worker.breakpoints.get? 2 = some ⟨"a.rs", 5⟩ ∧
    (replaced 11).gateway.BreakpointsAgree Scripted.World.view := by
  refine ⟨?_, ?_, ?_⟩
  · decide +kernel
  · decide +kernel
  · have few : (replaced 11).gateway.worker.Few := by decide +kernel
    have fit : Scripted.World.view.fit stoppingAtSecond := rfl
    exact run_breakpointsAgree Scripted.World.view_lawful fit (fun id => List.not_mem_nil) {} _ few

/-- A breakpoint is asked for, and hit at the first stop of the debuggee that is launched then. -/
def hitAtStart (steps : Nat) : Observed (BreakpointLog Scripted.World) :=
  (new { engine := { lines := [("a.rs", 3, 0x1000)], initial := [.breakpoint 1] } } {}).run
    ([.call (.submit (.setBreakpoints "a.rs" [3])),
      .call (.submit (.launch ⟨"app", "app", [], []⟩))] ++ List.replicate steps .engine)

/-- Nothing is published of a breakpoint that is hit at the first stop. -/
theorem unpublished_hit_at_start :
    (hitAtStart 5).gateway.phase.returned? = some [.breakpoint 1] ∧
    (hitAtStart 5).gateway.worker.breakpoints.get? 1 = some ⟨"a.rs", 3⟩ ∧
    (hitAtStart 6).gateway.phase.returned? = none ∧
    (hitAtStart 6).gateway.worker.published = [] := by
  refine ⟨?_, ?_, ?_, ?_⟩ <;> decide +kernel

end Observed

end DebugAdapter
