import DebugAdapter.Proofs.BreakpointRequests
import DebugAdapter.Proofs.BreakpointTable
import DebugAdapter.Proofs.GatewayOrder

/-!
# The breakpoint table and the engine

The breakpoints of the table are those set in the engine. While breakpoints are replaced this is not so:
those that are taken out of the table are still to be removed from the engine, and one that was set is
still to be put into the table. Such ids are loose ends, and the invariant (`Worker.Ledger`) names them.

Ids are counted up, and each is asked for at most once. So an id stands for one line for good, whatever
is replaced, refused or started later. This holds as long as the count does not overflow.

## Key results

- `Worker.keeps_setBreakpoints`: breakpoints are replaced in step with the engine
- `Worker.inStep_execute`: all commands keep the invariant
-/

namespace DebugAdapter.Worker

variable {σ : Type} {V : BreakpointView σ}

/-- The breakpoints of the table are set in the engine, with those in `loose` besides. -/
structure Ledger (V : BreakpointView σ) (loose : List UInt32) (w : Worker (BreakpointLog σ)) : Prop where
  fit : V.fit w.engine.engine
  has_iff : ∀ id, V.has w.engine.engine id ↔ (w.breakpoints.get? id).isSome = true ∨ id ∈ loose
  nodup_loose : loose.Nodup
  get?_loose : ∀ id ∈ loose, w.breakpoints.get? id = none
  consistent : w.breakpoints.Consistent
  /-- The ids that were asked for are those given out. -/
  ids : w.engine.requests.map (·.1.toNat) = List.range' 1 w.breakpoints.lastId.toNat
  /-- A breakpoint of the table was asked for under its id. -/
  asked : ∀ {id b}, w.breakpoints.get? id = some b → (id, some b) ∈ w.engine.requests

/-- Fewer ids were asked for than there are. -/
def Few (w : Worker (BreakpointLog σ)) : Prop :=
  w.engine.requests.length < UInt32.size

instance (w : Worker (BreakpointLog σ)) : Decidable w.Few :=
  inferInstanceAs (Decidable (_ < _))

/-- The table and the engine are in step, as long as ids do not run out. -/
def InStep (V : BreakpointView σ) (loose : List UInt32) (w : Worker (BreakpointLog σ)) : Prop :=
  w.Few → w.Ledger V loose

namespace Ledger

variable {loose : List UInt32} {w : Worker (BreakpointLog σ)}

/-- The breakpoints are as they were, in the table and in the engine. -/
theorem congr (h : w.Ledger V loose) {w' : Worker (BreakpointLog σ)}
    (same : w'.breakpoints = w.breakpoints)
    (unchanged : BreakpointLog.Unchanged V w.engine w'.engine) : w'.Ledger V loose where
  fit := unchanged.leaves.fit h.fit
  has_iff := by
    rw [unchanged.leaves.has_eq h.fit, same]
    exact h.has_iff
  nodup_loose := h.nodup_loose
  get?_loose := same ▸ h.get?_loose
  consistent := same ▸ h.consistent
  ids := by
    rw [unchanged.requests_eq, same]
    exact h.ids
  asked := by
    rw [unchanged.requests_eq, same]
    exact h.asked

/-- As many breakpoints were asked for as ids were given out. -/
theorem length_requests (h : w.Ledger V loose) :
    w.engine.requests.length = w.breakpoints.lastId.toNat := by
  rw [← List.length_map (·.1.toNat), h.ids, List.length_range']

/-- An id that was asked for is not above the last one. -/
theorem toNat_le (h : w.Ledger V loose) {id : UInt32} {line : Option Breakpoint}
    (mem : (id, line) ∈ w.engine.requests) : id.toNat ≤ w.breakpoints.lastId.toNat := by
  have mem' : id.toNat ∈ w.engine.requests.map (·.1.toNat) := List.mem_map.2 ⟨_, mem, rfl⟩
  rw [h.ids, List.mem_range'_1] at mem'
  omega

/-- The ids that were asked for count up. -/
theorem pairwise_ids (h : w.Ledger V loose) :
    w.engine.requests.Pairwise fun a b => a.1 < b.1 := by
  have sorted : (w.engine.requests.map (·.1.toNat)).Pairwise (· < ·) := by
    rw [h.ids]
    exact List.pairwise_lt_range'
  exact (List.pairwise_map.1 sorted).imp fun lt => UInt32.lt_iff_toNat_lt.2 lt

/-- What the next id is, as long as ids do not run out. -/
theorem toNat_nextId (h : w.Ledger V loose) (few : w.engine.requests.length + 1 < UInt32.size) :
    w.breakpoints.nextId.1.toNat = w.breakpoints.lastId.toNat + 1 := by
  rw [h.length_requests] at few
  exact (UInt32.toNat_add _ _).trans (Nat.mod_eq_of_lt few)

/-- The next id is that of no breakpoint. -/
theorem get?_nextId (h : w.Ledger V loose) (few : w.engine.requests.length + 1 < UInt32.size) :
    w.breakpoints.get? w.breakpoints.nextId.1 = none := by
  cases known : w.breakpoints.get? w.breakpoints.nextId.1 with
  | none => rfl
  | some b =>
    have le := h.toNat_le (h.asked known)
    rw [h.toNat_nextId few] at le
    omega

/-! ## Steps of a replacement -/

/-- The breakpoints of a file are taken out of the table. -/
theorem takeFile (h : w.Ledger V []) (file : String) :
    ({ w with breakpoints := (w.breakpoints.takeFile file).2 } : Worker _).Ledger V
      (w.breakpoints.idsOf file) where
  fit := h.fit
  has_iff := by
    intro id
    refine (h.has_iff id).trans ?_
    rw [BreakpointTable.get?_takeFile]
    -- what is taken off the table is loose, until the engine has removed it
    split
    · next mem => exact iff_of_true (.inl (h.consistent.get?_of_mem mem)) (.inr mem)
    · next mem => rw [or_iff_left List.not_mem_nil, or_iff_left mem]
  nodup_loose := h.consistent.nodup_idsOf file
  get?_loose := by
    intro id mem
    rw [BreakpointTable.get?_takeFile, if_pos mem]
  consistent := h.consistent.takeFile file
  ids := h.ids
  asked := by
    intro id b hb
    -- what is left was in the table before
    rw [BreakpointTable.get?_takeFile] at hb
    split at hb
    · cases hb
    · exact h.asked hb

/-- A breakpoint that was set is put into the table. -/
theorem insert {id : UInt32} (h : w.Ledger V [id]) {b : Breakpoint}
    (mem : (id, some b) ∈ w.engine.requests) :
    ({ w with breakpoints := w.breakpoints.insert id b } : Worker _).Ledger V [] where
  fit := h.fit
  has_iff := by
    intro i
    refine (h.has_iff i).trans ?_
    rw [or_iff_left (List.not_mem_nil (a := i)), List.mem_singleton]
    -- the one loose id becomes known, and the others stay as they are
    by_cases hi : i = id
    · subst hi
      rw [BreakpointTable.get?_insert]
      exact iff_of_true (.inr rfl) rfl
    · rw [BreakpointTable.get?_insert_of_ne _ b hi, or_iff_left hi]
  nodup_loose := List.nodup_nil
  get?_loose := fun _ none => absurd none List.not_mem_nil
  consistent := h.consistent.insert (h.get?_loose id List.mem_cons_self) b
  ids := h.ids
  asked := by
    intro i b' hb
    by_cases hi : i = id
    · -- what is in the table under the new id is the breakpoint that was asked for
      subst hi
      rw [BreakpointTable.get?_insert] at hb
      rwa [← Option.some.inj hb]
    · rw [BreakpointTable.get?_insert_of_ne _ b hi] at hb
      exact h.asked hb

variable [Engine σ]

/-- All breakpoints are removed from an engine when there are none. -/
theorem clear (L : V.Lawful) (h : w.Ledger V []) (empty : w.breakpoints = {}) :
    ({ w with session := (w.session.call Engine.clearBreakpoints).2 } : Worker _).Ledger V [] := by
  -- with an empty table and nothing loose, the engine has no breakpoint of ours
  have unknown : ∀ id, w.breakpoints.get? id = none := by
    intro id
    rw [empty]
    rfl
  have unset : ∀ id, ¬V.has w.engine.engine id := by
    intro id
    rw [h.has_iff, unknown]
    simp
  obtain ⟨fit, cleared⟩ := L.clear w.engine.engine h.fit unset
  exact
  { fit
    has_iff := fun id => by
      -- neither the engine nor the table has the id
      have none : (w.breakpoints.get? id).isSome = false := by rw [unknown]; rfl
      refine iff_of_false (cleared id) ?_
      rintro (known | mem)
      · rw [none] at known
        cases known
      · exact absurd mem List.not_mem_nil
    nodup_loose := h.nodup_loose
    get?_loose := h.get?_loose
    consistent := h.consistent
    ids := h.ids
    asked := h.asked }

/-- A loose end is removed from the engine. -/
theorem remove (L : V.Lawful) {id : UInt32} (h : w.Ledger V (id :: loose)) :
    ({ w with session := (w.session.call (Engine.removeBreakpoint id)).2 } : Worker _).Ledger V
      loose := by
  have set := (h.has_iff id).2 (.inr List.mem_cons_self)
  obtain ⟨fit, removed⟩ := L.remove id w.engine.engine h.fit set
  -- no id is loose twice, so the removed one is not among the rest
  obtain ⟨notMem, nodup⟩ := List.nodup_cons.1 h.nodup_loose
  exact
  { fit
    has_iff := by
      intro i
      refine (removed i).trans ?_
      rw [h.has_iff i, List.mem_cons]
      by_cases hi : i = id
      · subst hi
        have unknown := h.get?_loose i List.mem_cons_self
        simp [unknown, notMem]
      · rw [and_iff_left hi, or_iff_right hi]
    nodup_loose := nodup
    get?_loose := fun i mem => h.get?_loose i (List.mem_cons_of_mem _ mem)
    consistent := h.consistent
    ids := h.ids
    asked := h.asked }

/-- The next id is asked for. -/
theorem add (L : V.Lawful) (h : w.Ledger V []) (offset : UInt64)
    (few : w.engine.requests.length + 1 < UInt32.size) :
    let call := w.session.call (Engine.addCodeBreakpoint w.breakpoints.nextId.1 offset)
    ({ w with breakpoints := w.breakpoints.nextId.2, session := call.2 } : Worker _).Ledger V
      (if call.1.isOk then [w.breakpoints.nextId.1] else []) := by
  obtain ⟨fit, added⟩ := L.add w.breakpoints.nextId.1 offset w.engine.engine h.fit
  exact
  { fit
    has_iff := by
      intro i
      refine (added i).trans ?_
      rw [h.has_iff i, or_iff_left List.not_mem_nil]
      -- set, the id is the one loose end; refused, there is none
      split
      · next set =>
        rw [List.mem_singleton]
        exact or_congr Iff.rfl (and_iff_left set)
      · next refused =>
        rw [or_iff_left List.not_mem_nil]
        exact or_iff_left fun e => refused e.2
    nodup_loose := by
      split
      · exact List.pairwise_singleton _ _
      · exact List.nodup_nil
    get?_loose := by
      intro i mem
      split at mem
      · rw [List.mem_singleton.1 mem]
        -- ids are counted up, so the table does not know the new one
        exact h.get?_nextId few
      · exact absurd mem List.not_mem_nil
    consistent := h.consistent.nextId
    ids := by
      change List.map (·.1.toNat) (w.engine.requests ++ [(w.breakpoints.nextId.1, w.engine.line)]) =
        List.range' 1 w.breakpoints.nextId.1.toNat
      rw [List.map_append, List.map_singleton, h.toNat_nextId few, List.range'_1_concat, ← h.ids,
        Nat.add_comm 1]
    asked := fun hb => List.mem_append_left _ (h.asked hb) }

end Ledger

/-! ## Replacing breakpoints -/

namespace InStep

variable {loose : List UInt32} {w : Worker (BreakpointLog σ)}

/-- What changes neither the table nor the engine's breakpoints keeps them in step. -/
theorem congr (h : w.InStep V loose) {w' : Worker (BreakpointLog σ)}
    (same : w'.breakpoints = w.breakpoints)
    (unchanged : BreakpointLog.Unchanged V w.engine w'.engine) : w'.InStep V loose := by
  intro few
  rw [Few, unchanged.requests_eq] at few
  exact (h few).congr same unchanged

end InStep

variable [Engine σ]

/-- The next id is asked for, for the line that was put down before. If the engine sets the breakpoint, it
is a loose end until it is put into the table. -/
private theorem ensures_requested (L : V.Lawful) {w₀ : Worker (BreakpointLog σ)} {b : Breakpoint}
    (h₀ : w₀.InStep V []) (line : w₀.engine.line = some b) (offset : UInt64) :
    Ensures (· = { w₀ with breakpoints := w₀.breakpoints.nextId.2 })
      (ask? (Engine.addCodeBreakpoint w₀.breakpoints.nextId.1 offset)) fun set w =>
        w.InStep V (if set.isSome then [w₀.breakpoints.nextId.1] else []) ∧
          (w₀.breakpoints.nextId.1, some b) ∈ w.engine.requests := by
  rintro w rfl
  let id := w₀.breakpoints.nextId.1
  let call := w₀.session.call (Engine.addCodeBreakpoint id offset)
  have set : call.1.toOption.isSome = call.1.isOk := by cases call.1 <;> rfl
  have requests : call.2.engine.requests = w₀.engine.requests ++ [(id, some b)] := by
    rw [← line]
    rfl
  refine ⟨fun few => ?_, ?_⟩
  · -- the request that is made now is counted too, so there was room before it
    have few' : w₀.engine.requests.length + 1 < UInt32.size := by
      have few : call.2.engine.requests.length < UInt32.size := few
      rwa [requests, List.length_append] at few
    have added := (h₀ (Nat.lt_of_succ_lt few')).add L offset few'
    exact set ▸ added
  · change (id, some b) ∈ call.2.engine.requests
    rw [requests]
    exact List.mem_append_right _ List.mem_cons_self

/-- Adding a breakpoint keeps the table in step with the engine, whatever it answers. -/
theorem keeps_addBreakpoint (L : V.Lawful) (b : Breakpoint) :
    Keeps (InStep V []) (addBreakpoint (σ := BreakpointLog σ) b) := by
  -- the line is put down, whatever the engine answers
  have located : Ensures (InStep V []) (ask? (Engine.offsetByLine b.file b.line)) fun _ w =>
      w.InStep V [] ∧ w.engine.line = some b :=
    fun w h => ⟨h.congr rfl (BreakpointLog.unchanged_of_ordinaryCall L (.offsetByLine _ _) _), rfl⟩
  refine Keeps.of_ensures (located.bind fun offset => ?_)
  split
  · exact .pure fun w h => h.1
  · next offset =>
    refine .bindGet fun w₀ h₀ => ?_
    have counted : Ensures (fun w => (w.InStep V [] ∧ w.engine.line = some b) ∧ w = w₀)
        (modify fun w => { w with breakpoints := w₀.breakpoints.nextId.2 }) fun _ w =>
          w = { w₀ with breakpoints := w₀.breakpoints.nextId.2 } := by
      rintro w ⟨-, rfl⟩
      rfl
    refine counted.bind fun _ => (ensures_requested L h₀.1 h₀.2 offset).bind fun set => ?_
    -- the id is burnt if the engine refuses it
    cases set with
    | none => exact .pure fun w h => h.1
    | some set =>
      refine Ensures.bind (R := fun _ => InStep V []) ?_ fun _ => .pure fun _ h => h
      exact fun w h few => (h.1 few).insert h.2

/-- The loose ends are removed from the engine one by one. -/
private theorem ensures_removed (L : V.Lawful) (loose : List UInt32) :
    Ensures (InStep V loose) (forIn loose PUnit.unit fun id _ => do
      let _ ← ask? (σ := BreakpointLog σ) (Engine.removeBreakpoint id)
      pure (ForInStep.yield PUnit.unit)) fun _ => InStep V [] := by
  induction loose with
  | nil => exact .pure fun _ h => h
  | cons id loose ih =>
    rw [List.forIn_cons]
    have removed : Ensures (InStep V (id :: loose)) (do
        let _ ← ask? (σ := BreakpointLog σ) (Engine.removeBreakpoint id)
        pure (ForInStep.yield PUnit.unit)) fun step w =>
          step = .yield PUnit.unit ∧ w.InStep V loose :=
      fun w h => ⟨rfl, fun few => (h few).remove L⟩
    refine removed.bind fun step => ?_
    -- the loop is not left before all are removed
    cases step with
    | done b => exact fun w h => by cases h.1
    | yield b => exact fun w h => ih w h.2

/-- Replacing the breakpoints of a file keeps the table in step with the engine. -/
theorem keeps_setBreakpoints (L : V.Lawful) (file : String) (lines : List UInt32) :
    Keeps (InStep V []) (setBreakpoints (σ := BreakpointLog σ) file lines) := by
  refine Keeps.of_ensures (.bindGet fun w₀ h₀ => ?_)
  -- what is taken out of the table is loose until it is removed from the engine
  refine Ensures.bind (R := fun _ => InStep V (w₀.breakpoints.idsOf file)) ?_ fun _ => ?_
  · rintro w ⟨-, rfl⟩ few
    exact (h₀ few).takeFile file
  · refine (ensures_removed L _).bind fun _ => ?_
    exact Keeps.mapM (fun line => (keeps_addBreakpoint L _).bind fun _ => .pure _) lines

/-! ## All other work -/

/-- Being in step is kept by all the work on threads. -/
theorem inStep_frame (L : V.Lawful) : ThreadFrame (InStep (σ := σ) V []) where
  call := fun m _ h => h.congr rfl (BreakpointLog.unchanged_of_ordinaryCall L m _)
  wait := fun _ h => h.congr rfl ⟨L.wait _, rfl⟩
  interrupt := fun _ h => h.congr rfl ⟨L.interrupt _, rfl⟩
  store := fun _ _ _ _ h => h.congr rfl (.refl V _)
  anyStore := fun _ _ _ h => h.congr rfl (.refl V _)
  -- letting go of groups asks the engine, and never about breakpoints
  retainGroups := by
    intro w keep h
    rw [retainGroups_eq]
    exact h.congr rfl (BreakpointLog.unchanged_foldl_releaseGroup L _ _)
  publish := fun _ _ _ h => h.congr rfl (.refl V _)
  typeNames := fun _ _ h => h.congr rfl (.refl V _)
  process := fun _ _ h => h.congr rfl (.refl V _)
  resume := fun _ _ h => h.congr rfl (.refl V _)
  knownThreads := fun _ _ h => h.congr rfl (.refl V _)
  exited := fun _ _ h => h.congr rfl (.refl V _)
  stalled := fun _ _ h => h.congr rfl (.refl V _)

/-- Being in step is kept while a group is taken out and put back. -/
theorem inStep_groupFrame (L : V.Lawful) :
    GroupFrame (InStep (σ := σ) V []) fun _ _ => InStep V [] :=
  (inStep_frame L).commands.storing.groupFrame (fun _ _ h => h.congr rfl (.refl V _))
    fun kind previous _ h => h.congr rfl ⟨L.symbolGroup kind previous _, rfl⟩

/-- Every command keeps the table and the engine in step. -/
theorem inStep_execute (L : V.Lawful) {w : Worker (BreakpointLog σ)} (h : w.InStep V [])
    (c : Command) : ((execute c).run w).2.InStep V [] := by
  by_cases hc : c = .terminate
  · subst hc
    change (terminate.run w).2.InStep V []
    rw [terminate_eq]
    exact h.congr rfl ((BreakpointLog.unchanged_finish L w.session).trans
      (BreakpointLog.unchanged_foldl_releaseGroup L _ _))
  · exact (inStep_frame L).commands.execute (inStep_groupFrame L) (keeps_setBreakpoints L) hc w h

/-- Being in step is kept when the engine is given up. -/
theorem inStep_release (L : V.Lawful) {w : Worker (BreakpointLog σ)} (h : w.InStep V []) :
    w.release.InStep V [] := by
  have finished := BreakpointLog.unchanged_finish L w.clearGroups.session
  have released : BreakpointLog.Unchanged V w.clearGroups.session.finish.2.engine
      w.release.session.engine := ⟨L.release _, rfl⟩
  have cleared : w.clearGroups.InStep V [] := (inStep_frame L).retainGroups w _ h
  exact cleared.congr rfl (finished.trans released)

end DebugAdapter.Worker
