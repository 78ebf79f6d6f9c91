import DebugAdapter.Proofs.BreakpointReplies
import Mathlib.Logic.Function.Basic

/-!
# Breakpoints in their places

If an engine resolves a line always alike, and takes the breakpoints at some offsets only, then each line
has its place or has none (`site?`). The breakpoints of a file are where they were wanted last when the
table and the engine have just these, in this order (`BreakpointTable.Placed`), under whatever ids.

The breakpoints of a file are replaced in two turns: they are taken out of the table and removed from the
engine one by one (`BreakpointTable.Emptying`), and then the lines are placed one by one.

## Key results

- `BreakpointTable.Placed.takeFile`, `BreakpointTable.Emptying.remove`, `BreakpointTable.Emptying.placed`:
  the old breakpoints are removed
- `BreakpointTable.Placed.skip`, `BreakpointTable.Placed.insert`: the next line
-/

namespace DebugAdapter

/-- The breakpoints on lines of a file, at their offsets: one on each line that has a place. -/
def placesOn (site? : String → UInt32 → Option UInt64) (file : String) (lines : List UInt32) :
    List (Option Breakpoint × Option UInt64) :=
  lines.filterMap fun line => (site? file line).map fun offset => (some ⟨file, line⟩, some offset)

/-- One line more adds its place at the end, if it has one. -/
theorem placesOn_concat (site? : String → UInt32 → Option UInt64) (file : String) (lines : List UInt32)
    (line : UInt32) : placesOn site? file (lines ++ [line]) =
      placesOn site? file lines ++ placesOn site? file [line] :=
  List.filterMap_append

namespace BreakpointTable

/-- The breakpoints of a file, with their offsets in an engine. -/
def sitesOf (t : BreakpointTable) (offset? : UInt32 → Option UInt64) (file : String) :
    List (Option Breakpoint × Option UInt64) :=
  (t.idsOf file).map fun id => (t.get? id, offset? id)

/-- Each file has its breakpoints on the lines wanted, and the engine has no others. -/
structure Placed (site? : String → UInt32 → Option UInt64) (wanted : String → List UInt32)
    (t : BreakpointTable) (offset? : UInt32 → Option UInt64) : Prop where
  wellFormed : t.WellFormed
  sitesOf_eq : ∀ file, t.sitesOf offset? file = placesOn site? file (wanted file)
  known : ∀ id, (offset? id).isSome = true → (t.get? id).isSome = true

/-- The breakpoints of a file were taken out of the table, and those under some ids are still in the
engine. -/
structure Emptying (site? : String → UInt32 → Option UInt64) (wanted : String → List UInt32) (file : String)
    (ids : List UInt32) (t : BreakpointTable) (offset? : UInt32 → Option UInt64) : Prop where
  wellFormed : t.WellFormed
  idsOf_eq : t.idsOf file = []
  others : ∀ f, f ≠ file → t.sitesOf offset? f = placesOn site? f (wanted f)
  left : ∀ id ∈ ids, (offset? id).isSome = true ∧ t.get? id = none
  nodup : ids.Nodup
  known : ∀ id, (offset? id).isSome = true → (t.get? id).isSome = true ∨ id ∈ ids

variable {site? : String → UInt32 → Option UInt64} {wanted : String → List UInt32} {file : String}
  {t t' : BreakpointTable} {offset? offset?' : UInt32 → Option UInt64}

/-- The sites of a file depend on what is known and set under its ids only. -/
theorem sitesOf_congr {f : String} (ids : t'.idsOf f = t.idsOf f)
    (same : ∀ id ∈ t.idsOf f, t'.get? id = t.get? id ∧ offset?' id = offset? id) :
    t'.sitesOf offset?' f = t.sitesOf offset? f := by
  rw [sitesOf, ids]
  refine List.map_congr_left fun id mem => ?_
  rw [(same id mem).1, (same id mem).2]

/-- Where nothing is wanted, nothing is placed. -/
theorem placed_empty : Placed site? (fun _ => []) {} fun _ => none where
  wellFormed := wellFormed_empty
  sitesOf_eq := fun _ => rfl
  known := nofun

/-! ## The old breakpoints -/

namespace Placed

/-- The breakpoints of a file are in the engine. -/
theorem isSome_of_mem (h : Placed site? wanted t offset?) {id : UInt32} (mem : id ∈ t.idsOf file) :
    (offset? id).isSome = true := by
  have place : (t.get? id, offset? id) ∈ placesOn site? file (wanted file) := by
    rw [← h.sitesOf_eq file]
    exact List.mem_map_of_mem mem
  -- each place has an offset
  obtain ⟨line, -, given⟩ := List.mem_filterMap.1 place
  obtain ⟨offset, -, given⟩ := Option.map_eq_some_iff.1 given
  rw [← (Prod.mk.inj given).2]
  rfl

/-- The engine has a breakpoint under an id if there is one in the table. -/
theorem isSome_eq (h : Placed site? wanted t offset?) (id : UInt32) :
    (offset? id).isSome = (t.get? id).isSome := by
  refine Bool.eq_iff_iff.2 ⟨h.known id, fun known => ?_⟩
  obtain ⟨b, known⟩ := Option.isSome_iff_exists.1 known
  exact h.isSome_of_mem ((h.wellFormed.mem_idsOf_iff b.file id).2 ⟨b.line, known⟩)

/-- Taking a file leaves its breakpoints to be removed, and those of the other files in place. -/
theorem takeFile (h : Placed site? wanted t offset?) (file : String) :
    Emptying site? wanted file (t.idsOf file) (t.takeFile file).2 offset? where
  wellFormed := h.wellFormed.takeFile file
  idsOf_eq := t.idsOf_takeFile file
  others := by
    intro f other
    rw [← h.sitesOf_eq f]
    refine sitesOf_congr (t.idsOf_takeFile_of_ne other) fun id mem => ⟨?_, rfl⟩
    -- an id stands in one file only
    have apart : id ∉ t.idsOf file := fun mem' => other (h.wellFormed.file_eq_of_mem mem mem')
    rw [get?_takeFile, if_neg apart]
  left := fun id mem => ⟨h.isSome_of_mem mem, by rw [get?_takeFile, if_pos mem]⟩
  nodup := h.wellFormed.nodup_idsOf file
  known := by
    intro id there
    by_cases mem : id ∈ t.idsOf file
    · exact .inr mem
    · refine .inl ?_
      rw [get?_takeFile, if_neg mem]
      exact h.known id there

end Placed

namespace Emptying

/-- The next breakpoint is removed from the engine. -/
theorem remove {id : UInt32} {ids : List UInt32} (h : Emptying site? wanted file (id :: ids) t offset?) :
    Emptying site? wanted file ids t (Function.update offset? id none) where
  wellFormed := h.wellFormed
  idsOf_eq := h.idsOf_eq
  others := by
    intro f other
    rw [← h.others f other]
    refine sitesOf_congr rfl fun i mem => ⟨rfl, Function.update_of_ne ?_ _ _⟩
    -- an id in the table is none that is still to be removed
    rintro rfl
    have known := h.wellFormed.get?_of_mem mem
    rw [(h.left i List.mem_cons_self).2] at known
    cases known
  left := by
    intro i mem
    have ne : i ≠ id := fun same => (List.nodup_cons.1 h.nodup).1 (same ▸ mem)
    rw [Function.update_of_ne ne]
    exact h.left i (List.mem_cons_of_mem _ mem)
  nodup := (List.nodup_cons.1 h.nodup).2
  -- the engine has one breakpoint less, and it was one of those to be removed
  known := by
    intro i there
    have ne : i ≠ id := by
      rintro rfl
      rw [Function.update_self] at there
      cases there
    rw [Function.update_of_ne ne] at there
    exact (h.known i there).imp_right fun mem => (List.mem_cons.1 mem).resolve_left ne

/-- When all are removed, the file has no breakpoints. -/
theorem placed (h : Emptying site? wanted file [] t offset?) :
    Placed site? (Function.update wanted file []) t offset? where
  wellFormed := h.wellFormed
  sitesOf_eq := by
    intro f
    by_cases same : f = file
    · subst same
      rw [Function.update_self, sitesOf, h.idsOf_eq]
      rfl
    · rw [Function.update_of_ne same]
      exact h.others f same
  known := fun id there => (h.known id there).resolve_right List.not_mem_nil

end Emptying

/-! ## The next line -/

namespace Placed

variable {done : List UInt32} {line : UInt32}

/-- A line without a place gets no breakpoint. -/
theorem skip (h : Placed site? (Function.update wanted file done) t offset?)
    (unplaced : site? file line = none) :
    Placed site? (Function.update wanted file (done ++ [line])) t offset? where
  wellFormed := h.wellFormed
  sitesOf_eq := by
    intro f
    rw [h.sitesOf_eq]
    by_cases same : f = file
    · subst same
      rw [Function.update_self, Function.update_self, placesOn_concat]
      simp [placesOn, unplaced]
    · rw [Function.update_of_ne same, Function.update_of_ne same]
  known := h.known

/-- An id is given out that the engine does not have. -/
theorem nextId (h : Placed site? wanted t offset?) (room : t.lastId.toNat + 1 < UInt32.size) :
    Placed site? wanted t.nextId.2 offset? ∧ offset? t.nextId.1 = none := by
  obtain ⟨wellFormed, new⟩ := h.wellFormed.nextId room
  refine ⟨⟨wellFormed, h.sitesOf_eq, h.known⟩, ?_⟩
  cases there : offset? t.nextId.1 with
  | none => rfl
  | some offset =>
    -- an id that the engine has is in the table
    have known := h.known _ (by rw [there]; rfl)
    rw [new] at known
    cases known

/-- A line with a place gets its breakpoint, under the next id. -/
theorem insert (h : Placed site? (Function.update wanted file done) t offset?)
    (room : t.lastId.toNat + 1 < UInt32.size) {offset : UInt64} (place : site? file line = some offset) :
    Placed site? (Function.update wanted file (done ++ [line]))
      (t.nextId.2.insert t.nextId.1 ⟨file, line⟩) (Function.update offset? t.nextId.1 (some offset)) := by
  let id := t.nextId.1
  have new : t.get? id = none := (h.wellFormed.nextId room).2
  have gains : Gains file [.asked line offset id true] t (t.nextId.2.insert id ⟨file, line⟩) :=
    gains_apply h.wellFormed (fun _ given => (Option.some.inj given).symm) room
  -- the id is new, so breakpoints that were set before are known and placed as they were
  have old : ∀ {f i}, i ∈ t.idsOf f → (t.nextId.2.insert id ⟨file, line⟩).get? i = t.get? i ∧
      Function.update offset? id (some offset) i = offset? i := by
    intro f i mem
    have known := h.wellFormed.get?_of_mem mem
    have ne : i ≠ id := by
      rintro rfl
      rw [new] at known
      cases known
    exact ⟨gains.get?_known i (h.wellFormed.toNat_le i known), Function.update_of_ne ne _ _⟩
  refine ⟨gains.wellFormed, fun f => ?_, fun i there => ?_⟩
  · -- the file of the line has one site more, and the others are as before
    by_cases same : f = file
    · subst same
      have ids : (t.nextId.2.insert id ⟨f, line⟩).idsOf f = t.idsOf f ++ [id] := gains.idsOf_file
      have before := h.sitesOf_eq f
      rw [Function.update_self] at before ⊢
      rw [sitesOf, ids, List.map_append, placesOn_concat, ← before]
      congr 1
      · exact List.map_congr_left fun i mem => Prod.ext (old mem).1 (old mem).2
      · simp [placesOn, place, id]
    · have before := h.sitesOf_eq f
      rw [Function.update_of_ne same] at before ⊢
      rw [← before]
      exact sitesOf_congr (gains.idsOf_other f same) fun i mem => old mem
  · -- what the engine has is known to the table
    by_cases same : i = id
    · subst same
      rw [get?_insert]
      rfl
    · rw [Function.update_of_ne same] at there
      rw [get?_insert_of_ne _ _ same]
      exact h.known i there

end Placed

end BreakpointTable

end DebugAdapter
