import DebugAdapter.Gateway.Breakpoint

/-!
# The two maps of the breakpoint table

The breakpoint table has its breakpoints by id and, for each file, the ids of its breakpoints. The two
maps are changed together, so the lists of ids part the ids among the files, and no id is in a list
twice. An id that was given out and not inserted yet is new to both maps.

## Key results

- `BreakpointTable.Consistent.insert`: a breakpoint under a new id keeps the maps in step
- `BreakpointTable.Consistent.takeFile`: so does the removal of the breakpoints of a file
-/

namespace DebugAdapter.BreakpointTable

/-! ## Lookup -/

/-- Of the entries that pass a test on keys, the one under a key is the one there was. -/
private theorem lookup_filter {α β : Type} [BEq α] [LawfulBEq α] (l : List (α × β)) (keep : α → Bool)
    (a : α) : ((l.filter fun e => keep e.1).find? (·.1 == a)).map (·.2) =
      if keep a then (l.find? (·.1 == a)).map (·.2) else none := by
  induction l with
  | nil => split <;> rfl
  | cons e l ih =>
    -- the first entry decides: it is the one that is looked for, or both lookups go past it
    by_cases he : e.1 = a
    · subst he
      cases hk : keep e.1 with
      | true => simp [hk]
      | false =>
        rw [List.filter_cons_of_neg (by simp [hk]), ih, hk]
        rfl
    · have skip : (e :: l).find? (·.1 == a) = l.find? (·.1 == a) :=
        List.find?_cons_of_neg (by simpa using he)
      cases hk : keep e.1 with
      | true =>
        rw [List.filter_cons_of_pos (by simp [hk]), List.find?_cons_of_neg (by simpa using he), ih, skip]
      | false => rw [List.filter_cons_of_neg (by simp [hk]), ih, skip]

/-- Recording a breakpoint leaves what is found under the other ids as it is. -/
theorem get?_insert_of_ne (t : BreakpointTable) {id i : UInt32} (b : Breakpoint) (h : i ≠ id) :
    (t.insert id b).get? i = t.get? i := by
  rw [get?, insert, List.find?_cons_of_neg (by simpa using Ne.symm h),
    lookup_filter t.byId (· != id) i, if_pos (by simpa using h)]
  rfl

/-- A recorded breakpoint is the last on the list of its file, and on no other list. -/
theorem idsOf_insert (t : BreakpointTable) (id : UInt32) (b : Breakpoint) (file : String) :
    (t.insert id b).idsOf file = if file = b.file then t.idsOf file ++ [id] else t.idsOf file := by
  split
  · next h =>
    subst h
    simp [insert, idsOf]
  · next h =>
    simp only [idsOf, insert]
    rw [List.find?_cons_of_neg (by simpa using Ne.symm h),
      lookup_filter t.byFile (· != b.file) file, if_pos (by simpa using h)]

/-- Taking a file forgets exactly the breakpoints on its list. -/
theorem get?_takeFile (t : BreakpointTable) (file : String) (id : UInt32) :
    (t.takeFile file).2.get? id = if id ∈ t.idsOf file then none else t.get? id := by
  simp only [get?, takeFile]
  rw [lookup_filter t.byId (!(t.idsOf file).contains ·) id]
  by_cases h : id ∈ t.idsOf file
  · simp [h]
  · simp [h]

/-- Taking a file leaves the lists of the other files as they are. -/
theorem idsOf_takeFile_of_ne (t : BreakpointTable) {file f : String} (h : f ≠ file) :
    (t.takeFile file).2.idsOf f = t.idsOf f := by
  simp only [idsOf, takeFile]
  rw [lookup_filter t.byFile (· != file) f, if_pos (by simpa using h)]

/-! ## The maps in step -/

/-- The lists of ids part the ids among the files, without duplicates. -/
structure Consistent (t : BreakpointTable) : Prop where
  mem_idsOf_iff : ∀ file id, id ∈ t.idsOf file ↔ ∃ line, t.get? id = some ⟨file, line⟩
  nodup_idsOf : ∀ file, (t.idsOf file).Nodup

/-- The empty table is consistent: it lists and finds nothing. -/
theorem consistent_empty : ({} : BreakpointTable).Consistent where
  mem_idsOf_iff := by simp [idsOf, get?]
  nodup_idsOf := by simp [idsOf]

namespace Consistent

variable {t : BreakpointTable}

/-- In a consistent table an id on the list of a file is known. -/
theorem get?_of_mem (h : t.Consistent) {file : String} {id : UInt32} (mem : id ∈ t.idsOf file) :
    (t.get? id).isSome = true := by
  obtain ⟨line, hb⟩ := (h.mem_idsOf_iff file id).1 mem
  rw [hb]
  rfl

/-- A breakpoint of one file is in the list of no other. -/
theorem file_eq_of_mem (h : t.Consistent) {file file' : String} {id : UInt32} (mem : id ∈ t.idsOf file)
    (mem' : id ∈ t.idsOf file') : file = file' := by
  obtain ⟨line, known⟩ := (h.mem_idsOf_iff file id).1 mem
  obtain ⟨line', known'⟩ := (h.mem_idsOf_iff file' id).1 mem'
  exact congrArg Breakpoint.file (Option.some.inj (known.symm.trans known'))

/-- Giving out an id changes neither the lists nor what is found. -/
theorem nextId (h : t.Consistent) : t.nextId.2.Consistent where
  mem_idsOf_iff := h.mem_idsOf_iff
  nodup_idsOf := h.nodup_idsOf

/-- A breakpoint is inserted under an id that no breakpoint has. -/
theorem insert (h : t.Consistent) {id : UInt32} (new : t.get? id = none) (b : Breakpoint) :
    (t.insert id b).Consistent := by
  -- an id that is not known is on no list
  have unlisted : ∀ file, id ∉ t.idsOf file := by
    intro file mem
    have known := h.get?_of_mem mem
    rw [new] at known
    cases known
  refine ⟨fun file i => ?_, fun file => ?_⟩
  · rw [idsOf_insert]
    -- only the new id is found in a new place, and only the list of its file has grown
    by_cases hi : i = id
    · subst hi
      rw [get?_insert]
      split
      · next hf =>
        subst hf
        exact ⟨fun _ => ⟨b.line, rfl⟩, fun _ => List.mem_append_right _ List.mem_cons_self⟩
      · next hf =>
        refine ⟨fun mem => absurd mem (unlisted file), ?_⟩
        rintro ⟨line, hb⟩
        rw [Option.some.inj hb] at hf
        exact absurd rfl hf
    · rw [get?_insert_of_ne t b hi, ← h.mem_idsOf_iff]
      split
      · rw [List.mem_append, List.mem_singleton, or_iff_left hi]
      · rfl
  · rw [idsOf_insert]
    split
    · -- the id is put behind those of its file, and was not among them
      rw [List.nodup_append]
      refine ⟨h.nodup_idsOf file, List.pairwise_singleton _ id, ?_⟩
      intro a ha b hb
      rw [List.mem_singleton.1 hb]
      exact fun e => unlisted file (e ▸ ha)
    · exact h.nodup_idsOf file

/-- The breakpoints of a file are removed. -/
theorem takeFile (h : t.Consistent) (file : String) : (t.takeFile file).2.Consistent := by
  refine ⟨fun f id => ?_, fun f => ?_⟩
  · rw [get?_takeFile]
    -- no id is left on the list of the file that is taken
    by_cases hf : f = file
    · subst hf
      rw [idsOf_takeFile]
      refine ⟨fun mem => absurd mem List.not_mem_nil, ?_⟩
      rintro ⟨line, hb⟩
      split at hb
      · cases hb
      · next unlisted => exact absurd ((h.mem_idsOf_iff f id).2 ⟨line, hb⟩) unlisted
    · rw [idsOf_takeFile_of_ne t hf, h.mem_idsOf_iff]
      split
      · next listed =>
        -- an id on the taken list stands for a line of that file, so not for one of `f`
        refine iff_of_false ?_ nofun
        rintro ⟨line, hb⟩
        exact hf (h.file_eq_of_mem ((h.mem_idsOf_iff f id).2 ⟨line, hb⟩) listed)
      · rfl
  · by_cases hf : f = file
    · subst hf
      rw [idsOf_takeFile]
      exact List.nodup_nil
    · rw [idsOf_takeFile_of_ne t hf]
      exact h.nodup_idsOf f

end Consistent

end DebugAdapter.BreakpointTable
