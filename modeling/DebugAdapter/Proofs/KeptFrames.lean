import DebugAdapter.Proofs.StoreGrowth

/-!
# Frames that stay listed

The frames of a thread are what it holds, in the order of their handles. So they stay listed as they are
when scopes and variables are put into the store, and when what hangs below a scope is removed.

## Key results

- `Store.HasStack.add`: what is shown below a frame changes no list of frames
- `Store.HasStack.removeChildren`: nor does the removal of what is below a scope
-/

namespace DebugAdapter.Store

variable {s s' : Store} {h p : Handle}

/-! ## Lists of frames -/

/-- A frame is listed if it is found and the thread holds it. -/
theorem Consistent.mem_framesOf (hs : s.Consistent) {r : Registered Frame} :
    r ∈ s.framesOf p ↔ s.get? r.handle = some (.frame r.content) ∧ s.parent? r.handle = some p := by
  constructor
  · intro listed
    obtain ⟨g, mem, stored⟩ := List.mem_filterMap.1 listed
    obtain rfl := hs.frames_labelled g r stored
    exact ⟨hs.get?_of_mem_framesOf listed, hs.parent_of_mem_children mem⟩
  · rintro ⟨found, held⟩
    have mem := hs.mem_children_of_parent held List.not_mem_nil
    obtain ⟨r', stored, content⟩ := Option.map_eq_some_iff.1 (hs.frameAt?_iff.2 found)
    -- the list and the table agree on the label of the frame
    have label := hs.frames_labelled _ _ stored
    obtain rfl : r' = r := by
      cases r'
      cases r
      simp_all
    exact List.mem_filterMap.2 ⟨_, mem, stored⟩

/-- Frames are listed in the order of their handles. -/
theorem Consistent.framesOf_increasing (hs : s.Consistent) (p : Handle) :
    (s.framesOf p).Pairwise fun r r' => r.handle.raw < r'.handle.raw := by
  rw [framesOf, List.pairwise_filterMap]
  refine (hs.children_increasing p).imp fun {h g} older r hr r' hr' => ?_
  rwa [hs.frames_labelled h r hr, hs.frames_labelled g r' hr']

/-- The same frames are listed in the same order. -/
theorem Consistent.framesOf_congr (hs : s.Consistent) (hs' : s'.Consistent)
    (same : ∀ r, r ∈ s'.framesOf p ↔ r ∈ s.framesOf p) : s'.framesOf p = s.framesOf p := by
  have nodup : ∀ {s : Store}, s.Consistent → (s.framesOf p).Nodup := by
    intro s hs
    refine (hs.framesOf_increasing p).imp fun {r r'} older e => ?_
    rw [e] at older
    exact Int.lt_irrefl _ older
  -- lists with the same members are permutations, and the order of handles leaves only one
  refine ((List.perm_ext_iff_of_nodup (nodup hs') (nodup hs)).2 same).eq_of_pairwise ?_
    (hs'.framesOf_increasing p) (hs.framesOf_increasing p)
  intro r r' _ _ older younger
  omega

/-! ## Additions -/

/-- What is found is found when something is added. -/
theorem Grown.get?_eq (grown : s.Grown s') (hs : s.Consistent) {e : Entity} (found : s.get? h = some e) :
    s'.get? h = some e :=
  (grown.has ⟨hs, (hs.handle_range (mem_handlesOf_of_get? found)).2, rfl, rfl⟩).get?_eq.trans found

/-- What is no frame comes on no list of frames. -/
theorem Consistent.framesOf_add (hs : s.Consistent) (parent : Handle) {e : Entity}
    (other : e.kind ≠ .frame) (p : Handle) : (s.add parent e).2.framesOf p = s.framesOf p := by
  have issued : s.issue.framesOf p = s.framesOf p := rfl
  unfold Store.add
  -- without a handle that is left, or without a holder, nothing is added
  split
  · rfl
  split
  · rfl
  split
  · -- only a frame would be entered in that table
    have table : ((s.issue.place s.nextHandle e).link parent s.nextHandle).frameTable = s.frameTable := by
      cases e <;> first | rfl | exact absurd rfl other
    -- what is added is no frame, so its handle is not in the table of frames
    have fresh : s.frameTable.get? s.nextHandle = none :=
      Table.get?_eq_none_iff.2 (hs.nextHandle_not_mem .frame)
    have children : (s.issue.place s.nextHandle e).children p = s.children p := by
      rw [Store.children, childLists_place]
      rfl
    rw [framesOf, table, children_link]
    split
    · next same =>
      subst same
      rw [children, List.filterMap_append]
      simp [fresh, framesOf]
    · rw [children]
      rfl
  · rfl

/-! ## Removals -/

/-- No frame hangs below a scope. -/
theorem Consistent.not_below_of_frame (hs : s.Consistent) (scope : p ∈ s.handlesOf .scope)
    (frame : h ∈ s.handlesOf .frame) : ¬s.Below p h := by
  rintro ⟨t, held, under⟩
  -- only a thread holds a frame, and nothing holds a thread
  obtain ⟨kp, k, live, mem, hold⟩ := hs.parent_live held List.not_mem_nil
  obtain rfl := hs.kind_unique frame mem
  obtain rfl : kp = .thread := by
    revert hold
    cases kp <;> decide
  cases under with
  | refl => cases hs.kind_unique live scope
  | step held' _ =>
    obtain ⟨k, child, mem'⟩ := hs.parent_iff.1 ⟨_, held'⟩
    exact child (hs.kind_unique mem' live)

/-- Below a scope there is no frame to remove. -/
theorem Consistent.framesOf_removeChildren (hs : s.Consistent) (scope : h ∈ s.handlesOf .scope)
    (p : Handle) : (s.removeChildren h).framesOf p = s.framesOf p := by
  have removed := hs.removed_removeChildren h
  have hs' := hs.removeChildren h
  refine hs.framesOf_congr hs' fun r => ?_
  rw [hs.mem_framesOf, hs'.mem_framesOf]
  by_cases below : s.Below h r.handle
  · have gone := removed.get?_eq_none below
    refine ⟨fun there => ?_, fun there => ?_⟩
    · cases gone.symm.trans there.1
    · exact absurd below (hs.not_below_of_frame scope (mem_handlesOf_of_get? there.1))
  · rw [removed.get?_eq below, removed.parent?_eq below]

/-! ## Threads and their frames -/

/-- A thread is known, and has these frames. -/
structure HasStack (s : Store) (thread : UInt32) (frames : List (Registered Frame)) : Prop where
  consistent : s.Consistent
  known : ∃ holder, s.threadHandles.get? thread = some holder ∧ s.framesOf holder = frames

namespace HasStack

variable {thread : UInt32} {frames : List (Registered Frame)}

/-- A thread has the frames that it has. -/
theorem of_known (hs : s.Consistent) (known : s.threadHandles.get? thread = some h) :
    s.HasStack thread (s.framesOf h) :=
  ⟨hs, h, known, rfl⟩

/-- The frames that are kept are those listed for the thread. -/
theorem framesOf_eq (stack : s.HasStack thread frames) (known : s.threadHandles.get? thread = some h) :
    s.framesOf h = frames := by
  obtain ⟨holder, known', listed⟩ := stack.known
  obtain rfl := Option.some.inj (known.symm.trans known')
  exact listed

/-- Choosing a thread keeps the stack. -/
theorem setCurrentThread (stack : s.HasStack thread frames) (id : UInt32) :
    (s.setCurrentThread id).HasStack thread frames :=
  ⟨stack.consistent.setCurrentThread id, stack.known⟩

/-- Choosing a frame keeps the stack. -/
theorem setCurrentFrame (stack : s.HasStack thread frames) (live : h ∈ s.handlesOf .frame) :
    (s.setCurrentFrame h).HasStack thread frames :=
  ⟨stack.consistent.setCurrentFrame live, stack.known⟩

/-- A thread that is known is not registered anew. -/
theorem addThread (stack : s.HasStack thread frames) (name : String) :
    (s.addThread thread name).2.HasStack thread frames := by
  obtain ⟨holder, known, -⟩ := stack.known
  rw [Store.addThread, known]
  exact stack

/-- Adding anything but a frame keeps the stack. -/
theorem add (stack : s.HasStack thread frames) (parent : Handle) {e : Entity} (other : e.kind ≠ .frame) :
    (s.add parent e).2.HasStack thread frames := by
  obtain ⟨holder, known, listed⟩ := stack.known
  refine ⟨stack.consistent.add parent e, holder, ?_, ?_⟩
  · rw [(grown_add s parent e).threadHandles_eq, known]
  · rw [stack.consistent.framesOf_add parent other, listed]

/-- Removing what hangs below a scope keeps the stack. -/
theorem removeChildren (stack : s.HasStack thread frames) (scope : h ∈ s.handlesOf .scope) :
    (s.removeChildren h).HasStack thread frames := by
  have hs' := stack.consistent.removeChildren h
  obtain ⟨holder, known, listed⟩ := stack.known
  refine ⟨hs', holder, ?_, ?_⟩
  · rw [hs'.threadHandles_iff, stack.consistent.threadTable_removeChildren]
    exact stack.consistent.threadHandles_iff.1 known
  · rw [stack.consistent.framesOf_removeChildren scope, listed]

end HasStack

end DebugAdapter.Store
