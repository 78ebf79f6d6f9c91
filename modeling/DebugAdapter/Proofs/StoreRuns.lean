import DebugAdapter.Proofs.StoreConsistency

/-!
# Runs of the entity store

A store is built from the empty one by operations, in any order. Choosing the current frame is only
done with a frame that is there (`Legal`); nothing is asked of the other operations.

## Key results

- `Consistent.apply`, `Consistent.run`: an operation, and so a run, keeps a store consistent
- `lt_of_mem_newHandles`, `pairwise_newHandles`: until a store is cleared, each handle it gives out is
  greater than those given out before
- `run_consistent`: the two together, for every run from the empty store, and what operations that
  add nothing leave as it was
-/

namespace DebugAdapter.Store

/-- The operations that change a store. -/
inductive Op
  | addThread (id : UInt32) (name : String)
  | add (parent : Handle) (entity : Entity)
  | retainThreads (alive : List UInt32)
  | removeChildren (h : Handle)
  | updateVariable (h : Handle) (f : Variable → Variable)
  | setCurrentThread (id : UInt32)
  | setCurrentFrame (frame : Handle)
  | clear

/-- The store after an operation. -/
def Op.apply (s : Store) : Op → Store
  | .addThread id name => (s.addThread id name).2
  | .add parent entity => (s.add parent entity).2
  | .retainThreads alive => s.retainThreads alive
  | .removeChildren h => s.removeChildren h
  | .updateVariable h f => s.updateVariable h f
  | .setCurrentThread id => s.setCurrentThread id
  | .setCurrentFrame frame => s.setCurrentFrame frame
  | .clear => s.clear

/-- The operation may be done: a frame that becomes the current one is there. -/
def Op.LegalIn (s : Store) : Op → Prop
  | .setCurrentFrame frame => frame ∈ s.handlesOf .frame
  | _ => True

/-- The handle an operation gives to an entity it adds. A thread that is known has its handle. -/
def Op.newHandle? (s : Store) : Op → Option Handle
  | .addThread id name =>
    if (s.threadHandles.get? id).isSome then none else some (s.addThread id name).1
  | .add parent entity => (s.add parent entity).1.toOption
  | _ => none

/-- The store after operations. -/
def run (s : Store) (ops : List Op) : Store :=
  ops.foldl Op.apply s

/-- Each operation may be done in the store after those before it. -/
def Legal (s : Store) : List Op → Prop
  | [] => True
  | op :: ops => op.LegalIn s ∧ Legal (op.apply s) ops

/-- The handles that operations give to entities they add, in the order of the operations. -/
def newHandles (s : Store) : List Op → List Handle
  | [] => []
  | op :: ops => (op.newHandle? s).toList ++ newHandles (op.apply s) ops

/-! ## One operation -/

variable {s : Store}

/-- The step: a legal operation keeps the store consistent. -/
theorem Consistent.apply (hs : s.Consistent) {op : Op} (legal : op.LegalIn s) :
    (op.apply s).Consistent := by
  cases op with
  | addThread id name => exact hs.addThread id name
  | add parent entity => exact hs.add parent entity
  | retainThreads alive => exact hs.retainThreads alive
  | removeChildren h => exact hs.removeChildren h
  | updateVariable h f => exact hs.updateVariable h f
  | setCurrentThread id => exact hs.setCurrentThread id
  | setCurrentFrame frame => exact hs.setCurrentFrame legal
  | clear => exact consistent_empty

/-- Removal issues no handle, and takes none back. -/
theorem issued_removeAll (stack : List Handle) (s : Store) :
    (s.removeAll stack).issued = s.issued := by
  fun_induction Store.removeAll stack s with
  | case1 s => rfl
  | case2 h rest s ih => exact ih

/-- Only clearing takes handles back. -/
theorem issued_le_apply {op : Op} (h : op ≠ .clear) : s.issued ≤ (op.apply s).issued := by
  cases op with
  | addThread id name =>
    simp only [Op.apply, Store.addThread]
    split
    · exact Nat.le_refl _
    · exact Nat.le_succ _
  | add parent entity =>
    -- a handle is issued also for what is refused after that
    simp only [Op.apply, Store.add]
    split
    · exact Nat.le_refl _
    split
    · exact Nat.le_succ _
    split
    · simp only [link, issued_place]
      exact Nat.le_succ _
    · exact Nat.le_succ _
  -- a removal gives no handle back
  | retainThreads alive =>
    exact Nat.le_of_eq (by rw [Op.apply, retainThreads_eq, issued_removeAll])
  | removeChildren h =>
    exact Nat.le_of_eq (by rw [Op.apply, removeChildren_eq, issued_removeAll])
  | updateVariable h f => exact Nat.le_refl _
  | setCurrentThread id => exact Nat.le_refl _
  | setCurrentFrame frame => exact Nat.le_refl _
  | clear => exact absurd rfl h

/-- An entity that is added is given the next handle, which is used up. -/
theorem of_newHandle?_eq_some {op : Op} {h : Handle} (hop : op.newHandle? s = some h) :
    h = s.nextHandle ∧ (op.apply s).issued = s.issued + 1 := by
  -- an operation issues a handle if it adds a thread that is not known or a child that is not refused
  cases op with
  | addThread id name =>
    simp only [Op.newHandle?] at hop
    split at hop
    · cases hop
    · next hid =>
      rw [Bool.not_eq_true, Option.isSome_eq_false_iff, Option.isNone_iff_eq_none] at hid
      simp only [Store.addThread, hid, Option.some.injEq] at hop
      refine ⟨hop.symm, ?_⟩
      simp only [Op.apply, Store.addThread, hid]
      rfl
  | add parent entity =>
    simp only [Op.newHandle?] at hop
    simp only [Op.apply]
    -- only the last case of adding gives out a handle
    unfold Store.add at hop ⊢
    split at hop
    · cases hop
    split at hop
    · cases hop
    split at hop
    · next kp hkp he hold =>
      simp only [he, hold, if_true, if_false, link, issued_place]
      exact ⟨(Option.some.inj hop).symm, rfl⟩
    · cases hop
  -- the other operations give out no handle
  | _ => cases hop

/-! ## Runs -/

/-- A run of two lists of operations is the run of the second from where the first has led. -/
theorem run_append (s : Store) (ops ops' : List Op) : s.run (ops ++ ops') = (s.run ops).run ops' :=
  List.foldl_append

/-- A run of legal operations keeps the store consistent. -/
theorem Consistent.run {ops : List Op} (hs : s.Consistent) (legal : s.Legal ops) :
    (s.run ops).Consistent := by
  induction ops generalizing s with
  | nil => exact hs
  | cons op ops ih => exact ih (hs.apply legal.1) legal.2

/-- A handle that is given out comes after those issued before. -/
theorem lt_of_mem_newHandles {ops : List Op} (hops : Op.clear ∉ ops) {h : Handle}
    (hh : h ∈ s.newHandles ops) : (s.issued : Int) < h.raw := by
  -- the bound is on what the first store has issued, so the store has to vary with the operations
  induction ops generalizing s with
  | nil => exact nomatch hh
  | cons op ops ih =>
    simp only [List.mem_cons, not_or] at hops
    obtain ⟨hop, hops⟩ := hops
    -- it is given out by the first operation or by a later one
    rcases List.mem_append.1 hh with hh | hh
    · obtain ⟨rfl, -⟩ := of_newHandle?_eq_some (Option.mem_toList.1 hh)
      simp only [nextHandle]
      omega
    · have := issued_le_apply (s := s) (Ne.symm hop)
      have := ih hops hh
      omega

/-- Without a `clear` in between, the handles that a run issues increase. -/
theorem pairwise_newHandles {ops : List Op} (hops : Op.clear ∉ ops) :
    (s.newHandles ops).Pairwise fun h g => h.raw < g.raw := by
  induction ops generalizing s with
  | nil => exact .nil
  | cons op ops ih =>
    simp only [List.mem_cons, not_or] at hops
    obtain ⟨hop, hops⟩ := hops
    refine List.pairwise_append.2 ⟨?_, ih hops, ?_⟩
    · cases op.newHandle? s with
      | none => exact .nil
      | some h => exact List.pairwise_singleton _ _
    · -- the first operation uses up its handle, and later ones give out greater handles only
      intro h hh g hg
      obtain ⟨rfl, issued⟩ := of_newHandle?_eq_some (Option.mem_toList.1 hh)
      have := lt_of_mem_newHandles hops hg
      simp only [nextHandle]
      omega

/-- After any operations on an empty store its tables agree. Between two of its clearings the handles that are
newly given out, to entities that are added, are in increasing order, also when entities were removed or not
added in between. A thread that is known is no such entity: when it is added again, it is told the handle it
has, and nothing changes. An entity that is not added at most uses up a handle. -/
theorem run_consistent (ops : List Op) (legal : Legal {} ops) :
    (run {} ops).Consistent ∧
    (∀ before between after, ops = before ++ between ++ after → Op.clear ∉ between →
      (newHandles (run {} before) between).Pairwise fun h g => h.raw < g.raw) ∧
    (∀ id name h, (run {} ops).threadHandles.get? id = some h →
      (run {} ops).addThread id name = (h, run {} ops)) ∧
    (∀ parent entity e, ((run {} ops).add parent entity).1 = .error e →
      ∃ n, ((run {} ops).add parent entity).2 = { run {} ops with issued := n }) := by
  refine ⟨consistent_empty.run legal, ?_, ?_, ?_⟩
  · intro before between after _ hb
    exact pairwise_newHandles hb
  · intro id name h hid
    simp only [Store.addThread, hid]
  · intro parent entity e he
    -- a refused entity has used up a handle if its parent is known
    rcases add_of_error he with h | h
    · exact ⟨(run {} ops).issued, h⟩
    · exact ⟨(run {} ops).issued + 1, h⟩

/-- A thread with a frame that is the current one, a frame that is refused since it is put below a frame,
and the removal of the thread with all below it before another thread is added. The frame that is refused uses
up a handle and changes nothing else, and after the removal there are no entities and no current frame. The
thread that is added then has the next handle, and keeps it when it is added again. -/
theorem run_consistent_removed_thread :
    let refused : Entity := .frame ⟨0x2000, 1, none, 0, "start"⟩
    let before : List Op :=
      [.addThread 7 "main", .add ⟨1⟩ (.frame ⟨0x1000, 0, none, 0, "main"⟩), .add ⟨2⟩ (.scope ⟨.locals⟩)]
    let removed := before ++ [.add ⟨2⟩ refused, .setCurrentFrame ⟨2⟩, .retainThreads [9]]
    let ops := removed ++ [.addThread 9 "worker"]
    Legal {} ops ∧ (run {} ops).Consistent ∧
      newHandles {} ops = [⟨1⟩, ⟨2⟩, ⟨3⟩, ⟨5⟩] ∧
      ((newHandles {} ops).Pairwise fun h g => h.raw < g.raw) ∧
      (∃ e, ((run {} before).add ⟨2⟩ refused).1 = .error e) ∧
      (∃ n, ((run {} before).add ⟨2⟩ refused).2 = { run {} before with issued := n }) ∧
      (run {} removed).isEmpty = true ∧ (run {} removed).currentFrame = none ∧
      (run {} ops).addThread 9 "worker" = (⟨5⟩, run {} ops) := by
  intro refused before removed ops
  have legal : Legal {} ops := by
    refine ⟨trivial, trivial, trivial, trivial, ?_, trivial, trivial, trivial⟩
    show (⟨2⟩ : Handle) ∈ (run {} (ops.take 4)).handlesOf .frame
    decide
  have legal' : Legal {} before := ⟨trivial, trivial, trivial, trivial⟩
  obtain ⟨consistent, increasing, known, -⟩ := run_consistent ops legal
  obtain ⟨-, -, -, unchanged⟩ := run_consistent before legal'
  -- a frame does not hold a frame, so this one is refused, and its handle is used up
  have refusal : ((run {} before).add ⟨2⟩ refused).1 = .error (.invalidParent .frame ⟨2⟩ .frame) := rfl
  refine ⟨legal, consistent, by decide +kernel, ?_, ⟨_, refusal⟩, unchanged _ _ _ refusal, by decide +kernel,
    by decide +kernel, ?_⟩
  · exact increasing [] ops [] (by rw [List.append_nil, List.nil_append]) (by simp [ops, removed, before])
  · -- a thread that is known is given its old handle
    exact known 9 "worker" ⟨5⟩ (by decide +kernel)

end DebugAdapter.Store
