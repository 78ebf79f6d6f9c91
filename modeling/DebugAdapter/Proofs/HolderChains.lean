import DebugAdapter.Proofs.InspectionFrame

/-!
# The way up from an entity

An entity is held by another one, that by a third, and so on (`Chain`). A holder is older than what it
holds, so the way up ends, and it ends at a thread, since all else has a holder. What may hold what tells
the kinds that are met: variables first, then at most one scope, then a frame, then a thread (`Lineage`).
So a thread, a frame or a scope is the only one of its kind on the way, and a reverse lookup that follows
the way from below finds it, unless it gives up before (`climb_eq_find?`).

Nothing is asked of the operations that built the store. Neither edges nor kinds depend on the current frame,
so the tables are taken to be consistent without it (`unframed`).

## Key results

- `climb_eq_find?`: a lookup finds the first entity of its kind among so many
- `exists_chain`: the way up from an entity, and the kinds on it
- `run_ancestor`: reverse lookups in every store that operations build
-/

namespace DebugAdapter

/-! ## Kinds on the way up -/

/-- Kinds of which each may be held by the next, up to a thread. -/
inductive EntityKind.Lineage : List EntityKind → Prop
  | thread : Lineage [.thread]
  | step {k kp : EntityKind} {kinds : List EntityKind} : kp.mayHold k = true → Lineage (kp :: kinds) →
      Lineage (k :: kp :: kinds)

/-- There is one thread, one frame unless the way starts at the thread, and a scope at most if it starts below
the frame. -/
theorem EntityKind.Lineage.counts {kinds : List EntityKind} (lineage : Lineage kinds) :
    kinds.count .thread = 1 ∧
      kinds.count .frame = (if kinds.head? = some .thread then 0 else 1) ∧
      kinds.count .scope ≤ (if kinds.head? = some .thread ∨ kinds.head? = some .frame then 0 else 1) := by
  induction lineage with
  | thread => decide
  | @step k kp kinds hold _ ih =>
    -- five pairs of kinds are left, one for each way in which an entity is held
    cases kp <;> cases k <;> first | exact absurd hold (by decide) | grind

/-- What there is at most one of is at one place. -/
private theorem eq_of_countP_le_one {α : Type} {p : α → Bool} {l : List α} (few : l.countP p ≤ 1)
    {i j : Nat} {a b : α} (first : l[i]? = some a) (ha : p a = true) (second : l[j]? = some b)
    (hb : p b = true) : i = j := by
  induction l generalizing i j with
  | nil => cases first
  | cons x l ih =>
    -- if the head is one, there is none behind it
    have alone : p x = true → ∀ {y : α} {n : Nat}, l[n]? = some y → p y ≠ true := by
      intro hx y n there hy
      rw [List.countP_cons_of_pos hx] at few
      have none := List.countP_eq_zero.1 (Nat.le_zero.1 (Nat.le_of_succ_le_succ few))
      exact none y (List.mem_of_getElem? there) hy
    -- both places are the first one, or both are behind it
    cases i with
    | zero =>
      obtain rfl : x = a := Option.some.inj first
      cases j with
      | zero => rfl
      | succ j => exact absurd hb (alone ha second)
    | succ i =>
      cases j with
      | zero =>
        obtain rfl : x = b := Option.some.inj second
        exact absurd ha (alone hb first)
      | succ j =>
        rw [List.countP_cons] at few
        exact congrArg Nat.succ (ih (Nat.le_of_add_right_le few) first second)

namespace Store

variable {s : Store} {a h p : Handle} {k : EntityKind} {chain : List Handle}

/-- The entities from `h` upwards, to one that has no holder. -/
inductive Chain (s : Store) : Handle → List Handle → Prop
  | root {h : Handle} : s.parent? h = none → Chain s h [h]
  | step {h p : Handle} {chain : List Handle} : s.parent? h = some p → Chain s p chain →
      Chain s h (h :: chain)

/-- There is one way up. -/
theorem Chain.unique {chain' : List Handle} (up : s.Chain h chain) (up' : s.Chain h chain') :
    chain = chain' := by
  induction up generalizing chain' with
  | root none =>
    cases up' with
    | root => rfl
    | step held => rw [none] at held; cases held
  | step held _ ih =>
    cases up' with
    | root none => rw [none] at held; cases held
    | step held' up' =>
      obtain rfl := Option.some.inj (held.symm.trans held')
      rw [ih up']

/-- An entity of a kind is looked for among the first ones on the way up. -/
theorem climb_eq_find? (up : s.Chain h chain) (depth : Nat) :
    s.climb k depth h = (chain.take depth).find? fun a => s.kindOf? a = some k := by
  -- along the way up, with one step of the depth used up for each entity
  induction up generalizing depth with
  | root none =>
    cases depth with
    | zero => rfl
    | succ depth =>
      rw [climb, none, List.take_succ_cons, List.take_nil, List.find?_cons]
      split <;> simp [*]
  | step held _ ih =>
    cases depth with
    | zero => rfl
    | succ depth =>
      rw [climb, held, Option.bind_some, ih, List.take_succ_cons, List.find?_cons]
      split <;> simp [*]

/-! ## The shape of the way up -/

/-- The way up from an entity ends at a thread. -/
theorem exists_chain {h : Handle} {k : EntityKind} (hs : s.unframed.Consistent) (is : s.kindOf? h = some k) :
    ∃ chain kinds, s.Chain h chain ∧ chain.map s.kindOf? = (k :: kinds).map some ∧
      EntityKind.Lineage (k :: kinds) := by
  have mem : h ∈ s.unframed.handlesOf k := hs.kindOf?_eq_some_iff.1 is
  cases held : s.parent? h with
  | none =>
    -- all but the threads have a holder
    obtain rfl : k = .thread := by
      by_contra child
      obtain ⟨p, held'⟩ := hs.parent_iff.2 ⟨k, child, mem⟩
      cases held.symm.trans held'
    exact ⟨[h], [], .root held, by rw [List.map_singleton, is]; rfl, .thread⟩
  | some p =>
    obtain ⟨kp, k', live, mem', hold⟩ := hs.parent_live held List.not_mem_nil
    obtain rfl : k = k' := hs.kind_unique mem mem'
    have older := hs.parent_lt held
    have range := hs.handle_range live
    obtain ⟨chain, kinds, up, shown, lineage⟩ := exists_chain hs (hs.kindOf?_eq_some_iff.2 live)
    exact ⟨h :: chain, kp :: kinds, .step held up, by rw [List.map_cons, shown, is, ← List.map_cons],
      .step hold lineage⟩
termination_by h.raw.toNat

/-- The last entity on the way up from another one is a thread. -/
private theorem exists_getLast?_of_lineage {kinds : List EntityKind}
    (lineage : EntityKind.Lineage kinds) (shown : chain.map s.kindOf? = kinds.map some) :
    ∃ t, chain.getLast? = some t ∧ s.kindOf? t = some .thread := by
  have last : kinds.getLast? = some .thread := by
    clear shown
    induction lineage with
    | thread => rfl
    | step _ _ ih => rw [List.getLast?_cons_cons, ih]
  have same : chain.getLast?.map s.kindOf? = some (some .thread) := by
    rw [← List.getLast?_map, shown, List.getLast?_map, last]
    rfl
  obtain ⟨t, found, is⟩ := Option.map_eq_some_iff.1 same
  exact ⟨t, found, is⟩

/-- The entities of a kind on the way up are as many as that kind occurs. -/
private theorem countP_eq_count {kinds : List EntityKind} (k : EntityKind)
    (shown : chain.map s.kindOf? = kinds.map some) :
    chain.countP (fun a => s.kindOf? a = some k) = kinds.count k := by
  have counted := congrArg (List.countP (· == some k)) shown
  rw [List.countP_map, List.countP_map] at counted
  calc chain.countP (fun a => s.kindOf? a = some k)
    _ = chain.countP ((· == some k) ∘ s.kindOf?) := List.countP_congr fun _ _ => by simp
    _ = kinds.countP ((· == some k) ∘ some) := counted
    _ = kinds.count k := List.countP_congr fun _ _ => by simp

/-- An entity that is the only one of its kind on the way up is found exactly if it is near enough. -/
private theorem ancestor_of_chain (up : s.Chain h chain)
    (few : chain.countP (fun a => s.kindOf? a = some k) ≤ 1) :
    (∀ i a, i ≤ 511 → chain[i]? = some a → s.kindOf? a = some k →
      s.ancestor h k = a ∧ ∀ j b, chain[j]? = some b → s.kindOf? b = some k → j = i) ∧
    ((∀ i a, i ≤ 511 → chain[i]? = some a → s.kindOf? a ≠ some k) → s.ancestor h k = h) := by
  -- at most one element of the chain has the kind, so its place is the only one
  have place : ∀ {i j a b}, chain[i]? = some a → s.kindOf? a = some k → chain[j]? = some b →
      s.kindOf? b = some k → j = i := fun there is there' is' =>
    eq_of_countP_le_one few there' (decide_eq_true is') there (decide_eq_true is)
  have near : ∀ {i : Nat}, i < maxAncestorDepth ↔ i ≤ 511 := Nat.lt_succ_iff
  rw [ancestor, climb_eq_find? up]
  -- nothing of the kind is near enough, or what is found is the only one
  cases found : (chain.take maxAncestorDepth).find? fun a => s.kindOf? a = some k with
  | none =>
    have none := List.find?_eq_none.1 found
    refine ⟨fun i a le there is => ?_, fun _ => rfl⟩
    have mem : a ∈ chain.take maxAncestorDepth :=
      List.mem_of_getElem? ((List.getElem?_take_of_lt (near.2 le)).trans there)
    exact absurd (decide_eq_true is) (none a mem)
  | some b =>
    have is : s.kindOf? b = some k := by simpa using List.find?_some found
    obtain ⟨j, there⟩ := List.mem_iff_getElem?.1 (List.mem_of_find?_eq_some found)
    -- what the search finds is on the chain, at a place below the bound
    obtain ⟨lt, there⟩ : j < maxAncestorDepth ∧ chain[j]? = some b := by
      rw [List.getElem?_take] at there
      split at there
      · next lt => exact ⟨lt, there⟩
      · cases there
    refine ⟨fun i a _ there' is' => ⟨?_, fun _ _ => place there' is'⟩, fun far => ?_⟩
    · obtain rfl := place there' is' there is
      exact Option.some.inj (there.symm.trans there')
    · exact absurd is (far j b (near.1 lt) there)

/-- In a store that was built by any operations, what is not found has no entity above it. From an entity
there is one way up, which ends at a thread. From a frame, a scope or a variable it comes to one thread, one
frame and at most one scope. A thread, a frame or a scope on the way is the only one of its kind, and a
reverse lookup gives it if it is at most 511 steps above, and else the entity itself. -/
theorem run_ancestor (ops : List Op) :
    let s := run {} ops
    (∀ h, s.get? h = none → ∀ k, s.ancestor h k = h) ∧
    ∀ h e, s.get? h = some e → (∃ chain, s.Chain h chain) ∧ ∀ chain, s.Chain h chain →
      (∃ t, chain.getLast? = some t ∧ s.kindOf? t = some .thread) ∧
      (e.kind ≠ .thread → chain.countP (fun a => s.kindOf? a = some .thread) = 1 ∧
        chain.countP (fun a => s.kindOf? a = some .frame) = 1 ∧
        chain.countP (fun a => s.kindOf? a = some .scope) ≤ 1) ∧
      ∀ k, k ≠ .variable →
        (∀ i a, i ≤ 511 → chain[i]? = some a → s.kindOf? a = some k →
          s.ancestor h k = a ∧ ∀ j b, chain[j]? = some b → s.kindOf? b = some k → j = i) ∧
        ((∀ i a, i ≤ 511 → chain[i]? = some a → s.kindOf? a ≠ some k) → s.ancestor h k = h) := by
  intro s
  have hs : s.unframed.Consistent := consistent_unframed_run ops
  refine ⟨fun h none => (NotFound.of_get?_eq_none hs none).ancestor, fun h e found => ?_⟩
  have is : s.kindOf? h = some e.kind := hs.kindOf?_eq_some_iff.2 (mem_handlesOf_of_get? found)
  obtain ⟨chain, kinds, up, shown, lineage⟩ := exists_chain hs is
  refine ⟨⟨chain, up⟩, fun chain' up' => ?_⟩
  -- the way up is unique, so what is shown of one way up holds of the one that is given
  obtain rfl := up.unique up'
  obtain ⟨threads, frames, scopes⟩ := lineage.counts
  have scopes : (e.kind :: kinds).count .scope ≤ 1 := Nat.le_trans scopes (by split <;> decide)
  refine ⟨exists_getLast?_of_lineage lineage shown, fun child => ?_, fun k other => ?_⟩
  · simp only [countP_eq_count _ shown]
    exact ⟨threads, frames.trans (if_neg fun e => child (Option.some.inj e)), scopes⟩
  · -- each kind but that of variables is at most once on the way up
    refine ancestor_of_chain up ?_
    rw [countP_eq_count k shown]
    cases k with
    | thread => exact Nat.le_of_eq threads
    | frame => exact Nat.le_trans (Nat.le_of_eq frames) (by split <;> decide)
    | scope => exact scopes
    | «variable» => exact absurd rfl other

end Store

end DebugAdapter
