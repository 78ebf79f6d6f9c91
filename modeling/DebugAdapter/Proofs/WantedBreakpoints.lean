import DebugAdapter.Proofs.BreakpointResponses
import Mathlib.Data.Set.Function
import Mathlib.Logic.Function.Basic

/-!
# The breakpoints that are wanted

A request for breakpoints wants the lines of a file in the place of those that were wanted before
(`Session.wish?`). In a debuggee, wishes are fulfilled one by one, file by file. As long as there is none,
a session keeps the last lines of each path, in the order in which the paths came up first. Both come to the
same lines of each file, if no two of the paths lead to one file.

## Key results

- `foldl_want_pending`: the wishes that are kept want the same as all of them
- `Session.foldl_recorded`, `Session.run_setBreakpoints_recorded`: what a session keeps of requests
-/

namespace DebugAdapter

open Session (putPending)

/-! ## Wishes -/

/-- The lines of a file that a path leads to are wanted in the place of others. -/
def want (toTarget : String → String) (wanted : String → List UInt32) (wish : String × List UInt32) :
    String → List UInt32 :=
  Function.update wanted (toTarget wish.1) wish.2

/-- A wish is kept, in the place of the one for its path. -/
def keepWish (pending : List (String × List UInt32)) (wish : String × List UInt32) :
    List (String × List UInt32) :=
  putPending wish.1 wish.2 pending

/-- The number of lines in wishes. -/
def lineCount (wishes : List (String × List UInt32)) : Nat :=
  (wishes.flatMap Prod.snd).length

variable {toTarget : String → String} {wanted : String → List UInt32} {path : String}
  {lines : List UInt32} {wish : String × List UInt32} {pending wishes : List (String × List UInt32)}

/-! ### What is kept -/

/-- The lines of one more wish add up. -/
theorem lineCount_cons (wish : String × List UInt32) (wishes : List (String × List UInt32)) :
    lineCount (wish :: wishes) = wish.2.length + lineCount wishes := by
  rw [lineCount, List.flatMap_cons, List.length_append, lineCount]

/-- The lines of more wishes add up. -/
theorem lineCount_append (wishes wishes' : List (String × List UInt32)) :
    lineCount (wishes ++ wishes') = lineCount wishes + lineCount wishes' := by
  rw [lineCount, List.flatMap_append, List.length_append, lineCount, lineCount]

/-- A wish is kept in the place of an earlier one for the same file, or behind the others. -/
theorem paths_putPending (path : String) (lines : List UInt32) (pending : List (String × List UInt32)) :
    (putPending path lines pending).map Prod.fst =
      if path ∈ pending.map Prod.fst then pending.map Prod.fst else pending.map Prod.fst ++ [path] := by
  induction pending with
  | nil => rfl
  | cons p rest ih =>
    rw [putPending]
    by_cases same : p.1 = path
    · simp [same]
    · rw [if_neg same, List.map_cons, List.map_cons, ih]
      simp only [List.mem_cons, or_iff_right (Ne.symm same)]
      split <;> rfl

/-- Keeping a wish adds no other file. -/
theorem mem_paths_putPending {other : String} (mem : other ∈ (putPending path lines pending).map Prod.fst) :
    other = path ∨ other ∈ pending.map Prod.fst := by
  rw [paths_putPending] at mem
  split at mem
  · exact .inr mem
  · rcases List.mem_append.1 mem with mem | mem
    · exact .inr mem
    · exact .inl (List.mem_singleton.1 mem)

/-- Keeping a wish keeps one wish for each file. -/
theorem nodup_putPending (nodup : (pending.map Prod.fst).Nodup) :
    ((putPending path lines pending).map Prod.fst).Nodup := by
  rw [paths_putPending]
  split
  · exact nodup
  · next new => exact List.nodup_append.2 ⟨nodup, List.pairwise_singleton _ path, fun p mem q last same =>
      new (List.mem_singleton.1 last ▸ same ▸ mem)⟩

/-- Keeping a wish adds no more lines than it has. -/
theorem lineCount_putPending_le (path : String) (lines : List UInt32)
    (pending : List (String × List UInt32)) :
    lineCount (putPending path lines pending) ≤ lineCount pending + lines.length := by
  induction pending with
  | nil => simp [putPending, lineCount]
  | cons p rest ih =>
    rw [putPending]
    split
    · simp only [lineCount_cons]
      omega
    · simp only [lineCount_cons] at ih ⊢
      omega

/-- Keeping wishes adds no more lines than they have. -/
theorem lineCount_foldl_keepWish_le (wishes pending : List (String × List UInt32)) :
    lineCount (wishes.foldl keepWish pending) ≤ lineCount pending + lineCount wishes := by
  induction wishes generalizing pending with
  | nil => exact Nat.le_refl _
  | cons wish wishes ih =>
    have kept := lineCount_putPending_le wish.1 wish.2 pending
    have later := ih (keepWish pending wish)
    simp only [List.foldl_cons, keepWish, lineCount_cons] at kept later ⊢
    omega

/-! ### What is wanted -/

/-- A wish for one file does not depend on those for others. -/
theorem foldl_want_comm (apart : ∀ p ∈ pending, toTarget p.1 ≠ toTarget wish.1) :
    pending.foldl (want toTarget) (want toTarget wanted wish) =
      want toTarget (pending.foldl (want toTarget) wanted) wish := by
  induction pending generalizing wanted with
  | nil => rfl
  | cons p rest ih =>
    rw [List.foldl_cons, List.foldl_cons, ← ih fun q mem => apart q (List.mem_cons_of_mem _ mem)]
    refine congrArg (rest.foldl (want toTarget)) ?_
    exact Function.update_comm (apart p List.mem_cons_self).symm _ _ _

/-- A wish that is kept in the place of another one is as good as a wish that comes last. -/
theorem foldl_want_putPending (nodup : (pending.map Prod.fst).Nodup)
    (apart : Set.InjOn toTarget {p | p ∈ path :: pending.map Prod.fst}) :
    (putPending path lines pending).foldl (want toTarget) wanted =
      want toTarget (pending.foldl (want toTarget) wanted) (path, lines) := by
  -- induction on the wishes that are kept
  induction pending generalizing wanted with
  | nil => rfl
  | cons p rest ih =>
    rw [List.map_cons, List.nodup_cons] at nodup
    rw [putPending]
    by_cases same : p.1 = path
    · -- no other wish is for this file
      have others : ∀ q ∈ rest, toTarget q.1 ≠ toTarget path := by
        intro q mem one
        have known : q.1 ∈ rest.map Prod.fst := List.mem_map_of_mem mem
        have equal := apart (List.mem_cons_of_mem _ (List.mem_cons_of_mem _ known)) List.mem_cons_self one
        exact nodup.1 (same.trans equal.symm ▸ known)
      have first : rest.foldl (want toTarget) (want toTarget wanted (path, lines)) =
          want toTarget (rest.foldl (want toTarget) wanted) (path, lines) := foldl_want_comm others
      have replaced : rest.foldl (want toTarget) (want toTarget wanted p) =
          want toTarget (rest.foldl (want toTarget) wanted) p := foldl_want_comm (same ▸ others)
      rw [if_pos same, List.foldl_cons, List.foldl_cons, first, replaced]
      simp only [want, same, Function.update_idem]
    · rw [if_neg same, List.foldl_cons, List.foldl_cons]
      refine ih nodup.2 (apart.mono fun q mem => ?_)
      rcases List.mem_cons.1 mem with rfl | mem
      · exact List.mem_cons_self
      · exact List.mem_cons_of_mem _ (List.mem_cons_of_mem _ mem)

/-- The wishes that were kept want what all of them want. -/
theorem foldl_want_foldl_keepWish (nodup : (pending.map Prod.fst).Nodup)
    (apart : Set.InjOn toTarget {p | p ∈ pending.map Prod.fst ++ wishes.map Prod.fst}) :
    (wishes.foldl keepWish pending).foldl (want toTarget) wanted =
      wishes.foldl (want toTarget) (pending.foldl (want toTarget) wanted) := by
  -- induction on the wishes that are added one after the other
  induction wishes generalizing pending with
  | nil => rfl
  | cons wish wishes ih =>
    have kept : (keepWish pending wish).foldl (want toTarget) wanted =
        want toTarget (pending.foldl (want toTarget) wanted) wish := by
      refine foldl_want_putPending nodup (apart.mono fun q mem => ?_)
      rcases List.mem_cons.1 mem with rfl | mem
      · exact List.mem_append_right _ List.mem_cons_self
      · exact List.mem_append_left _ mem
    rw [List.foldl_cons, List.foldl_cons, ← kept]
    refine ih (nodup_putPending nodup) (apart.mono fun q mem => ?_)
    rcases List.mem_append.1 mem with mem | mem
    · rcases mem_paths_putPending mem with rfl | mem
      · exact List.mem_append_right _ List.mem_cons_self
      · exact List.mem_append_left _ mem
    · exact List.mem_append_right _ (List.mem_cons_of_mem _ mem)

/-- Wishes want the same when they were kept for later, if no two of the paths lead to one file. -/
theorem foldl_want_pending (apart : Set.InjOn toTarget {p | p ∈ wishes.map Prod.fst}) :
    (wishes.foldl keepWish []).foldl (want toTarget) wanted = wishes.foldl (want toTarget) wanted :=
  foldl_want_foldl_keepWish List.nodup_nil apart

/-! ## Requests -/

namespace Session

/-- What a request for breakpoints wants: the path as the debugger knows it, and the lines. A request whose
path cannot be converted wants nothing. -/
def wish? (c : Convention) (r : Request) : Option (String × List UInt32) :=
  ((requestedPath? r).bind c.pathToDebugger).map fun path =>
    (path, (breakpointLines r).map c.lineToDebugger)

/-- The session after a request for breakpoints, as long as there is no debuggee. -/
def recorded (t : Session) (r : Request) : Session :=
  { t with pending := (wish? t.convention r).elim t.pending (keepWish t.pending) }

/-- What a session keeps of a list of requests. -/
theorem foldl_recorded (requests : List Request) (t : Session) : requests.foldl recorded t =
    { t with pending := (requests.filterMap (wish? t.convention)).foldl keepWish t.pending } := by
  induction requests generalizing t with
  | nil => rfl
  | cons r requests ih =>
    rw [List.foldl_cons, ih, List.filterMap_cons]
    cases asked : wish? t.convention r with
    | none => simp only [recorded, asked, Option.elim_none]
    | some wish => simp only [recorded, asked, Option.elim_some, List.foldl_cons]

/-- As long as there is no debuggee, a request for breakpoints records what it wants, after a note at
most. -/
theorem run_setBreakpoints_recorded {t : Session} (unstarted : t.started = false) (r : Request) :
    ∃ result, (setBreakpoints r).run.run t = .done (result, t.recorded r) ∨
      ∃ record, (setBreakpoints r).run.run t = .act (.note record) fun _ => .done (result, t.recorded r) := by
  -- a request without a path, or with one that cannot be converted, is no wish
  cases named : requestedPath? r with
  | none =>
    have same : t.recorded r = t := by simp [recorded, wish?, named]
    rw [same]
    exact ⟨_, .inl (run_setBreakpoints_unnamed named)⟩
  | some path =>
    cases converted : t.convention.pathToDebugger path with
    | none =>
      have same : t.recorded r = t := by simp [recorded, wish?, named, converted]
      rw [same]
      exact ⟨_, run_setBreakpoints_unconverted named converted⟩
    | some back =>
      have kept : t.recorded r = { t with pending := putPending back (t.debuggerLines r) t.pending } := by
        simp [recorded, wish?, named, converted, keepWish, debuggerLines]
      rw [kept]
      exact ⟨_, .inl (run_setBreakpoints_unstarted named converted unstarted)⟩

end Session

end DebugAdapter
