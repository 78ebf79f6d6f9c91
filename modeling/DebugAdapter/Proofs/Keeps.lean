import DebugAdapter.Gateway.Worker

/-!
# What work on a state ensures

Triples for work on a state that cannot fail, and for work with a failure of its own on top of it.
`Keeps I m` is the triple for an invariant: whatever `m` gives, the state satisfies `I` if it did
before.

The rules follow the shape of programs: one for each way in which a program is put together
(`Keeps.bind`, `Keeps.forIn`, `Keeps.mapM`, `Keeps.bindExcept`), and none for what it computes.
-/

namespace DebugAdapter

variable {S : Type}

/-- From a state with `P`, the work gives a result and a state with `Q`. -/
def Ensures {α : Type} (P : S → Prop) (m : StateM S α) (Q : α → S → Prop) : Prop :=
  ∀ s, P s → Q (m.run s).1 (m.run s).2

/-- The work keeps an invariant. -/
def Keeps {α : Type} (I : S → Prop) (m : StateM S α) : Prop :=
  ∀ s, I s → I (m.run s).2

namespace Ensures

variable {α β : Type} {P : S → Prop}

/-- Returning a value ensures what holds of it in any state allowed before. -/
theorem pure {a : α} {Q : α → S → Prop} (h : ∀ s, P s → Q a s) :
    Ensures P (Pure.pure a : StateM S α) Q :=
  h

/-- What the first computation ensures is what the second may start from. -/
theorem bind {m : StateM S α} {f : α → StateM S β} {R : α → S → Prop} {Q : β → S → Prop}
    (hm : Ensures P m R) (hf : ∀ a, Ensures (R a) (f a) Q) : Ensures P (m >>= f) Q :=
  fun s hs => hf _ _ (hm s hs)

/-- The state that is read is the one that the rest starts from. -/
theorem bindGet {f : S → StateM S β} {Q : β → S → Prop}
    (hf : ∀ s₀, P s₀ → Ensures (fun s => P s ∧ s = s₀) (f s₀) Q) :
    Ensures P (MonadState.get >>= f) Q :=
  fun s hs => hf s hs s ⟨hs, rfl⟩

/-- A stronger precondition and a weaker postcondition are ensured as well. -/
theorem mono {m : StateM S α} {P' : S → Prop} {Q Q' : α → S → Prop} (h : Ensures P m Q)
    (pre : ∀ s, P' s → P s) (post : ∀ a s, Q a s → Q' a s) : Ensures P' m Q' :=
  fun s hs => post _ _ (h s (pre s hs))

/-- A kept property is ensured whatever is returned. -/
theorem of_keeps {I : S → Prop} {m : StateM S α} (h : Keeps I m) : Ensures I m fun _ => I :=
  h

/-- What follows of any state from what holds before the work may be used for it. -/
theorem assume {m : StateM S α} {c : Prop} {Q : α → S → Prop} (fact : ∀ s, P s → c)
    (hm : c → Ensures P m Q) : Ensures P m Q :=
  fun s hs => hm (fact s hs) s hs

/-- The work needs only a part of what holds before it. -/
theorem of_left {m : StateM S α} {P' : S → Prop} {Q : α → S → Prop} (h : Ensures P m Q) :
    Ensures (fun s => P s ∧ P' s) m Q :=
  fun s hs => h s hs.1

/-- For each element some work is done, after which something holds of all that is done so far and of
all that was found. -/
theorem mapM {P : List α → List β → S → Prop} {f : α → StateM S β}
    (hf : ∀ done found a, Ensures (P done found) (f a) fun b => P (done ++ [a]) (found ++ [b]))
    (l : List α) : Ensures (P [] []) (l.mapM f) (P l) := by
  -- the statement for the whole list has nothing done and nothing found yet, so it is proved for any such
  -- start
  have rest : ∀ done found,
      Ensures (P done found) (l.mapM f) fun rest => P (done ++ l) (found ++ rest) := by
    induction l with
    | nil =>
      intro done found
      rw [List.mapM_nil]
      refine .pure fun s hs => ?_
      rwa [List.append_nil, List.append_nil]
    | cons a l ih =>
      intro done found
      rw [List.mapM_cons]
      refine (hf done found a).bind fun b => ?_
      refine (ih (done ++ [a]) (found ++ [b])).bind fun rest => .pure fun s hs => ?_
      rwa [List.append_assoc, List.append_assoc] at hs
  exact rest [] []

/-- A choice ensures what both branches ensure, each under its condition. -/
theorem ite {c : Prop} [Decidable c] {m m' : StateM S α} {Q : α → S → Prop}
    (hm : c → Ensures P m Q) (hm' : ¬c → Ensures P m' Q) : Ensures P (if c then m else m') Q := by
  split
  · next h => exact hm h
  · next h => exact hm' h

/-! ### Work that may fail -/

/-- The same choice between computations that may fail. -/
theorem iteExcept {ε : Type} {c : Prop} [Decidable c] {m m' : ExceptT ε (StateM S) α}
    {Q : Except ε α → S → Prop} (hm : c → Ensures P m.run Q) (hm' : ¬c → Ensures P m'.run Q) :
    Ensures P (if c then m else m').run Q := by
  split
  · next h => exact hm h
  · next h => exact hm' h

/-- A sequence that may fail: the second computation starts where the first has succeeded, and a failure of
the first is passed on. -/
theorem bindExcept {ε : Type} {m : ExceptT ε (StateM S) α} {f : α → ExceptT ε (StateM S) β}
    {R : Except ε α → S → Prop} {Q : Except ε β → S → Prop} (hm : Ensures P m.run R)
    (hok : ∀ a, Ensures (R (.ok a)) (f a).run Q)
    (herror : ∀ e s, R (.error e) s → Q (.error e) s) : Ensures P (m >>= f).run Q := by
  rw [ExceptT.run_bind]
  refine hm.bind fun r => ?_
  cases r with
  | ok a => exact hok a
  | error e => exact .pure (herror e)

end Ensures

namespace Keeps

variable {α β : Type} {I : S → Prop}

/-- Returning a value keeps any property. -/
theorem pure (a : α) : Keeps I (Pure.pure a : StateM S α) :=
  fun _ h => h

/-- A sequence keeps what each of its computations keeps. -/
theorem bind {m : StateM S α} {f : α → StateM S β} (hm : Keeps I m) (hf : ∀ a, Keeps I (f a)) :
    Keeps I (m >>= f) :=
  fun s hs => hf _ _ (hm s hs)

/-- To ensure a property whatever is returned is to keep it. -/
theorem of_ensures {m : StateM S α} (h : Ensures I m fun _ => I) : Keeps I m :=
  h

/-- Mapping the result keeps what the computation keeps. -/
theorem map {m : StateM S α} (f : α → β) (hm : Keeps I m) : Keeps I (f <$> m) :=
  fun s hs => hm s hs

/-- Reading the state keeps any property. -/
theorem get : Keeps I (MonadState.get : StateM S S) :=
  fun _ h => h

/-- A change of the state keeps a property that it carries over. -/
theorem modify {f : S → S} (h : ∀ s, I s → I (f s)) : Keeps I (modify f : StateM S PUnit) :=
  h

/-- The same for a change that returns a value. -/
theorem modifyGet {f : S → α × S} (h : ∀ s, I s → I (f s).2) :
    Keeps I (modifyGet f : StateM S α) :=
  h

/-- A choice keeps what both branches keep. -/
theorem ite {c : Prop} [Decidable c] {m m' : StateM S α} (hm : c → Keeps I m)
    (hm' : ¬c → Keeps I m') : Keeps I (if c then m else m') :=
  of_ensures (.ite hm hm')

/-- Going through a list keeps what is kept at each element. -/
theorem mapM {f : α → StateM S β} (hf : ∀ a, Keeps I (f a)) (l : List α) :
    Keeps I (l.mapM f) := by
  induction l with
  | nil => exact .pure []
  | cons a l ih =>
    rw [List.mapM_cons]
    exact (hf a).bind fun _ => ih.bind fun _ => .pure _

/-- A loop over a list, with early exits, keeps what its body keeps. -/
theorem forIn {f : α → β → StateM S (ForInStep β)} (hf : ∀ a b, Keeps I (f a b)) (l : List α)
    (b : β) : Keeps I (ForIn.forIn l b f) := by
  induction l generalizing b with
  | nil => exact .pure b
  | cons a l ih =>
    rw [List.forIn_cons]
    refine (hf a b).bind fun step => ?_
    cases step with
    | done b => exact .pure b
    | yield b => exact ih b

/-! ### Work that may fail -/

variable {ε : Type}

/-- Succeeding keeps any property. -/
theorem ok (a : α) : Keeps I (Pure.pure a : ExceptT ε (StateM S) α).run :=
  .pure _

/-- Failing keeps any property. -/
theorem error (e : ε) : Keeps I (throw e : ExceptT ε (StateM S) α).run :=
  .pure _

/-- A computation that cannot fail keeps what it keeps where failing is allowed. -/
theorem lift {m : StateM S α} (hm : Keeps I m) : Keeps I (ExceptT.lift m : ExceptT ε _ α).run :=
  hm.map _

/-- A sequence that may fail keeps what each of its computations keeps. -/
theorem bindExcept {m : ExceptT ε (StateM S) α} {f : α → ExceptT ε (StateM S) β}
    (hm : Keeps I m.run) (hf : ∀ a, Keeps I (f a).run) : Keeps I (m >>= f).run := by
  rw [ExceptT.run_bind]
  refine hm.bind fun r => ?_
  cases r with
  | ok a => exact hf a
  | error e => exact .pure _

/-- A choice between computations that may fail keeps what both branches keep. -/
theorem iteExcept {c : Prop} [Decidable c] {m m' : ExceptT ε (StateM S) α}
    (hm : c → Keeps I m.run) (hm' : ¬c → Keeps I m'.run) :
    Keeps I (if c then m else m').run :=
  of_ensures (.iteExcept hm hm')

end Keeps

end DebugAdapter
