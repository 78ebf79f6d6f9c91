import DebugAdapter.Store.Entity
import DebugAdapter.Store.Table

/-!
# The entity store

The threads, frames, scopes and variables of a stopped debuggee, each under a handle of one
counter. The store is valid until the debuggee resumes; then it is cleared, and counting starts
anew.

There is a table for each kind of entity, one that finds a thread by its system id, and two for the
edges between an entity and what it holds, one in each direction. An entity is removed with all that
hangs below it; what is left to remove is kept on a stack (`removeAll`).

Main statements: what an entity held is off the lists when it is forgotten, so removal ends
(`children_add_linkCount_forget_le`), and a failed `add` at most uses up a handle (`add_of_error`).
-/

namespace DebugAdapter

/-- Why an entity was not added. -/
inductive StoreError
  | unknownParent (parent : Handle)
  | invalidParent (child : EntityKind) (parent : Handle) (parentKind : EntityKind)
  | threadIsRoot
  deriving DecidableEq, Repr

/-- The wording of a store error. -/
def StoreError.message : StoreError → String
  | unknownParent parent => "unknown parent handle " ++ parent.text
  | invalidParent child parent parentKind =>
    child.name ++ " can't be a child of " ++ parent.text ++ " (" ++ parentKind.name ++ ")"
  | threadIsRoot => "thread entity must be registered with `add_thread`"

/-- The entities of a stopped debuggee. -/
structure Store where
  /-- The number of handles issued since the store was cleared. -/
  issued : Nat := 0
  threadTable : Table Handle (Registered Thread) := {}
  /-- The handles of the threads, by system id. -/
  threadHandles : Table UInt32 Handle := {}
  frameTable : Table Handle (Registered Frame) := {}
  scopeTable : Table Handle (Registered Scope) := {}
  variableTable : Table Handle (Registered Variable) := {}
  /-- The holder of each entity that has one. -/
  parents : Table Handle Handle := {}
  /-- What each entity holds, oldest first. -/
  childLists : Table Handle (List Handle) := {}
  currentThread : Option UInt32 := none
  currentFrame : Option Handle := none
  deriving DecidableEq

namespace Store

/-- The entity under a handle. -/
def get? (s : Store) (h : Handle) : Option Entity :=
  (s.threadTable.get? h).map (.thread ·.content) <|>
  (s.frameTable.get? h).map (.frame ·.content) <|>
  (s.scopeTable.get? h).map (.scope ·.content) <|>
  (s.variableTable.get? h).map (.variable ·.content)

/-- The kind of the entity under a handle. -/
def kindOf? (s : Store) (h : Handle) : Option EntityKind :=
  if s.threadTable.contains h then some .thread
  else if s.frameTable.contains h then some .frame
  else if s.scopeTable.contains h then some .scope
  else if s.variableTable.contains h then some .variable
  else none

/-- The holder of an entity. -/
def parent? (s : Store) (h : Handle) : Option Handle :=
  s.parents.get? h

/-- The handles of the entities held by an entity, oldest first. -/
def children (s : Store) (h : Handle) : List Handle :=
  (s.childLists.get? h).getD []

/-- The threads, oldest first. -/
def threads (s : Store) : List (Registered Thread) :=
  s.threadTable.values

/-- The frames of a thread, oldest first. -/
def framesOf (s : Store) (thread : Handle) : List (Registered Frame) :=
  (s.children thread).filterMap s.frameTable.get?

/-- The scopes of a frame, oldest first. -/
def scopesOf (s : Store) (frame : Handle) : List (Registered Scope) :=
  (s.children frame).filterMap s.scopeTable.get?

/-- The variables an entity holds, oldest first. -/
def variablesOf (s : Store) (holder : Handle) : List (Registered Variable) :=
  (s.children holder).filterMap s.variableTable.get?

/-- The thread under a handle. -/
def threadAt? (s : Store) (h : Handle) : Option Thread :=
  (s.threadTable.get? h).map (·.content)

/-- The frame under a handle. -/
def frameAt? (s : Store) (h : Handle) : Option Frame :=
  (s.frameTable.get? h).map (·.content)

/-- The scope under a handle. -/
def scopeAt? (s : Store) (h : Handle) : Option Scope :=
  (s.scopeTable.get? h).map (·.content)

/-- The variable under a handle. -/
def variableAt? (s : Store) (h : Handle) : Option Variable :=
  (s.variableTable.get? h).map (·.content)

/-- The thread with a system id. -/
def threadBySystemId? (s : Store) (id : UInt32) : Option (Registered Thread) :=
  (s.threadHandles.get? id).bind s.threadTable.get?

/-- No entity is stored. -/
def isEmpty (s : Store) : Bool :=
  s.threadTable.entries.isEmpty && s.frameTable.entries.isEmpty && s.scopeTable.entries.isEmpty &&
    s.variableTable.entries.isEmpty

/-- The handle issued next. -/
def nextHandle (s : Store) : Handle :=
  ⟨s.issued + 1⟩

/-- Issue a handle. -/
def issue (s : Store) : Store :=
  { s with issued := s.issued + 1 }

/-- Register a thread. A thread that is registered keeps its handle and its name. -/
def addThread (s : Store) (id : UInt32) (name : String) : Handle × Store :=
  match s.threadHandles.get? id with
  | some h => (h, s)
  | none =>
    let h := s.nextHandle
    (h, { s.issue with
      threadTable := s.threadTable.insert h ⟨h, id, name⟩
      threadHandles := s.threadHandles.insert id h })

/-- Put an entity into the table of its kind. -/
def place (s : Store) (h : Handle) : Entity → Store
  | .thread t => { s with threadTable := s.threadTable.insert h ⟨h, t⟩ }
  | .frame f => { s with frameTable := s.frameTable.insert h ⟨h, f⟩ }
  | .scope c => { s with scopeTable := s.scopeTable.insert h ⟨h, c⟩ }
  | .variable v => { s with variableTable := s.variableTable.insert h ⟨h, v⟩ }

/-- Note that an entity holds another one, its newest. -/
def link (s : Store) (parent child : Handle) : Store :=
  { s with
    parents := s.parents.insert child parent
    childLists := s.childLists.insert parent (s.children parent ++ [child]) }

/-- Store an entity below `parent`. A handle is used up unless the parent is unknown. -/
def add (s : Store) (parent : Handle) (entity : Entity) : Except StoreError Handle × Store :=
  match s.kindOf? parent with
  | none => (.error (.unknownParent parent), s)
  | some parentKind =>
    -- the handle was issued before the entity is looked at
    if entity.kind = .thread then (.error .threadIsRoot, s.issue)
    else if parentKind.mayHold entity.kind then
      (.ok s.nextHandle, (s.issue.place s.nextHandle entity).link parent s.nextHandle)
    else (.error (.invalidParent entity.kind parent parentKind), s.issue)

/-- Change the variable under a handle, if there is one. -/
def updateVariable (s : Store) (h : Handle) (f : Variable → Variable) : Store :=
  { s with variableTable := s.variableTable.modify h fun v => ⟨v.handle, f v.content⟩ }

/-- The longest chain of holders that is followed. -/
def maxAncestorDepth : Nat := 512

/-- Follow at most `depth` entries from `h` on to the first one of kind `k`. -/
def climb (s : Store) (k : EntityKind) : (depth : Nat) → (h : Handle) → Option Handle
  | 0, _ => none
  | depth + 1, h =>
    if s.kindOf? h = some k then some h
    else (s.parent? h).bind (s.climb k depth)

/-- The entity of kind `k` that holds `h`, directly or not; `h` itself if it is of that kind, and
also if there is none. -/
def ancestor (s : Store) (h : Handle) (k : EntityKind) : Handle :=
  (s.climb k maxAncestorDepth h).getD h

/-- The thread of a frame, or of what a frame holds. -/
def threadOf (s : Store) (h : Handle) : Handle :=
  s.ancestor h .thread

/-- The frame of a scope, or of what a scope holds. -/
def frameOf (s : Store) (h : Handle) : Handle :=
  s.ancestor h .frame

/-- The scope of a variable. -/
def scopeOf (s : Store) (h : Handle) : Handle :=
  s.ancestor h .scope

/-! ## Removal -/

/-- Forget an entity: what it is, what it holds, that it is held, and that it is the current one. What
it holds stays. -/
def forget (s : Store) (h : Handle) : Store :=
  let childLists := s.childLists.erase h
  { s with
    threadTable := s.threadTable.erase h
    threadHandles := match s.threadTable.get? h with
      | some t => s.threadHandles.erase t.content.systemId
      | none => s.threadHandles
    frameTable := s.frameTable.erase h
    scopeTable := s.scopeTable.erase h
    variableTable := s.variableTable.erase h
    parents := s.parents.erase h
    -- the entity leaves the list of its holder as well
    childLists := match s.parents.get? h with
      | some parent => childLists.modify parent (·.filter (· ≠ h))
      | none => childLists
    currentThread := match s.threadTable.get? h with
      | some t => s.currentThread.filter (· ≠ t.content.systemId)
      | none => s.currentThread
    currentFrame := s.currentFrame.filter (· ≠ h) }

/-- The number of entries in the lists of what entities hold. -/
def linkCount (s : Store) : Nat :=
  (s.childLists.entries.flatMap (·.2)).length

/-- What the elements of a list give does not get longer when some of them are left out. -/
private theorem length_flatMap_filter_le {α β : Type} (l : List α) (p : α → Bool) (f : α → List β) :
    ((l.filter p).flatMap f).length ≤ (l.flatMap f).length := by
  induction l with
  | nil => simp
  | cons a l ih =>
    rw [List.filter_cons]
    split <;> simp only [List.flatMap_cons, List.length_append] <;> omega

/-- What is listed under a handle, and what is left listed without it, are together no more than all that was
listed. -/
private theorem length_getD_add_length_erase_le (l : List (Handle × List Handle)) (h : Handle) :
    (((l.find? (·.1 = h)).map (·.2)).getD []).length +
        ((l.filter (·.1 ≠ h)).flatMap (·.2)).length ≤ (l.flatMap (·.2)).length := by
  induction l with
  | nil => simp
  | cons e l ih =>
    by_cases he : e.1 = h
    · -- the list is found here, and later entries count at most once
      have := length_flatMap_filter_le l (·.1 ≠ h) (·.2)
      simp only [List.find?_cons, List.filter_cons, he, decide_true, Option.map_some,
        Option.getD_some, ne_eq, not_true, decide_false, List.flatMap_cons, List.length_append]
      simpa using this
    · simp only [List.find?_cons, List.filter_cons, he, decide_false, ne_eq, not_false_eq_true,
        decide_true, if_true, List.flatMap_cons, List.length_append]
      have := ih
      simp only [ne_eq] at this
      omega

/-- No more is listed when a handle is taken off one of the lists. -/
private theorem length_flatMap_modify_le (t : Table Handle (List Handle)) (k : Handle)
    (p : Handle → Bool) :
    ((t.modify k (·.filter p)).entries.flatMap (·.2)).length ≤ (t.entries.flatMap (·.2)).length := by
  simp only [Table.modify, List.flatMap_map]
  induction t.entries with
  | nil => simp
  | cons e l ih =>
    have := List.length_filter_le p e.2
    simp only [List.flatMap_cons, List.length_append]
    by_cases he : e.1 = k
    · simp only [he, if_true]
      omega
    · simp only [he, if_false]
      omega

/-- What an entity held is not counted any more when it is forgotten. -/
theorem children_add_linkCount_forget_le (s : Store) (h : Handle) :
    (s.children h).length + (s.forget h).linkCount ≤ s.linkCount := by
  -- the list of what it held goes, and the list of its holder gets no longer
  have erased := length_getD_add_length_erase_le s.childLists.entries h
  simp only [children, Table.get?, linkCount, forget]
  split
  · exact Nat.le_trans (Nat.add_le_add_left (length_flatMap_modify_le ..) _) erased
  · exact erased

/-- Remove the entities on a stack, and all that hangs below them. -/
def removeAll : (stack : List Handle) → Store → Store
  | [], s => s
  -- what the entity holds goes on the stack, the newest on top
  | h :: rest, s => removeAll ((s.children h).reverse ++ rest) (s.forget h)
termination_by stack s => stack.length + s.linkCount
decreasing_by
  -- the stack grows by what the entity held, which is on no list any more
  have := children_add_linkCount_forget_le s h
  simp only [List.length_append, List.length_reverse, List.length_cons]
  omega

/-- Remove an entity and all that hangs below it. -/
def removeSubtree (s : Store) (h : Handle) : Store :=
  s.removeAll [h]

/-- Keep the threads with a system id from the list. -/
def retainThreads (s : Store) (alive : List UInt32) : Store :=
  let dead := s.threads.filter fun t => !alive.contains t.content.systemId
  (dead.map (·.handle)).foldl removeSubtree s

/-- Remove all that an entity holds. -/
def removeChildren (s : Store) (h : Handle) : Store :=
  (s.children h).foldl removeSubtree s

/-- Choose the current thread. -/
def setCurrentThread (s : Store) (id : UInt32) : Store :=
  { s with currentThread := some id }

/-- Choose the current frame. -/
def setCurrentFrame (s : Store) (frame : Handle) : Store :=
  { s with currentFrame := some frame }

/-- Forget everything, also the handles issued. -/
def clear (_ : Store) : Store :=
  {}

/-- An entity that is refused leaves the store as it was, or uses up a handle. -/
theorem add_of_error {s : Store} {parent : Handle} {entity : Entity} {e : StoreError}
    (h : (s.add parent entity).1 = .error e) :
    (s.add parent entity).2 = s ∨ (s.add parent entity).2 = s.issue := by
  unfold add at h ⊢
  split
  · exact .inl rfl
  · split
    · exact .inr rfl
    · split
      · -- what may be held is added without an error
        simp_all
      · exact .inr rfl

end Store

end DebugAdapter
