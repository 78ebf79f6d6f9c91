import DebugAdapter.Proofs.BreakpointTable
import DebugAdapter.Proofs.EngineAnswers

/-!
# Replies to requests for breakpoints

To set the breakpoints of a file, those it has are removed, and then the lines are taken one by one
(`BreakpointTry`): a line is resolved, an id is given out for it, and the engine is asked to set the
breakpoint. The first step may fail without using up an id, and the last one with its id lost.

The reply, the answers of the engine and the table are all read off the same list of tries, so they go
with each other line by line.

## Key results

- `Worker.run_setBreakpoints`: the reply, the answers and the table, read off one list of tries
- `BreakpointTable.gains_foldl`: what a list of tries makes of the table
- `Worker.replaced_setBreakpoints`: what a request for breakpoints replies and leaves
-/

namespace DebugAdapter

/-! ## Tries -/

/-- What becomes of one line of a request. -/
inductive BreakpointTry
  | unresolved (line : UInt32)
  /-- The engine was asked to set the breakpoint, and has taken it or not. -/
  | asked (line : UInt32) (offset : UInt64) (id : UInt32) (taken : Bool)
  deriving DecidableEq, Repr

namespace BreakpointTry

def line : BreakpointTry → UInt32
  | unresolved line | asked line .. => line

/-- The line was resolved, and the engine has taken the breakpoint. -/
def verified : BreakpointTry → Bool
  | unresolved _ => false
  | asked _ _ _ taken => taken

/-- The id that was given out. -/
def id? : BreakpointTry → Option UInt32
  | unresolved _ => none
  | asked _ _ id _ => some id

/-- The id under which the breakpoint is set. -/
def set? (t : BreakpointTry) : Option UInt32 :=
  if t.verified then t.id? else none

/-- What the engine was asked, and its answers. -/
def answers (file : String) : BreakpointTry → List EngineAnswer
  | unresolved line => [.located file line none]
  | asked line offset id taken => [.located file line (some offset), .added id offset taken]

/-- What is replied. -/
def result (file : String) (t : BreakpointTry) : BreakpointResult :=
  ⟨⟨file, t.line⟩, t.verified⟩

/-- What it makes of the table. -/
def apply (file : String) (table : BreakpointTable) : BreakpointTry → BreakpointTable
  | unresolved _ => table
  | asked line _ id taken => if taken then table.nextId.2.insert id ⟨file, line⟩ else table.nextId.2

/-- The engine is asked for a breakpoint under the id of the try only. -/
theorem id?_of_touches (t : BreakpointTry) {file : String} {a : EngineAnswer} (mem : a ∈ t.answers file)
    {id : UInt32} (touches : a.Touches id) : t.id? = some id := by
  cases t with
  | unresolved line =>
    rw [List.mem_singleton.1 mem] at touches
    exact touches.elim
  | asked line offset i taken =>
    rcases List.mem_cons.1 mem with rfl | mem
    · exact touches.elim
    · rw [List.mem_singleton.1 mem] at touches
      exact congrArg some touches

/-- The ids are those that a table gives out, one after the other. -/
def Numbered (file : String) : BreakpointTable → List BreakpointTry → Prop
  | _, [] => True
  | table, t :: tries =>
    (∀ id, t.id? = some id → id = table.nextId.1) ∧ Numbered file (t.apply file table) tries

end BreakpointTry

/-! ## What a worker does -/

namespace Worker

variable {σ : Type} [Engine σ]

/-- Setting one breakpoint is one try. -/
theorem ensures_tried (b : Breakpoint) (w₀ : Worker (AnswerLog σ)) :
    Ensures (· = w₀) (addBreakpoint b) fun verified w => ∃ t : BreakpointTry, t.line = b.line ∧
      verified = t.verified ∧ (∀ id, t.id? = some id → id = w₀.breakpoints.nextId.1) ∧
      w.breakpoints = t.apply b.file w₀.breakpoints ∧
      w₀.engine.Asked (t.answers b.file) w.engine := by
  -- each step of adding is one answer more of the engine, and the table changes with the last one only
  refine Ensures.bind (R := fun offset w => w.breakpoints = w₀.breakpoints ∧
    w₀.engine.Asked [.located b.file b.line offset] w.engine) ?_ fun offset => ?_
  · rintro w rfl
    exact ⟨rfl, rfl, rfl⟩
  cases offset with
  | none => exact .pure fun w h => ⟨.unresolved b.line, rfl, rfl, nofun, h.1, h.2⟩
  | some offset =>
    refine .bindGet fun w₁ h₁ => ?_
    rw [h₁.1]
    refine Ensures.bind (R := fun _ w => w.breakpoints = w₀.breakpoints.nextId.2 ∧
      w₀.engine.Asked [.located b.file b.line (some offset)] w.engine) ?_ fun _ => ?_
    · exact fun w h => ⟨rfl, h.1.2⟩
    refine Ensures.bind (R := fun taken w => w.breakpoints = w₀.breakpoints.nextId.2 ∧
      w₀.engine.Asked [.located b.file b.line (some offset),
        .added w₀.breakpoints.nextId.1 offset taken.isSome] w.engine) ?_ fun taken => ?_
    · -- the id is used up before the engine is asked, and stays used up if it refuses
      rintro w ⟨table, asked⟩
      have added : w.engine.Asked [.added w₀.breakpoints.nextId.1 offset
          ((ask? (Engine.addCodeBreakpoint w₀.breakpoints.nextId.1 offset)).run w).1.isSome]
          ((ask? (Engine.addCodeBreakpoint w₀.breakpoints.nextId.1 offset)).run w).2.engine :=
        ⟨rfl, rfl⟩
      exact ⟨table, asked.trans added⟩
    cases taken with
    | none =>
      exact .pure fun w h =>
        ⟨.asked b.line offset _ false, rfl, rfl, fun _ e => (Option.some.inj e).symm, h⟩
    -- only now the breakpoint is put in the table
    | some u =>
      refine Ensures.bind (R := fun _ w => w.breakpoints = w₀.breakpoints.nextId.2.insert
        w₀.breakpoints.nextId.1 b ∧ w₀.engine.Asked [.located b.file b.line (some offset),
          .added w₀.breakpoints.nextId.1 offset true] w.engine) ?_ fun _ => ?_
      · rintro w ⟨table, asked⟩
        exact ⟨congrArg (fun t => t.insert w₀.breakpoints.nextId.1 b) table, asked⟩
      · exact .pure fun w h =>
          ⟨.asked b.line offset _ true, rfl, rfl, fun _ e => (Option.some.inj e).symm, h⟩

/-- The lines are tried one after the other. -/
theorem run_tried (file : String) (lines : List UInt32) (w : Worker (AnswerLog σ)) :
    let r := (lines.mapM fun line => do
      let breakpoint : Breakpoint := ⟨file, line⟩
      return ({ breakpoint, verified := ← addBreakpoint breakpoint } : BreakpointResult)).run w
    ∃ tries : List BreakpointTry, tries.map (·.line) = lines ∧
      r.1 = tries.map (·.result file) ∧ BreakpointTry.Numbered file w.breakpoints tries ∧
      r.2.breakpoints = tries.foldl (BreakpointTry.apply file) w.breakpoints ∧
      w.engine.Asked (tries.flatMap (·.answers file)) r.2.engine := by
  -- on the lines: the attempts at the rest start from the table that the first has left
  induction lines generalizing w with
  | nil => exact ⟨[], rfl, rfl, trivial, rfl, .refl _⟩
  | cons line lines ih =>
    rw [List.mapM_cons]
    obtain ⟨t, same, verified, numbered, table, asked⟩ := ensures_tried ⟨file, line⟩ w w rfl
    obtain ⟨tries, lines', results, numbered', table', asked'⟩ :=
      ih ((addBreakpoint ⟨file, line⟩).run w).2
    rw [table] at numbered' table'
    refine ⟨t :: tries, ?_, ?_, ⟨numbered, numbered'⟩, table', asked.trans asked'⟩
    · rw [List.map_cons, same, lines']
    · rw [List.map_cons, ← results, BreakpointTry.result, same, ← verified]
      rfl

/-- The breakpoints of a list are removed from the engine one after the other. -/
theorem run_removed (ids : List UInt32) (w : Worker (AnswerLog σ)) :
    let r := (forIn ids PUnit.unit fun id _ => do
      let _ ← ask? (Engine.removeBreakpoint id)
      pure (ForInStep.yield PUnit.unit) : WorkerM (AnswerLog σ) PUnit).run w
    r.2.breakpoints = w.breakpoints ∧ w.engine.Asked (ids.map .removed) r.2.engine := by
  induction ids generalizing w with
  | nil => exact ⟨rfl, .refl _⟩
  | cons id ids ih =>
    let w₁ := ((ask? (Engine.removeBreakpoint id)).run w).2
    have removed : w.engine.Asked [.removed id] w₁.engine := ⟨rfl, rfl⟩
    obtain ⟨table, asked⟩ := ih w₁
    rw [List.forIn_cons]
    exact ⟨table, removed.trans asked⟩

/-- To set the breakpoints of a file, its old ones are removed, and then the lines are tried. -/
theorem run_setBreakpoints (file : String) (lines : List UInt32) (w : Worker (AnswerLog σ)) :
    let r := (setBreakpoints file lines).run w
    ∃ tries : List BreakpointTry, tries.map (·.line) = lines ∧ r.1 = tries.map (·.result file) ∧
      BreakpointTry.Numbered file (w.breakpoints.takeFile file).2 tries ∧
      r.2.breakpoints = tries.foldl (BreakpointTry.apply file) (w.breakpoints.takeFile file).2 ∧
      w.engine.Asked ((w.breakpoints.idsOf file).map .removed ++ tries.flatMap (·.answers file))
        r.2.engine := by
  -- the file is taken out of the table before the engine is asked to remove anything
  let w₁ : Worker (AnswerLog σ) := { w with breakpoints := (w.breakpoints.takeFile file).2 }
  obtain ⟨table, removed⟩ := run_removed (w.breakpoints.idsOf file) w₁
  obtain ⟨tries, lines_eq, results, numbered, table', asked⟩ := run_tried file lines
    ((forIn (w.breakpoints.idsOf file) PUnit.unit fun id _ => do
      let _ ← ask? (Engine.removeBreakpoint id)
      pure (ForInStep.yield PUnit.unit) : WorkerM (AnswerLog σ) PUnit).run w₁).2
  rw [table] at numbered table'
  exact ⟨tries, lines_eq, results, numbered, table', removed.trans asked⟩

end Worker

/-! ## What becomes of the table -/

namespace BreakpointTable

/-- The maps are in step, and all ids in them were given out. -/
structure WellFormed (t : BreakpointTable) : Prop extends t.Consistent where
  toNat_le : ∀ id, (t.get? id).isSome = true → id.toNat ≤ t.lastId.toNat

/-- The empty table is well formed. -/
theorem wellFormed_empty : ({} : BreakpointTable).WellFormed where
  toConsistent := consistent_empty
  toNat_le := fun _ known => nomatch known

/-- Taking a file keeps a table well formed. -/
theorem WellFormed.takeFile {t : BreakpointTable} (h : t.WellFormed) (file : String) :
    (t.takeFile file).2.WellFormed where
  toConsistent := h.toConsistent.takeFile file
  toNat_le := by
    intro id known
    rw [get?_takeFile] at known
    split at known
    · cases known
    · exact h.toNat_le id known

/-- The ids that a list of tries has used up. -/
def usedIds (tries : List BreakpointTry) : List UInt32 :=
  tries.filterMap (·.id?)

/-- The ids used by attempts in a row are those of the parts in a row. -/
theorem usedIds_append (l₁ l₂ : List BreakpointTry) : usedIds (l₁ ++ l₂) = usedIds l₁ ++ usedIds l₂ :=
  List.filterMap_append

/-- What a list of tries makes of a table. -/
structure Gains (file : String) (tries : List BreakpointTry) (t t' : BreakpointTable) : Prop where
  wellFormed : t'.WellFormed
  lastId : t'.lastId.toNat = t.lastId.toNat + (usedIds tries).length
  ids : (usedIds tries).map UInt32.toNat = List.range' (t.lastId.toNat + 1) (usedIds tries).length
  idsOf_file : t'.idsOf file = t.idsOf file ++ tries.filterMap (·.set?)
  idsOf_other : ∀ f, f ≠ file → t'.idsOf f = t.idsOf f
  get?_known : ∀ id, id.toNat ≤ t.lastId.toNat → t'.get? id = t.get? id
  get?_set : ∀ tr ∈ tries, ∀ id, tr.set? = some id → t'.get? id = some ⟨file, tr.line⟩

variable {file : String} {t t₁ t₂ : BreakpointTable}

/-- Without an attempt nothing is gained. -/
theorem Gains.nil (h : t.WellFormed) : Gains file [] t t where
  wellFormed := h
  lastId := rfl
  ids := rfl
  idsOf_file := (List.append_nil _).symm
  idsOf_other := fun _ _ => rfl
  get?_known := fun _ _ => rfl
  get?_set := nofun

/-- What attempts gain one after the other adds up. -/
theorem Gains.append {l₁ l₂ : List BreakpointTry} (h : Gains file l₁ t t₁) (h' : Gains file l₂ t₁ t₂) :
    Gains file (l₁ ++ l₂) t t₂ where
  wellFormed := h'.wellFormed
  lastId := by rw [h'.lastId, h.lastId, usedIds_append, List.length_append, Nat.add_assoc]
  ids := by
    have second := h'.ids
    rw [h.lastId, Nat.add_right_comm] at second
    rw [usedIds_append, List.map_append, List.length_append, ← List.range'_append_1, h.ids, second]
  idsOf_file := by
    rw [h'.idsOf_file, h.idsOf_file, List.filterMap_append, List.append_assoc]
  idsOf_other := fun f other => (h'.idsOf_other f other).trans (h.idsOf_other f other)
  get?_known := by
    intro id known
    have later : id.toNat ≤ t₁.lastId.toNat := h.lastId ▸ Nat.le_add_right_of_le known
    exact (h'.get?_known id later).trans (h.get?_known id known)
  -- an id of the first attempts is known to the table between them, and the second leave it as it is
  get?_set := by
    intro tr mem id set
    rcases List.mem_append.1 mem with mem | mem
    · have first := h.get?_set tr mem id set
      rwa [h'.get?_known id (h.wellFormed.toNat_le id (by rw [first]; rfl))]
    · exact h'.get?_set tr mem id set

/-- The next id is the last one counted up, as long as there is room. -/
theorem toNat_nextId (room : t.lastId.toNat + 1 < UInt32.size) :
    t.nextId.1.toNat = t.lastId.toNat + 1 := by
  change (t.lastId + 1).toNat = _
  rw [UInt32.toNat_add]
  exact Nat.mod_eq_of_lt room

/-- An id is given out that nobody has. -/
theorem WellFormed.nextId (h : t.WellFormed) (room : t.lastId.toNat + 1 < UInt32.size) :
    t.nextId.2.WellFormed ∧ t.get? t.nextId.1 = none := by
  have next := toNat_nextId room
  refine ⟨⟨h.toConsistent.nextId, fun id known => ?_⟩, ?_⟩
  · exact Nat.le_trans (h.toNat_le id known) (Nat.le_of_lt (next ▸ Nat.lt_succ_self _))
  · cases known : t.get? t.nextId.1 with
    | none => rfl
    | some b =>
      have bound := h.toNat_le _ (by rw [known]; rfl)
      omega

/-- What a try makes of a table. -/
theorem gains_apply (h : t.WellFormed) {tr : BreakpointTry}
    (numbered : ∀ id, tr.id? = some id → id = t.nextId.1) (room : t.lastId.toNat + 1 < UInt32.size) :
    Gains file [tr] t (tr.apply file t) := by
  cases tr with
  | unresolved line => exact { Gains.nil h with get?_set := by simp [BreakpointTry.set?, BreakpointTry.verified] }
  | asked line offset id taken =>
    obtain rfl : id = t.nextId.1 := numbered id rfl
    have next := toNat_nextId room
    obtain ⟨wellFormed, new⟩ := h.nextId room
    -- the table knows nothing under the id that is given out
    have fresh : ∀ i : UInt32, i.toNat ≤ t.lastId.toNat → i ≠ t.nextId.1 := by
      rintro i bound rfl
      omega
    -- an id is used up also where the engine does not take the breakpoint
    cases taken with
    | false =>
      exact
      { wellFormed
        lastId := next
        ids := by rw [usedIds]; simp [BreakpointTry.id?, next]
        idsOf_file := (List.append_nil _).symm
        idsOf_other := fun _ _ => rfl
        get?_known := fun _ _ => rfl
        get?_set := by simp [BreakpointTry.set?, BreakpointTry.verified] }
    | true =>
      exact
      { wellFormed :=
        { toConsistent := wellFormed.toConsistent.insert new _
          toNat_le := by
            intro i known
            by_cases same : i = t.nextId.1
            · exact Nat.le_of_eq (congrArg UInt32.toNat same)
            · refine wellFormed.toNat_le i ?_
              rwa [BreakpointTry.apply, if_pos rfl, get?_insert_of_ne _ _ same] at known }
        lastId := next
        ids := by rw [usedIds]; simp [BreakpointTry.id?, next]
        idsOf_file := (idsOf_insert _ _ _ _).trans (if_pos rfl)
        idsOf_other := fun f other => (idsOf_insert _ _ _ _).trans (if_neg other)
        get?_known := fun i known => get?_insert_of_ne _ _ (fresh i known)
        get?_set := by
          -- the only try is the one that was made
          intro tr mem i set
          obtain rfl := List.mem_singleton.1 mem
          obtain rfl : t.nextId.1 = i := Option.some.inj set
          exact get?_insert _ _ _ }

/-- What a list of tries makes of a table with ids left. -/
theorem gains_foldl (h : t.WellFormed) {tries : List BreakpointTry}
    (numbered : BreakpointTry.Numbered file t tries)
    (room : t.lastId.toNat + tries.length < UInt32.size) :
    Gains file tries t (tries.foldl (BreakpointTry.apply file) t) := by
  induction tries generalizing t with
  | nil => exact .nil h
  | cons tr tries ih =>
    rw [List.length_cons] at room
    have first : Gains file [tr] t (tr.apply file t) := gains_apply h numbered.1 (by omega)
    have used : (usedIds [tr]).length ≤ 1 := List.length_filterMap_le _ _
    exact first.append (ih first.wellFormed numbered.2 (by rw [first.lastId]; omega))

/-- The breakpoints that were set are the verified ones among the results. -/
theorem map_get?_set {l : List BreakpointTry}
    (set : ∀ tr ∈ l, ∀ id, tr.set? = some id → t.get? id = some ⟨file, tr.line⟩) :
    (l.filterMap (·.set?)).map t.get? =
      ((l.map (·.result file)).filter (·.verified)).map fun r => some r.breakpoint := by
  induction l with
  | nil => rfl
  | cons tr l ih =>
    have rest := ih fun tr' mem => set tr' (List.mem_cons_of_mem _ mem)
    have first := set tr List.mem_cons_self
    cases tr with
    | unresolved line => exact rest
    | asked line offset id taken =>
      cases taken with
      | false => exact rest
      | true => exact List.cons_eq_cons.2 ⟨first id rfl, rest⟩

/-- Only ids that were given out are ids of breakpoints. -/
theorem filterMap_set?_sublist (tries : List BreakpointTry) :
    (tries.filterMap (·.set?)).Sublist (usedIds tries) := by
  have verified : tries.filterMap (·.set?) = (tries.filter (·.verified)).filterMap (·.id?) :=
    List.filterMap_filter.symm
  rw [verified]
  exact List.filter_sublist.filterMap _

/-- The ids that were used up are new, and no two of them are the same. -/
theorem Gains.pairwise_usedIds {tries : List BreakpointTry} (h : Gains file tries t t₁) :
    (∀ id ∈ usedIds tries, t.lastId.toNat < id.toNat) ∧ (usedIds tries).Nodup := by
  refine ⟨fun id mem => ?_, ?_⟩
  · have bound := List.mem_map_of_mem (f := UInt32.toNat) mem
    rw [h.ids, List.mem_range'_1] at bound
    exact bound.1
  · have distinct : ((usedIds tries).map UInt32.toNat).Nodup := h.ids ▸ List.nodup_range'
    exact List.Pairwise.of_map _ (fun _ _ apart same => apart (congrArg _ same)) distinct

end BreakpointTable

/-! ## Replies -/

namespace Worker

variable {σ : Type} [Engine σ]

/-- What a request for breakpoints on some lines of a file replies and leaves, by its tries. -/
structure Replaced (file : String) (lines : List UInt32) (w : Worker (AnswerLog σ))
    (results : List BreakpointResult) (w' : Worker (AnswerLog σ)) (tries : List BreakpointTry) :
    Prop where
  lines_eq : tries.map (·.line) = lines
  results_eq : results = tries.map (·.result file)
  /-- The old breakpoints were removed, then the lines were tried, and that is all. -/
  asked : w.engine.Asked ((w.breakpoints.idsOf file).map .removed ++
    tries.flatMap (·.answers file)) w'.engine
  wellFormed : w'.breakpoints.WellFormed
  /-- The breakpoints of the file are the verified ones, in their order. -/
  breakpoints : (w'.breakpoints.idsOf file).map w'.breakpoints.get? =
    (results.filter (·.verified)).map fun r => some r.breakpoint
  nodup : (w'.breakpoints.idsOf file).Nodup
  fresh : ∀ id ∈ w'.breakpoints.idsOf file, w.breakpoints.lastId < id ∧ w.breakpoints.get? id = none
  forgotten : ∀ id ∈ w.breakpoints.idsOf file, w'.breakpoints.get? id = none
  /-- The breakpoints of other files stay, and the engine is not asked to change them. -/
  others : ∀ f, f ≠ file → w'.breakpoints.idsOf f = w.breakpoints.idsOf f ∧
    ∀ id ∈ w.breakpoints.idsOf f, w'.breakpoints.get? id = w.breakpoints.get? id ∧
      ∀ a ∈ (w.breakpoints.idsOf file).map .removed ++ tries.flatMap (·.answers file), ¬a.Touches id

/-- Setting the breakpoints of a file, as long as there are ids left for its lines. -/
theorem replaced_setBreakpoints (w : Worker (AnswerLog σ)) (file : String) (lines : List UInt32)
    (wellFormed : w.breakpoints.WellFormed)
    (room : w.breakpoints.lastId.toNat + lines.length < UInt32.size) :
    ∃ tries, Replaced file lines w ((setBreakpoints file lines).run w).1
      ((setBreakpoints file lines).run w).2 tries := by
  obtain ⟨tries, lines_eq, results, numbered, table, asked⟩ := run_setBreakpoints file lines w
  rw [← lines_eq, List.length_map] at room
  -- the tries are made on the table without the old breakpoints of the file
  have gains := BreakpointTable.gains_foldl (wellFormed.takeFile file) numbered room
  rw [← table] at gains
  obtain ⟨new, distinct⟩ := gains.pairwise_usedIds
  have listed := gains.idsOf_file
  rw [BreakpointTable.idsOf_takeFile, List.nil_append] at listed
  -- ids are counted up, so those given out now are larger than all that are known
  have given : ∀ id ∈ tries.filterMap (·.set?), w.breakpoints.lastId.toNat < id.toNat :=
    fun id mem => new id ((BreakpointTable.filterMap_set?_sublist tries).mem mem)
  have old : ∀ {f id}, id ∈ w.breakpoints.idsOf f → id.toNat ≤ w.breakpoints.lastId.toNat :=
    fun mem => wellFormed.toNat_le _ (wellFormed.get?_of_mem mem)
  refine ⟨tries, lines_eq, results, asked, gains.wellFormed, ?_, ?_, ?_, ?_, ?_⟩
  · rw [results, listed]
    exact BreakpointTable.map_get?_set gains.get?_set
  · rw [listed]
    exact distinct.sublist (BreakpointTable.filterMap_set?_sublist tries)
  · intro id mem
    rw [listed] at mem
    refine ⟨UInt32.lt_iff_toNat_lt.2 (given id mem), ?_⟩
    -- a known id would not be larger than all that are known
    cases known : w.breakpoints.get? id with
    | none => rfl
    | some b =>
      have bound := wellFormed.toNat_le id (by rw [known]; rfl)
      exact absurd (given id mem) (Nat.not_lt.2 bound)
  · intro id mem
    rw [gains.get?_known id (old mem), BreakpointTable.get?_takeFile, if_pos mem]
  · intro f other
    refine ⟨(gains.idsOf_other f other).trans (BreakpointTable.idsOf_takeFile_of_ne _ other), ?_⟩
    intro id mem
    -- what is removed belongs to the file, and what is asked for has a new id
    have apart : id ∉ w.breakpoints.idsOf file :=
      fun mem' => other (wellFormed.file_eq_of_mem mem mem')
    refine ⟨?_, fun a asked touches => ?_⟩
    · rw [gains.get?_known id (old mem), BreakpointTable.get?_takeFile, if_neg apart]
    · rcases List.mem_append.1 asked with asked | asked
      · obtain ⟨id', mem', rfl⟩ := List.mem_map.1 asked
        obtain rfl : id' = id := touches
        exact apart mem'
      · obtain ⟨tr, mem', asked⟩ := List.mem_flatMap.1 asked
        have used := tr.id?_of_touches asked touches
        have bound := new id (List.mem_filterMap.2 ⟨tr, mem', used⟩)
        exact absurd bound (Nat.not_lt.2 (old mem))

end Worker

end DebugAdapter
