import DebugAdapter.Proofs.UriRoundTrip
import DebugAdapter.Session.Handle
import Mathlib.Data.List.Pairwise

/-!
# Source files that went to the client and back

A client sets breakpoints in the files it was shown in stack frames. The file of a frame is mapped to the
client's sources, converted to a path or a URI, converted back and mapped back. Each of these steps may
spell separators anew; apart from that they cancel, and so do the conversions of lines.

Two things can go wrong on the way back, and are excluded. A client's prefix other than the one that was
put in must not fit, so no client's prefix may begin with another one (`SourceMap.Separate`). And the
prefix that was put in has to fit, which it does only if something of the path remains behind it
(`SourceMap.Covers`): a prefix alone is sent without a slash at its end.

## Key results

- `PrefixRule.forward_join`: what a rule makes of a path, but for the spelling of separators
- `SourceMap.forward_toTarget_toClient`: the map leads back to the file
- `Session.setBreakpoints_of_frameJson`: the command for a breakpoint on a line that a frame was shown on
-/

namespace DebugAdapter

/-! ## Members of an object -/

namespace Json

/-- Of the members that an object was put together of, the last one of a name is found. -/
theorem member?_object (name : String) (members : List (String × Json)) :
    (object members).member? name = (members.reverse.find? (·.1 == name)).map (·.2) := by
  have sorted : ∀ l : List (String × Json),
      findMember name (l.foldr (fun m sorted => insertMember m.1 m.2 sorted) []) =
        (l.find? (·.1 == name)).map (·.2) := by
    intro l
    -- induction on the members, of which the last one with a name counts
    induction l with
    | nil => rfl
    | cons m rest ih =>
      rw [List.foldr_cons, List.find?_cons]
      by_cases same : m.1 = name
      · rw [same, findMember_insertMember, beq_self_eq_true]
        rfl
      · rw [findMember_insertMember_of_ne (Ne.symm same), ih, beq_eq_false_iff_ne.2 same]
  rw [object, member?, ← List.foldr_reverse, sorted]

end Json

/-! ## Prefix rules -/

namespace PrefixRule

/-- A prefix as it is compared: with slashes, and with one at its end. -/
def normal (p : String) : List Char :=
  (ofPrefixes p "").source

/-- The rule's prefix fits a path. -/
def Fits (r : PrefixRule) (path : String) : Prop :=
  r.source <+: Path.forward path.toList

/-- What remains of a path behind the rule's prefix. -/
def rest (r : PrefixRule) (path : String) : List Char :=
  (Path.forward path.toList).drop r.source.length

/-- A path that fits is the prefix with the rest behind it. -/
theorem Fits.append_rest {r : PrefixRule} {path : String} (fits : r.Fits path) :
    r.source ++ r.rest path = Path.forward path.toList := by
  obtain ⟨tail, whole⟩ := fits
  rw [rest, ← whole, List.drop_left]

/-- The rest has forward slashes only. -/
theorem forward_rest (r : PrefixRule) (path : String) :
    Path.forward (r.rest path) = r.rest path := by
  have : r.rest path = Path.forward (path.toList.drop r.source.length) := by
    rw [rest, Path.forward, Path.forward, List.map_drop]
  rw [this, Path.forward_forward]

/-- In a path that fits, the prefix is replaced. -/
theorem substitute?_of_fits {r : PrefixRule} {path : String} (fits : r.Fits path) :
    r.substitute? (Path.forward path.toList) = some (join r.target (r.rest path)) := by
  rw [substitute?, if_pos (List.isPrefixOf_iff_prefix.2 fits), rest]

/-- A path ends with a slash if it ends with any separator. -/
private theorem getLast?_forward (s : List Char) : (Path.forward s).getLast? = some '/' ↔
    s.getLast? = some '/' ∨ s.getLast? = some '\\' := by
  rw [Path.forward, List.getLast?_map]
  cases s.getLast? with
  | none => simp
  | some c =>
    by_cases h : c = '\\' <;> simp [h]

/-- The rest of a path stands behind the new prefix as behind a prefix that is compared. -/
theorem forward_join {target : String} {rest : List Char} (remains : rest ≠ []) :
    Path.forward (join target rest).toList = normal target ++ Path.forward rest := by
  have spelled : Path.forward (if target.toList.contains '\\' then Path.backward rest else rest) =
      Path.forward rest := by
    split
    · exact Path.forward_backward rest
    · rfl
  have separator : Path.forward [if target.toList.contains '\\' then '\\' else '/'] = ['/'] := by
    split <;> rfl
  rw [join, if_neg (by simpa using remains)]
  simp only [String.toList_ofList, normal, ofPrefixes, getLast?_forward]
  -- a target that ends in a separator needs no other
  by_cases ends : target.toList.getLast? = some '/' ∨ target.toList.getLast? = some '\\'
  · rw [if_pos ends, if_pos ends, List.append_nil, Path.forward_append, spelled]
  · rw [if_neg ends, if_neg ends, Path.forward_append, Path.forward_append, separator, spelled]

end PrefixRule

/-! ## Source maps -/

namespace SourceMap

variable {rules : List PrefixRule} {pairs : List (String × String)} {file path : String}

/-- The rule that is applied to a path. -/
def ruleFor? (rules : List PrefixRule) (path : String) : Option PrefixRule :=
  rules.find? (·.source.isPrefixOf (Path.forward path.toList))

/-- No client's prefix of the map begins with another one. -/
def Separate (pairs : List (String × String)) : Prop :=
  pairs.Pairwise fun a b => ¬PrefixRule.normal a.2 <+: PrefixRule.normal b.2 ∧
    ¬PrefixRule.normal b.2 <+: PrefixRule.normal a.2

/-- A debuggee's prefix maps the file and leaves something of it, or no prefix at all fits it. -/
def Covers (m : SourceMap) (file : String) : Prop :=
  (∃ r, ruleFor? m.toClientRules file = some r ∧ r.rest file ≠ []) ∨
    ∀ r ∈ m.toClientRules ++ m.toTargetRules, ¬r.Fits file

/-- The rule for a path is one of the rules, and it fits. -/
theorem fits_of_ruleFor? {r : PrefixRule} (h : ruleFor? rules path = some r) :
    r ∈ rules ∧ r.Fits path :=
  ⟨List.mem_of_find?_eq_some h, by simpa [PrefixRule.Fits] using List.find?_some h⟩

/-- A path is mapped by the first rule that fits. -/
theorem apply_of_ruleFor? {r : PrefixRule} (h : ruleFor? rules path = some r) :
    apply rules path = PrefixRule.join r.target (r.rest path) := by
  obtain ⟨fits, before, after, rfl, unfit⟩ := List.find?_eq_some_iff_append.1 h
  have passed : before.findSome? (·.substitute? (Path.forward path.toList)) = none := by
    refine List.findSome?_eq_none_iff.2 fun r' mem => ?_
    have unfit := unfit r' mem
    rw [PrefixRule.substitute?, if_neg (by simp_all)]
  rw [apply, List.findSome?_append, passed, Option.none_or, List.findSome?_cons,
    PrefixRule.substitute?_of_fits (List.isPrefixOf_iff_prefix.1 fits)]
  rfl

/-- A path that no rule fits is left as it is. -/
theorem apply_of_unfit (unfit : ∀ r ∈ rules, ¬r.Fits path) : apply rules path = path := by
  refine apply_of_forall_not_isPrefixOf fun r mem => ?_
  rw [Bool.eq_false_iff, ne_eq, List.isPrefixOf_iff_prefix]
  exact unfit r mem

/-- The rules for the client are those of the pairs. -/
theorem mem_toClientRules {r : PrefixRule} :
    r ∈ (ofPairs pairs).toClientRules ↔ ∃ p ∈ pairs, PrefixRule.ofPrefixes p.1 p.2 = r := by
  simp only [ofPairs, sortRules, List.mem_mergeSort, List.mem_map]

/-- The rules for the target are those of the pairs, the other way round. -/
theorem mem_toTargetRules {r : PrefixRule} :
    r ∈ (ofPairs pairs).toTargetRules ↔ ∃ p ∈ pairs, PrefixRule.ofPrefixes p.2 p.1 = r := by
  simp only [ofPairs, sortRules, List.mem_mergeSort, List.mem_map]

/-- Only one client's prefix fits a path. -/
theorem Separate.eq_of_fits (separate : Separate pairs) {p q : String × String} (hp : p ∈ pairs)
    (hq : q ∈ pairs) (fitsP : PrefixRule.normal p.2 <+: Path.forward path.toList)
    (fitsQ : PrefixRule.normal q.2 <+: Path.forward path.toList) : p = q := by
  by_contra ne
  have : Std.Symm fun a b : String × String => ¬PrefixRule.normal a.2 <+: PrefixRule.normal b.2 ∧
      ¬PrefixRule.normal b.2 <+: PrefixRule.normal a.2 := ⟨fun _ _ h => h.symm⟩
  have apart := List.Pairwise.forall separate hp hq ne
  rcases List.prefix_or_prefix_of_prefix fitsP fitsQ with h | h
  · exact apart.1 h
  · exact apart.2 h

/-- A path with a client's prefix is mapped by the pair that the prefix is of. -/
theorem Separate.toTarget_eq (separate : Separate pairs) {p : String × String} (hp : p ∈ pairs)
    {rest : List Char} (whole : PrefixRule.normal p.2 ++ rest = Path.forward path.toList) :
    (ofPairs pairs).toTarget path = PrefixRule.join p.1 rest := by
  have fits : PrefixRule.normal p.2 <+: Path.forward path.toList := ⟨rest, whole⟩
  -- the rule of the pair fits, so one is found, and it can be no other
  cases found : ruleFor? (ofPairs pairs).toTargetRules path with
  | none =>
    have unfit := List.find?_eq_none.1 found _ (mem_toTargetRules.2 ⟨p, hp, rfl⟩)
    exact absurd (List.isPrefixOf_iff_prefix.2 fits) unfit
  | some r =>
    obtain ⟨mem, fitsR⟩ := fits_of_ruleFor? found
    obtain ⟨q, hq, rfl⟩ := mem_toTargetRules.1 mem
    obtain rfl := separate.eq_of_fits hp hq fits fitsR
    have remains : (PrefixRule.ofPrefixes p.2 p.1).rest path = rest :=
      List.append_cancel_left (fitsR.append_rest.trans whole.symm)
    rw [toTarget, apply_of_ruleFor? found, remains]
    rfl

/-- The map leads back to the file, whatever becomes of the separators on the way. -/
theorem forward_toTarget_toClient (separate : Separate pairs) (covers : (ofPairs pairs).Covers file)
    (same : Path.forward path.toList = Path.forward ((ofPairs pairs).toClient file).toList) :
    Path.forward ((ofPairs pairs).toTarget path).toList = Path.forward file.toList := by
  -- the file is below a prefix, or no rule of either direction touches it
  rcases covers with ⟨r, found, remains⟩ | unfit
  · obtain ⟨mem, fits⟩ := fits_of_ruleFor? found
    obtain ⟨p, hp, rfl⟩ := mem_toClientRules.1 mem
    rw [toClient, apply_of_ruleFor? found, PrefixRule.forward_join remains,
      PrefixRule.forward_rest] at same
    -- the rest is the same in both directions
    rw [separate.toTarget_eq hp same.symm, PrefixRule.forward_join remains, PrefixRule.forward_rest]
    exact fits.append_rest
  · have toClient : (ofPairs pairs).toClient file = file :=
      apply_of_unfit fun r mem => unfit r (List.mem_append_left _ mem)
    rw [toClient] at same
    have toTarget : (ofPairs pairs).toTarget path = path := by
      refine apply_of_unfit fun r mem fits => unfit r (List.mem_append_right _ mem) ?_
      rw [PrefixRule.Fits] at fits ⊢
      rwa [same] at fits
    rw [toTarget, same]

end SourceMap

/-! ## Sessions -/

namespace Program

/-- The action that a program begins with. -/
def first? {α : Type} : Program α → Option Action
  | done _ => none
  | act a _ => some a

/-- The first action of a program is the first of all. -/
theorem first?_bind {α β : Type} {p : Program α} {a : Action} (h : p.first? = some a)
    (f : α → Program β) : (p >>= f).first? = some a := by
  cases p with
  | done => exact nomatch h
  | act => exact h

end Program

namespace Session

variable {t : Session} {f : Registered Frame} {file path : String} {line : Int}

/-- A frame is shown on a line of a source file. -/
def ShownAt (t : Session) (f : Registered Frame) (path : String) (line : Int) : Prop :=
  ((t.frameJson f).member? "source").bind (·.member? "path") = some (.str path) ∧
    (t.frameJson f).member? "line" = some (.int line)

/-- What is shown of the place of a frame. -/
theorem ShownAt.eq (shown : t.ShownAt f path line) (known : f.content.file = some file) :
    t.clientFile file = some path ∧ line = t.convention.lineToClient f.content.line := by
  obtain ⟨source, number⟩ := shown
  simp only [frameJson, known, Option.bind_some] at source number
  cases named : t.clientFile file with
  | none =>
    rw [named] at source
    simp [Json.member?_object, Json.optional] at source
  | some name =>
    rw [named] at source number
    simp [Json.member?_object, Json.optional] at source number
    exact ⟨congrArg some source, number.symm⟩

/-- A path that was shown leads back to the mapped path, but for the spelling of separators. -/
theorem exists_pathToDebugger {c : Convention} {mapped : String}
    (debugger : c.debugger.pathFormat = .path) (named : c.pathToClient mapped = some path)
    (noDrive : c.client.pathFormat = .uri → ∀ rest, Path.forward mapped.toList = '/' :: rest →
      Path.startsWithDrive rest = false) :
    ∃ back, c.pathToDebugger path = some back ∧
      Path.forward back.toList = Path.forward mapped.toList := by
  rw [Convention.pathToClient, debugger] at named
  rw [Convention.pathToDebugger, debugger]
  cases client : c.client.pathFormat with
  -- a plain path goes back as it is, and a URI as the path it was made from
  | path =>
    rw [client] at named
    obtain rfl := Option.some.inj named
    exact ⟨_, rfl, rfl⟩
  | uri =>
    rw [client] at named
    refine ⟨_, Path.ofUri?_of_toUri? named, ?_⟩
    rw [String.toList_ofList, Path.forward_canonical (noDrive client)]

/-- Work that gives its result at once is followed by the rest. -/
theorem run_bind_of_done {α β : Type} {m : RequestM α} {f : α → RequestM β} {t u : Session}
    {a : α} (h : m.run.run t = .done (.ok a, u)) : (m >>= f).run.run t = (f a).run.run u := by
  rw [ExceptT.run_bind, StateT.run_bind, h]
  rfl

/-- Work that begins with an action begins so whatever follows it. -/
private theorem first?_run_bind {α β : Type} {m : RequestM α} {f : α → RequestM β} {a : Action}
    (h : (m.run.run t).first? = some a) : ((m >>= f).run.run t).first? = some a := by
  rw [ExceptT.run_bind, StateT.run_bind]
  exact Program.first?_bind h _

/-- A name of a file is converted, and it may be noted that it could not be. -/
theorem run_debuggerPath (path : String) (t : Session) : (debuggerPath path).run.run t =
    (if (t.convention.pathToDebugger path).isNone ∧ t.convention.client.pathFormat = .uri then do
        act (.note ⟨.warn, "dap", some "dbgeng_dap::dap::convention",
          "path not well formed: '" ++ path ++ "'"⟩)
        return t.convention.pathToDebugger path
      else return t.convention.pathToDebugger path : RequestM (Option String)).run.run t :=
  rfl

/-- A path that can be converted is taken as converted. -/
theorem run_debuggerPath_some {back : String}
    (converted : t.convention.pathToDebugger path = some back) :
    (debuggerPath path).run.run t = .done (.ok (some back), t) := by
  rw [run_debuggerPath, converted, if_neg (by simp)]
  rfl

/-- To set the breakpoints of a file of a debuggee is to hand over a command for it. -/
theorem first?_setBreakpoints {r : Request} {back : String} (started : t.started = true)
    (source : (r.argument? "source").bind (·.member? "path") = some (.str path))
    (converted : t.convention.pathToDebugger path = some back) :
    ((setBreakpoints r).run.run t).first? = some (.submit (.setBreakpoints
      (t.sourceMap.toTarget back) ((breakpointLines r).map t.convention.lineToDebugger))) := by
  have given : (orFailWith (.missingArgument "source.path")
      (((r.argument? "source").bind (·.member? "path")).bind Json.toString?) :
      RequestM String).run.run t = .done (.ok path, t) := by
    rw [source]
    rfl
  -- up to the command nothing is done, as the path is there and can be converted
  rw [setBreakpoints, run_bind_of_done given, run_bind_of_done (run_debuggerPath_some converted),
    run_bind_of_done (u := t) (a := t) rfl]
  refine first?_run_bind ?_
  rw [setFileBreakpoints, run_bind_of_done (u := t) (a := t) rfl, started]
  change ((setDebuggeeBreakpoints back _).run.run t).first? = _
  rw [setDebuggeeBreakpoints, run_bind_of_done (u := t) (a := t) rfl]
  refine first?_run_bind ?_
  rw [command, run_bind_of_done (u := t) (a := t) rfl, started]
  rfl

/-- A breakpoint on the line that a frame was shown on is set on the line of the frame, and in its file,
but for the spelling of separators. -/
theorem setBreakpoints_of_frameJson {pairs : List (String × String)} {r : Request}
    (debugger : t.convention.debugger.pathFormat = .path) (map : t.sourceMap = .ofPairs pairs)
    (separate : SourceMap.Separate pairs) (known : f.content.file = some file)
    (covers : t.sourceMap.Covers file)
    (noDrive : t.convention.client.pathFormat = .uri → ∀ rest,
      Path.forward (t.sourceMap.toClient file).toList = '/' :: rest →
        Path.startsWithDrive rest = false)
    (shown : t.ShownAt f path line) (started : t.started = true)
    (source : (r.argument? "source").bind (·.member? "path") = some (.str path))
    (lines : breakpointLines r = [line]) :
    ∃ back, Path.forward back.toList = Path.forward file.toList ∧
      ((setBreakpoints r).run.run t).first? =
        some (.submit (.setBreakpoints back [f.content.line])) := by
  obtain ⟨named, rfl⟩ := shown.eq known
  -- back over the convention, the prefixes and the line numbers, in this order
  obtain ⟨mapped, converted, same⟩ := exists_pathToDebugger debugger named noDrive
  rw [map] at covers same
  refine ⟨_, SourceMap.forward_toTarget_toClient separate covers same, ?_⟩
  rw [first?_setBreakpoints started source converted, lines, map, List.map_singleton,
    Convention.lineToDebugger_lineToClient]

/-- A client with URIs that counts lines from zero, and sources of a debuggee that lie in two places. -/
def remoteSession : Session where
  engineName := "remote"
  environment := []
  convention := { client := { linesFromOne := false, pathFormat := .uri } }
  sourceMap := .ofPairs [("D:\\build", "/home/dev"), ("D:\\build\\vendor", "/opt/vendor code")]
  started := true

/-- A frame in a file of the second place. -/
def vendorFrame : Registered Frame :=
  ⟨⟨2⟩, 0x1000, 0, some "D:\\build/vendor\\lib.rs", 7, "lib!call"⟩

/-- The request for a breakpoint where that frame is shown. -/
def vendorRequest : Request where
  seq := 1
  type := "request"
  command := "setBreakpoints"
  arguments := .obj [("lines", .arr [.int 6]),
    ("source", .obj [("path", .str "file:///opt/vendor%20code/lib.rs")])]

/-- A session with a client that wants URIs and two overlapping rules: the breakpoint that is set where a
frame is shown is at the line of the frame. -/
theorem setBreakpoints_of_frameJson_vendor :
    remoteSession.ShownAt vendorFrame "file:///opt/vendor%20code/lib.rs" 6 ∧
    ∃ back, Path.forward back.toList = Path.forward "D:\\build/vendor\\lib.rs".toList ∧
      ((setBreakpoints vendorRequest).run.run remoteSession).first? =
        some (.submit (.setBreakpoints back [7])) := by
  -- of two rules that fit the longer one is taken
  have longerFirst : remoteSession.sourceMap.toClientRules =
      [.ofPrefixes "D:\\build\\vendor" "/opt/vendor code", .ofPrefixes "D:\\build" "/home/dev"] := by
    have longer : ¬(PrefixRule.ofPrefixes "D:\\build\\vendor" "/opt/vendor code").size ≤
        (PrefixRule.ofPrefixes "D:\\build" "/home/dev").size := by
      decide +kernel
    simp [remoteSession, SourceMap.ofPairs, sortRules, List.mergeSort, List.cons_merge_cons, longer]
  -- what the session shows of the frame, from the mapped path to the message
  have mapped : remoteSession.sourceMap.toClient "D:\\build/vendor\\lib.rs" =
      "/opt/vendor code/lib.rs" := by
    rw [SourceMap.toClient, longerFirst]
    decide +kernel
  have named : remoteSession.clientFile "D:\\build/vendor\\lib.rs" =
      some "file:///opt/vendor%20code/lib.rs" := by
    rw [clientFile, mapped]
    decide +kernel
  have shown : remoteSession.ShownAt vendorFrame "file:///opt/vendor%20code/lib.rs" 6 := by
    constructor
    · simp [frameJson, vendorFrame, named, Json.member?_object, Json.optional]
    · simp [frameJson, vendorFrame, named, Json.member?_object, Json.optional]
      rfl
  -- the two pairs do not get in the way of each other
  have separate : SourceMap.Separate
      [("D:\\build", "/home/dev"), ("D:\\build\\vendor", "/opt/vendor code")] := by
    unfold SourceMap.Separate
    decide +kernel
  have covers : remoteSession.sourceMap.Covers "D:\\build/vendor\\lib.rs" := by
    refine .inl ⟨.ofPrefixes "D:\\build\\vendor" "/opt/vendor code", ?_, by decide +kernel⟩
    rw [longerFirst]
    decide +kernel
  refine ⟨shown, setBreakpoints_of_frameJson rfl rfl separate rfl covers ?_ shown rfl ?_ ?_⟩
  · intro _ rest spelled
    rw [mapped] at spelled
    obtain rfl := (List.cons.inj spelled).2
    decide +kernel
  · rfl
  · rfl

end Session

end DebugAdapter
