import DebugAdapter.Proofs.SourceRoundTrip
import DebugAdapter.Text.Search

/-!
# The prefix that is used

A source map keeps its rules sorted, longer prefixes first, and uses the first one that fits. The prefixes that
fit a path are all prefixes of it, so the longer one of them in bytes is the longer one in characters; and
sorting keeps the order of prefixes of one length, so what is used is the longest prefix that fits, the earliest
of equal ones. As each prefix ends with a slash, what fits is made of whole components of the path.

## Key results

- `filter_sortRules`: sorting keeps the order of the rules of one size
- `SourceMap.exists_of_ruleFor?_sortRules`: the rule that is used, among all of them as they were given
- `PrefixRule.splitAll_of_normal_append`: what fits is made of whole components
- `PrefixRule.join_replaces`: what is put in the place of a prefix
- `SourceMap.toClient_toTarget_maps`: both directions of a map, by the pairs it was made of
-/

namespace DebugAdapter

/-! ## Components -/

namespace Text

/-- A split text has at least one part. -/
theorem splitAll_ne_nil (c : Char) (s : List Char) : splitAll c s ≠ [] := by
  cases s with
  | nil => exact List.cons_ne_nil _ _
  | cons d rest =>
    rw [splitAll]
    split
    · exact List.cons_ne_nil _ _
    · split
      all_goals exact List.cons_ne_nil _ _

/-- A text is cut at a separator in it, whatever is around that. -/
theorem splitAll_append_cons (c : Char) (s t : List Char) :
    splitAll c (s ++ c :: t) = splitAll c s ++ splitAll c t := by
  -- induction on the text before the separator
  induction s with
  | nil =>
    cases parts : splitAll c t with
    | nil => exact absurd parts (splitAll_ne_nil c t)
    | cons first others =>
      rw [List.nil_append, splitAll, splitAll, parts]
      exact if_pos rfl
  | cons d rest ih =>
    rw [List.cons_append, splitAll, ih, splitAll]
    cases parts : splitAll c rest with
    | nil => exact absurd parts (splitAll_ne_nil c rest)
    | cons first others =>
      dsimp only [List.cons_append]
      split <;> rfl

end Text

/-! ## Sorted rules -/

section

variable {rules : List PrefixRule}

/-- Of two rules one is at least as long as the other. -/
private theorem size_total (a b : PrefixRule) : (decide (b.size ≤ a.size) || decide (a.size ≤ b.size)) = true := by
  simpa using Nat.le_total b.size a.size

/-- The order of the rules by size is transitive. -/
private theorem size_trans (a b c : PrefixRule) (h : decide (b.size ≤ a.size) = true)
    (h' : decide (c.size ≤ b.size) = true) : decide (c.size ≤ a.size) = true := by
  simp only [decide_eq_true_eq] at h h' ⊢
  exact Nat.le_trans h' h

/-- Longer prefixes are tried first. -/
theorem pairwise_sortRules (rules : List PrefixRule) :
    (sortRules rules).Pairwise fun a b => b.size ≤ a.size := by
  have sorted := List.pairwise_mergeSort size_trans size_total rules
  simp only [decide_eq_true_eq] at sorted
  exact sorted

/-- Sorting neither adds nor drops a rule. -/
@[simp] theorem mem_sortRules {r : PrefixRule} : r ∈ sortRules rules ↔ r ∈ rules :=
  (List.mergeSort_perm rules _).mem_iff

/-- Rules of one size are tried in the order in which they were given. -/
theorem filter_sortRules (p : PrefixRule → Bool) (alike : ∀ a b, p a = true → p b = true → a.size = b.size) :
    (sortRules rules).filter p = rules.filter p := by
  have ordered : (rules.filter p).Pairwise fun a b => decide (b.size ≤ a.size) = true := by
    refine List.pairwise_of_forall_mem_list fun a ha b hb => ?_
    have same := alike a b (List.mem_filter.1 ha).2 (List.mem_filter.1 hb).2
    exact decide_eq_true (Nat.le_of_eq same.symm)
  -- what was given in that order is found in it among the sorted rules, and there is no more of it
  have within : (rules.filter p).Sublist (sortRules rules) :=
    List.sublist_mergeSort size_trans size_total ordered List.filter_sublist
  have kept := within.filter p
  rw [List.filter_filter] at kept
  simp only [Bool.and_self] at kept
  refine (kept.eq_of_length ?_).symm
  exact ((List.mergeSort_perm rules _).filter p).length_eq.symm

/-- A longer text has more bytes. -/
private theorem size_le_of_prefix {s t : List Char} (h : s <+: t) :
    (String.ofList s).utf8ByteSize ≤ (String.ofList t).utf8ByteSize := by
  obtain ⟨more, rfl⟩ := h
  rw [String.ofList_append, String.utf8ByteSize_append]
  exact Nat.le_add_right _ _

/-- Of two prefixes of a text, the one with more bytes has more characters. -/
private theorem length_le_iff {s t whole : List Char} (hs : s <+: whole) (ht : t <+: whole) :
    s.length ≤ t.length ↔ (String.ofList s).utf8ByteSize ≤ (String.ofList t).utf8ByteSize := by
  constructor
  · intro shorter
    exact size_le_of_prefix (List.prefix_of_prefix_length_le hs ht shorter)
  · intro smaller
    rcases List.prefix_or_prefix_of_prefix hs ht with fits | ⟨more, rfl⟩
    · exact fits.length_le
    · rw [String.ofList_append, String.utf8ByteSize_append] at smaller
      have none : String.ofList more = "" := String.utf8ByteSize_eq_zero_iff.1 (by omega)
      have none : more = [] := by simpa using none
      subst none
      exact Nat.le_of_eq (congrArg List.length (List.append_nil _))

end

namespace PrefixRule

/-- A prefix that is compared ends with a slash. -/
theorem exists_normal (p : String) : ∃ stem, normal p = stem ++ ['/'] ∧
    (Path.forward p.toList = stem ∨ Path.forward p.toList = stem ++ ['/']) := by
  simp only [normal, ofPrefixes]
  split
  · next ends =>
    obtain ⟨stem, whole⟩ := List.getLast?_eq_some_iff.1 ends
    exact ⟨stem, whole, .inr whole⟩
  · exact ⟨_, rfl, .inl rfl⟩

/-- What fits is made of whole components of the path: those of the prefix, be it written with a slash at its
end or without one. -/
theorem splitAll_of_normal_append {source : String} {rest path : List Char} (whole : normal source ++ rest = path) :
    ∃ stem, (Path.forward source.toList = stem ∨ Path.forward source.toList = stem ++ ['/']) ∧
      Text.splitAll '/' path = Text.splitAll '/' stem ++ Text.splitAll '/' rest := by
  obtain ⟨stem, ends, written⟩ := exists_normal source
  refine ⟨stem, written, ?_⟩
  rw [← whole, ends, List.append_assoc, List.singleton_append, Text.splitAll_append_cons]

/-- A path is put together of what replaces a prefix and of what remains behind it: that is spelled with
backslashes if there is one in the replacement, and one separator stands in between. -/
structure Replaces (target : String) (rest : List Char) (path : String) : Prop where
  alone : rest = [] → path = target
  behind : rest ≠ [] → ∃ separator spelled, path.toList = target.toList ++ separator ++ spelled ∧
    (if target.toList.getLast? = some '/' ∨ target.toList.getLast? = some '\\' then separator = []
      else separator = [if '\\' ∈ target.toList then '\\' else '/']) ∧
    Path.forward spelled = rest ∧
    (if '\\' ∈ target.toList then '/' ∉ spelled else '\\' ∉ spelled)

/-- Written with backslashes, a path has no slash. -/
theorem not_mem_backward (s : List Char) : '/' ∉ Path.backward s := by
  intro mem
  obtain ⟨c, -, same⟩ := List.mem_map.1 mem
  split at same
  · cases same
  · next other => exact other same

/-- Written with slashes, a path has no backslash. -/
theorem not_mem_forward (s : List Char) : '\\' ∉ Path.forward s := by
  intro mem
  obtain ⟨c, -, same⟩ := List.mem_map.1 mem
  split at same
  · cases same
  · next other => exact other same

/-- What remains of a path with slashes is put behind what replaces the prefix. -/
theorem join_replaces {target : String} {rest : List Char} (slashes : Path.forward rest = rest) :
    Replaces target rest (join target rest) := by
  have contains : target.toList.contains '\\' = true ↔ '\\' ∈ target.toList := List.contains_iff_mem
  constructor
  · rintro rfl
    rfl
  · intro remains
    -- the separator and the spelling of the rest are those of the target
    refine ⟨_, _, by rw [join, if_neg (by simpa using remains), String.toList_ofList], ?_, ?_, ?_⟩
    · split
      · rfl
      · simp only [contains]
    · split
      · rw [Path.forward_backward, slashes]
      · exact slashes
    · simp only [contains]
      split
      · exact not_mem_backward rest
      · exact slashes ▸ not_mem_forward rest

end PrefixRule

/-! ## Source maps -/

namespace SourceMap

variable {rules : List PrefixRule} {pairs : List (String × String)} {path : String}

/-- The rule that is used is the longest one that fits, the first of them as they were given. -/
theorem exists_of_ruleFor?_sortRules {r : PrefixRule} (h : ruleFor? (sortRules rules) path = some r) :
    ∃ before after, rules = before ++ r :: after ∧ r.Fits path ∧
      (∀ r' ∈ before, r'.Fits path → r'.source.length < r.source.length) ∧
      (∀ r' ∈ after, r'.Fits path → r'.source.length ≤ r.source.length) := by
  obtain ⟨fits, front, back, sorted, unfit⟩ := List.find?_eq_some_iff_append.1 h
  have fitsR : r.Fits path := List.isPrefixOf_iff_prefix.1 fits
  -- the rules are tried from the largest prefix on, so what comes before does not fit
  have largest : ∀ r' ∈ rules, r'.Fits path → r'.size ≤ r.size := by
    intro r' mem fits'
    have mem := mem_sortRules.2 mem
    have ordered := pairwise_sortRules rules
    rw [sorted] at mem ordered
    rcases List.mem_append.1 mem with mem | mem
    · have unfit := unfit r' mem
      rw [List.isPrefixOf_iff_prefix.2 fits'] at unfit
      cases unfit
    · rcases List.mem_cons.1 mem with rfl | mem
      · exact Nat.le_refl _
      · exact (List.pairwise_cons.1 (List.pairwise_append.1 ordered).2.1).1 r' mem
  -- the rules of that size which fit are tried in the order in which they were given
  let alike (r' : PrefixRule) : Bool := r'.source.isPrefixOf (Path.forward path.toList) && r'.size == r.size
  have first : rules.find? alike = some r := by
    have same : (sortRules rules).filter alike = rules.filter alike :=
      filter_sortRules alike fun a b ha hb => by
        simp only [alike, Bool.and_eq_true, beq_iff_eq] at ha hb
        rw [ha.2, hb.2]
    rw [← List.head?_filter, ← same, List.head?_filter, List.find?_eq_some_iff_append]
    refine ⟨by simp [alike, fits], front, back, sorted, fun r' mem => ?_⟩
    have unfit := unfit r' mem
    simp only [alike, Bool.not_eq_true', Bool.and_eq_false_iff] at unfit ⊢
    exact .inl unfit
  -- both prefixes fit one path, so more characters mean more bytes
  obtain ⟨-, before, after, given, unlike⟩ := List.find?_eq_some_iff_append.1 first
  refine ⟨before, after, given, fitsR, ?_, ?_⟩
  · -- a rule given before that is as large would have been tried first
    intro r' mem fits'
    have most := largest r' (given ▸ List.mem_append_left _ mem) fits'
    have unlike := unlike r' mem
    have size : r'.size ≠ r.size := by
      intro same
      simp [alike, same, List.isPrefixOf_iff_prefix.2 fits'] at unlike
    have longer := length_le_iff fitsR fits'
    simp only [PrefixRule.size] at most size
    omega
  · intro r' mem fits'
    have most := largest r' (given ▸ List.mem_append_right _ (List.mem_cons_of_mem _ mem)) fits'
    exact (length_le_iff fits' fitsR).2 most

/-- How a path is mapped by pairs of prefixes. If the first prefix of no pair fits, it stays as it is. Otherwise
the pair with the longest prefix that fits is used, the earliest of equal ones, and its second prefix replaces
the first one. -/
def Maps (pairs : List (String × String)) (path mapped : String) : Prop :=
  (∀ p ∈ pairs, ¬PrefixRule.normal p.1 <+: Path.forward path.toList) ∧ mapped = path ∨
  ∃ before source target after rest,
    pairs = before ++ (source, target) :: after ∧
    (∀ p ∈ before, PrefixRule.normal p.1 <+: Path.forward path.toList →
      (PrefixRule.normal p.1).length < (PrefixRule.normal source).length) ∧
    (∀ p ∈ after, PrefixRule.normal p.1 <+: Path.forward path.toList →
      (PrefixRule.normal p.1).length ≤ (PrefixRule.normal source).length) ∧
    PrefixRule.normal source ++ rest = Path.forward path.toList ∧
    PrefixRule.Replaces target rest mapped

/-- A path is mapped by the sorted rules of some pairs as the pairs tell. -/
theorem apply_sortRules_maps (pairs : List (String × String)) (path : String) :
    Maps pairs path (apply (sortRules (pairs.map fun p => .ofPrefixes p.1 p.2)) path) := by
  have listed : ∀ {l : List (String × String)} {p : String × String}, p ∈ l →
      PrefixRule.ofPrefixes p.1 p.2 ∈ l.map fun p => .ofPrefixes p.1 p.2 := fun mem =>
    List.mem_map.2 ⟨_, mem, rfl⟩
  -- no rule fits, or the one that is found is the longest and earliest
  cases found : ruleFor? (sortRules (pairs.map fun p => .ofPrefixes p.1 p.2)) path with
  | none =>
    have unfit : ∀ r ∈ sortRules (pairs.map fun p => .ofPrefixes p.1 p.2), ¬r.Fits path := fun r mem fits =>
      List.find?_eq_none.1 found r mem (List.isPrefixOf_iff_prefix.2 fits)
    exact .inl ⟨fun p mem => unfit (.ofPrefixes p.1 p.2) (mem_sortRules.2 (listed mem)), apply_of_unfit unfit⟩
  | some r =>
    obtain ⟨before, after, given, fits, longer, longest⟩ := exists_of_ruleFor?_sortRules found
    obtain ⟨before, more, rfl, rfl, behind⟩ := List.map_eq_append_iff.1 given
    obtain ⟨⟨source, target⟩, after, rfl, rfl, rfl⟩ := List.map_eq_cons_iff.1 behind
    refine .inr ⟨before, source, target, after, _, rfl, ?_, ?_, fits.append_rest, ?_⟩
    · exact fun p mem fits => longer (.ofPrefixes p.1 p.2) (listed mem) fits
    · exact fun p mem fits => longest (.ofPrefixes p.1 p.2) (listed mem) fits
    · rw [apply_of_ruleFor? found]
      exact PrefixRule.join_replaces (PrefixRule.forward_rest _ path)

/-- Paths are mapped to the client as the pairs tell, and to the debuggee as the swapped pairs do. Whatever
prefix fits is made of whole components of the path. -/
theorem toClient_toTarget_maps (pairs : List (String × String)) (path : String) :
    Maps pairs path ((ofPairs pairs).toClient path) ∧
    Maps (pairs.map Prod.swap) path ((ofPairs pairs).toTarget path) ∧
    ∀ source rest, PrefixRule.normal source ++ rest = Path.forward path.toList →
      ∃ stem, (Path.forward source.toList = stem ∨ Path.forward source.toList = stem ++ ['/']) ∧
        Text.splitAll '/' (Path.forward path.toList) = Text.splitAll '/' stem ++ Text.splitAll '/' rest := by
  refine ⟨apply_sortRules_maps pairs path, ?_, fun _ _ => PrefixRule.splitAll_of_normal_append⟩
  have swapped := apply_sortRules_maps (pairs.map Prod.swap) path
  rw [List.map_map] at swapped
  exact swapped

/-- The prefix of a build directory in a path of a file in it. -/
theorem toClient_toTarget_maps_build :
    PrefixRule.normal "D:\\build" ++ "app/main.rs".toList = Path.forward "D:\\build/app\\main.rs".toList ∧
    Maps [("D:\\build", "/home/dev"), ("D:\\build\\app", "/opt/app")] "D:\\build/app\\main.rs"
      ((ofPairs [("D:\\build", "/home/dev"), ("D:\\build\\app", "/opt/app")]).toClient
        "D:\\build/app\\main.rs") ∧
    ∃ stem, (Path.forward "D:\\build".toList = stem ∨ Path.forward "D:\\build".toList = stem ++ ['/']) ∧
      Text.splitAll '/' (Path.forward "D:\\build/app\\main.rs".toList) =
        Text.splitAll '/' stem ++ Text.splitAll '/' "app/main.rs".toList := by
  have fits : PrefixRule.normal "D:\\build" ++ "app/main.rs".toList =
      Path.forward "D:\\build/app\\main.rs".toList := by decide +kernel
  have maps := toClient_toTarget_maps [("D:\\build", "/home/dev"), ("D:\\build\\app", "/opt/app")]
    "D:\\build/app\\main.rs"
  exact ⟨fits, maps.1, maps.2.2 _ _ fits⟩

end SourceMap

end DebugAdapter
