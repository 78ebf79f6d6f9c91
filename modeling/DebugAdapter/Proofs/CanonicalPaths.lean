import DebugAdapter.Proofs.UriGrammar

/-!
# The canonical spelling of a path

A path that can be put into a URI comes back in its canonical spelling (`ofUri?_of_toUri?`). Here that spelling
is shown to be the only one that stays: spelling a path canonically twice changes nothing, and a path that was
read from a URI is spelled canonically unless it has a backslash and no drive letter. Such a path does not come
back, for a backslash is taken for a separator where a URI is made.

## Key results

- `isSome_toUri?`: the paths that can be put into a URI
- `toUri?_ascii`: a URI has characters of seven bits only
- `canonical_canonical`: the canonical spelling stays
- `toUri?_ofUri?`: a path from a URI that comes back from its own URI
- `toUri?_exactly`: what a URI of a path is, and what comes back
-/

namespace DebugAdapter.Path

/-! ## Separators -/

/-- Slashes that are turned forward and then backward are all backward. -/
@[simp] theorem backward_forward (s : List Char) : backward (forward s) = backward s := by
  simp only [forward, backward, List.map_map]
  refine List.map_congr_left fun c _ => ?_
  simp only [Function.comp]
  split <;> simp_all

/-- Turning the slashes backward twice is turning them once. -/
@[simp] theorem backward_backward (s : List Char) : backward (backward s) = backward s := by
  rw [← backward_forward (backward s), forward_backward, backward_forward]

/-- A text without backslashes keeps its separators. -/
theorem forward_of_not_mem {s : List Char} (h : '\\' ∉ s) : forward s = s := by
  rw [forward, List.map_congr_left (g := id), List.map_id]
  intro c mem
  rw [if_neg, id]
  rintro rfl
  exact h mem

/-- Whether a text begins with a drive is said by its first two characters. -/
private theorem startsWithDrive_cons_cons (letter colon : Char) (rest : List Char) :
    startsWithDrive (letter :: colon :: rest) = (letter.isAlpha && colon == ':') := by
  by_cases colon' : colon = ':'
  · subst colon'
    rw [startsWithDrive, beq_self_eq_true, Bool.and_true]
  · rw [beq_eq_false_iff_ne.2 colon', Bool.and_false]
    unfold startsWithDrive
    split
    · next e =>
      cases e
      exact absurd rfl colon'
    · rfl

/-- A separator is no part of a drive letter with its colon. -/
@[simp] theorem startsWithDrive_forward (s : List Char) : startsWithDrive (forward s) = startsWithDrive s := by
  match s with
  | [] => rfl
  | [c] => rfl
  | letter :: colon :: rest =>
    -- a turned slash is neither a letter nor a colon, and was neither before
    have letter' : (if letter = '\\' then '/' else letter).isAlpha = letter.isAlpha := by
      split
      · next same =>
        subst same
        rfl
      · rfl
    have colon' : ((if colon = '\\' then '/' else colon) == ':') = (colon == ':') := by
      split
      · next same =>
        subst same
        rfl
      · rfl
    rw [forward, List.map_cons, List.map_cons, startsWithDrive_cons_cons, startsWithDrive_cons_cons, letter',
      colon']

/-- Turning the slashes backward does not change whether a text begins with a drive. -/
@[simp] theorem startsWithDrive_backward (s : List Char) : startsWithDrive (backward s) = startsWithDrive s := by
  rw [← startsWithDrive_forward (backward s), forward_backward, startsWithDrive_forward]

/-- A text that begins with a slash does not begin with a drive. -/
@[simp] theorem startsWithDrive_slash (s : List Char) : startsWithDrive ('/' :: s) = false := by
  cases s with
  | nil => rfl
  | cons c s =>
    rw [startsWithDrive_cons_cons]
    rfl

/-! ## The canonical spelling -/

/-- A path with a drive letter has backslashes in its canonical spelling. -/
theorem canonical_of_startsWithDrive {path : List Char} (h : startsWithDrive path = true) :
    canonical path = backward path := by
  simp only [canonical, startsWithDrive_forward, h, if_true, backward_forward]

/-- A path with slashes and without a drive letter is spelled canonically. -/
theorem canonical_of_forward {path : List Char} (separators : forward path = path)
    (noDrive : startsWithDrive path = false)
    (behind : ∀ rest, path = '/' :: rest → startsWithDrive rest = false) : canonical path = path := by
  rw [canonical, separators, noDrive, if_neg Bool.false_ne_true, if_neg]
  rintro ⟨drive, first⟩
  obtain ⟨rest, rfl⟩ := List.head?_eq_some_iff.1 first
  rw [List.drop_one, List.tail_cons, behind rest rfl] at drive
  cases drive

/-- The canonical spelling of a path is canonical. -/
@[simp] theorem canonical_canonical (path : List Char) : canonical (canonical path) = canonical path := by
  -- the canonical path begins with a drive in the first two cases, and has forward slashes in the last
  by_cases drive : startsWithDrive path = true
  · rw [canonical_of_startsWithDrive drive, canonical_of_startsWithDrive (by simpa using drive),
      backward_backward]
  by_cases behind : startsWithDrive ((forward path).drop 1) = true ∧ (forward path).head? = some '/'
  · have spelled : canonical path = backward ((forward path).drop 1) := by
      rw [canonical, startsWithDrive_forward, if_neg drive, if_pos behind]
    rw [spelled, canonical_of_startsWithDrive (by simpa using behind.1), backward_backward]
  · have spelled : canonical path = forward path := by
      rw [canonical, startsWithDrive_forward, if_neg drive, if_neg behind]
    rw [spelled]
    refine canonical_of_forward (forward_forward path) (by simpa using drive) fun rest slash => ?_
    by_contra drive
    refine behind ⟨?_, by rw [slash, List.head?_cons]⟩
    rw [slash, List.drop_one, List.tail_cons]
    simpa using drive

/-! ## URIs -/

/-- A path can be put into a URI if it begins with a separator or with a drive letter and a colon. -/
theorem isSome_toUri? (path : String) : (toUri? path).isSome = true ↔
    (forward path.toList).head? = some '/' ∨ startsWithDrive (forward path.toList) = true := by
  simp only [toUri?, Option.isSome_map, uriPath?]
  split
  · next slash => simp [slash]
  · next slash =>
    split
    · next drive => simp [drive]
    · next drive => simp [slash, drive]

/-- The spelling of a byte in a URI is ASCII. -/
private theorem percentEncode_ascii (b : UInt8) : ∀ c ∈ percentEncode b, c.toNat < 0x80 := by
  -- a digit is found by its value modulo 16, so there are only 16 of them
  have digit : ∀ n, (Text.hexDigitUpper n).toNat < 0x80 := by
    have digits : ∀ d < 16, (Text.hexDigitUpper d).toNat < 0x80 := by decide
    intro n
    have same : Text.hexDigitUpper n = Text.hexDigitUpper (n % 16) := by
      simp only [Text.hexDigitUpper, Nat.mod_mod]
    rw [same]
    exact digits _ (Nat.mod_lt _ (by decide))
  intro c mem
  rw [percentEncode] at mem
  split at mem
  · next plain =>
    -- there are few enough bytes to try them all
    have all : ∀ n < 256, isPlainByte (UInt8.ofNat n) = true → (Char.ofNat n).toNat < 0x80 := by
      decide +kernel
    have small := all b.toNat b.toNat_lt
    rw [UInt8.ofNat_toNat] at small
    rw [List.mem_singleton.1 mem]
    exact small plain
  · rcases List.mem_cons.1 mem with rfl | mem
    · decide
    · simp only [Text.hexFixed, List.nil_append, List.cons_append, List.mem_cons, List.not_mem_nil,
        or_false] at mem
      rcases mem with rfl | rfl
      all_goals exact digit _

/-- The URI of a path has characters of seven bits only. -/
theorem toUri?_ascii {path uri : String} (h : toUri? path = some uri) : ∀ c ∈ uri.toList, c.toNat < 0x80 := by
  have scheme : ∀ c ∈ "file://".toList, c.toNat < 0x80 := by simp
  obtain ⟨p, -, rfl⟩ := Option.map_eq_some_iff.1 h
  generalize "file://" = file at scheme
  intro c mem
  rw [String.toList_append, String.toList_ofList, List.mem_append] at mem
  rcases mem with mem | mem
  · exact scheme c mem
  · obtain ⟨b, -, mem⟩ := List.mem_flatMap.1 mem
    exact percentEncode_ascii b c mem

/-- A path that is spelled canonically comes back from its own URI, if it can be put into one. -/
theorem toUri?_of_canonical {path : List Char}
    (fits : (forward path).head? = some '/' ∨ startsWithDrive (forward path) = true)
    (spelled : canonical path = path) :
    (toUri? (String.ofList path)).bind ofUri? = some (String.ofList path) := by
  have some := (isSome_toUri? (String.ofList path)).2 (by rwa [String.toList_ofList])
  obtain ⟨uri, h⟩ := Option.isSome_iff_exists.1 some
  rw [h, Option.bind_some, ofUri?_of_toUri? h, String.toList_ofList, spelled]

/-- A path that was read from a URI comes back from its own URI, if it has a drive letter or no backslash. -/
theorem toUri?_ofUri? {uri path : String} (h : ofUri? uri = some path)
    (separators : startsWithDrive path.toList = true ∨ '\\' ∉ path.toList) :
    (toUri? path).bind ofUri? = some path := by
  obtain ⟨host, rest, written, -, -, spells, rfl⟩ := ofUri?_eq_some_iff.1 h
  obtain ⟨more, letters⟩ := spells.exists_of_slash
  rw [letters, native_slash] at separators ⊢
  rw [String.toList_ofList] at separators
  -- what was read is spelled canonically
  by_cases drive : startsWithDrive more = true
  · rw [if_pos drive]
    have isDrive : startsWithDrive (backward more) = true := by simpa using drive
    refine toUri?_of_canonical (.inr (by simpa using drive)) ?_
    rw [canonical_of_startsWithDrive isDrive, backward_backward]
  · rw [if_neg drive] at separators ⊢
    -- a path without a drive has no backslash, by hypothesis
    have free : '\\' ∉ '/' :: more := by
      rcases separators with drive | free
      · rw [startsWithDrive_slash] at drive
        cases drive
      · exact free
    have slashes := forward_of_not_mem free
    refine toUri?_of_canonical (.inl (by rw [slashes, List.head?_cons])) ?_
    refine canonical_of_forward slashes (startsWithDrive_slash more) fun rest same => ?_
    obtain rfl := (List.cons.inj same).2
    simpa using drive

/-- Which paths have a URI, what its characters are, and what comes back from it: the canonical spelling of the
path, which is canonical itself. A path that was read from any URI comes back as it is, if it has a drive
letter or no backslash. -/
theorem toUri?_exactly (path : String) :
    ((toUri? path).isSome = true ↔
      (forward path.toList).head? = some '/' ∨ startsWithDrive (forward path.toList) = true) ∧
    (∀ uri, toUri? path = some uri →
      (∀ c ∈ uri.toList, c.toNat < 0x80) ∧ ofUri? uri = some (String.ofList (canonical path.toList))) ∧
    canonical (canonical path.toList) = canonical path.toList ∧
    (∀ uri, ofUri? uri = some path → (startsWithDrive path.toList = true ∨ '\\' ∉ path.toList) →
      (toUri? path).bind ofUri? = some path) :=
  ⟨isSome_toUri? path, fun _ h => ⟨toUri?_ascii h, ofUri?_of_toUri? h⟩, canonical_canonical path.toList,
    fun _ => toUri?_ofUri?⟩

/-- A path with both separators, and what comes back of it. -/
theorem toUri?_exactly_drive :
    toUri? "c:\\my app/a.rs" = some "file:///c:/my%20app/a.rs" ∧
    ofUri? "file:///c:/my%20app/a.rs" = some "c:\\my app\\a.rs" ∧
    (toUri? "c:\\my app\\a.rs").bind ofUri? = some "c:\\my app\\a.rs" := by
  have spelled : toUri? "c:\\my app/a.rs" = some "file:///c:/my%20app/a.rs" := by decide +kernel
  have canonically : String.ofList (canonical "c:\\my app/a.rs".toList) = "c:\\my app\\a.rs" := by decide +kernel
  have back := ((toUri?_exactly "c:\\my app/a.rs").2.1 _ spelled).2
  rw [canonically] at back
  exact ⟨spelled, back, (toUri?_exactly "c:\\my app\\a.rs").2.2.2 _ back (.inl (by decide))⟩

end DebugAdapter.Path
