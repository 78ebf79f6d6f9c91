import DebugAdapter.Proofs.InspectedSessions
import DebugAdapter.Proofs.ScriptedDebuggee
import DebugAdapter.Proofs.SettingsOrder
import DebugAdapter.Proofs.SourceRoundTrip
import Mathlib.Data.List.Forall2

/-!
# Pages of a stack

A client that asks for the stack of a stopped thread page by page, until a page is empty, has seen the frames
that it is shown when it asks for all of them at once: the same ones in the same order. It may look at scopes,
variables and values in between. For this, the thread has to be one that the engine can select, and what the
engine tells of its stack has to be the same each time.

## Key results

- `flatMap_pages`: the pages of a list up to an empty one
- `Session.PagesOf.of_shown`: what the answers to requests for pages have in common
- `Session.stack_pages`: the pages of a stack
-/

namespace DebugAdapter

/-! ## Pages of a list -/

section

variable {α β : Type} {start levels : Option Int} {l : List α}

/-- Without a start and a number, all is on the page. -/
theorem page_none (l : List α) : page none none l = l :=
  rfl

/-- A page of what is shown is what is shown of the page. -/
theorem map_page (f : α → β) : (page start levels l).map f = page start levels (l.map f) := by
  unfold page
  dsimp only
  split <;> simp only [List.map_take, List.map_drop]

/-- A page that begins before the first frame begins with that. -/
theorem page_of_start_le {n : Int} (before : n ≤ 0) : page (some n) levels l = page (some 0) levels l := by
  have first : n.toNat = (0 : Int).toNat := by omega
  unfold page
  rw [Option.getD_some, Option.getD_some, first]

/-- A page of no frames goes on to the end. -/
theorem page_of_levels_le {n : Int} (none : n ≤ 0) : page start (some n) l = page start Option.none l := by
  have filtered : (some n).filter (0 < ·) = Option.none := Option.filter_some_neg (by simpa using none)
  rw [page, filtered]
  rfl

/-- A page with a start and a number is what lies there. -/
theorem page_eq_take_drop (i : Nat) {k : Nat} (pos : 1 ≤ k) :
    page (some (i : Int)) (some (k : Int)) l = (l.drop i).take k := by
  have filtered : (some (k : Int)).filter (0 < ·) = some (k : Int) :=
    Option.filter_some_pos (decide_eq_true (by omega))
  rw [page, filtered]
  rfl

/-- A page behind the last frame is empty. -/
theorem page_eq_nil {n : Int} (behind : l.length ≤ n) : page (some n) levels l = [] := by
  have none : l.drop n.toNat = [] := List.drop_eq_nil_of_le (by omega)
  unfold page
  rw [Option.getD_some, none]
  split
  · exact List.take_nil
  · rfl

/-- Pages that follow each other show a part of the list. -/
private theorem flatMap_pages_from {γ : Type} {k : Nat} (pos : 1 ≤ k) {f : γ → List α} {pages : List γ} (n : Nat)
    (paged : ∀ i p, pages[i]? = some p → f p = page (some (((n + i) * k : Nat) : Int)) (some (k : Int)) l) :
    pages.flatMap f = (l.drop (n * k)).take (pages.length * k) := by
  induction pages generalizing n with
  | nil => simp
  | cons p pages ih =>
    have first : f p = (l.drop (n * k)).take k := (paged 0 p rfl).trans (page_eq_take_drop _ pos)
    have rest : pages.flatMap f = (l.drop ((n + 1) * k)).take (pages.length * k) := by
      refine ih (n + 1) fun i q found => ?_
      rw [Nat.add_assoc, Nat.add_comm 1 i]
      exact paged (i + 1) q found
    have steps : (pages.length + 1) * k = k + pages.length * k := by rw [Nat.succ_mul, Nat.add_comm]
    rw [List.flatMap_cons, first, rest, List.length_cons, steps, List.take_add, List.drop_drop, Nat.succ_mul]

/-- Pages that follow each other, up to an empty one, show the whole list. -/
theorem flatMap_pages {γ : Type} {k : Nat} (pos : 1 ≤ k) {f : γ → List α} {pages : List γ}
    (paged : ∀ i p, pages[i]? = some p → f p = page (some ((i * k : Nat) : Int)) (some (k : Int)) l)
    {last : γ} (ends : pages.getLast? = some last) (empty : f last = []) : pages.flatMap f = l := by
  have shown : pages.flatMap f = (l.drop (0 * k)).take (pages.length * k) :=
    flatMap_pages_from pos 0 fun i p found => by
      rw [Nat.zero_add]
      exact paged i p found
  -- the last page is empty, so it begins behind the end of the list
  rw [List.getLast?_eq_getElem?] at ends
  rw [paged _ last ends, page_eq_take_drop _ pos] at empty
  have behind : l.length ≤ (pages.length - 1) * k := by
    rcases List.take_eq_nil_iff.1 empty with none | none
    · omega
    · exact List.drop_eq_nil_iff.1 none
  have more : (pages.length - 1) * k ≤ pages.length * k := Nat.mul_le_mul_right k (Nat.sub_le _ 1)
  rw [shown, Nat.zero_mul, List.drop_zero, List.take_of_length_le (Nat.le_trans behind more)]

end

/-! ## What a client reads -/

namespace Message

/-- A member of the body of a response. -/
def member? (name : String) : Message → Option Json
  | response a => a.body.bind (·.member? name)
  | event _ => none

/-- The frames that a response shows. -/
def stackFrames (m : Message) : List Json :=
  ((m.member? "stackFrames").bind Json.toList?).getD []

variable (r : Request) (shown : List Json) (total : Nat)

/-- The frames of an answer are read back. -/
theorem stackFrames_stackBody :
    (Message.response (.success r (some (Session.stackBody shown total)))).stackFrames = shown := by
  simp [stackFrames, member?, Response.success, Session.stackBody, Json.member?_object, Json.toList?]

/-- The number of frames of an answer is read back. -/
theorem totalFrames_stackBody :
    (Message.response (.success r (some (Session.stackBody shown total)))).member? "totalFrames" =
      some (.int total) := by
  simp [member?, Response.success, Session.stackBody, Json.member?_object]

end Message

namespace Session

/-- Among requests with their answers, those for the stack of a thread are answered by pages of these
frames. -/
structure PagesOf (thread : UInt32) (frames : List Json) (answered : List (Request × Message)) : Prop where
  /-- All of them tell the same number of frames. -/
  total : ∀ p ∈ answered, p.1.Lists thread → p.2.member? "totalFrames" = some (.int frames.length)
  /-- A request that does not tell of a page is answered by all frames. -/
  whole : ∀ p ∈ answered, p.1.Lists thread → p.1.int? "startFrame" = none → p.1.int? "levels" = none →
    p.2.stackFrames = frames
  /-- Pages that follow each other, up to an empty one, show all frames. -/
  concat : ∀ (k : Nat), 1 ≤ k → ∀ pages : List (Request × Message), pages.Sublist answered →
    (∀ (i : Nat) p, pages[i]? = some p → p.1.Lists thread ∧ p.1.int? "startFrame" = some ((i * k : Nat) : Int) ∧
      p.1.int? "levels" = some (k : Int)) →
    ∀ last, pages.getLast? = some last → last.2.stackFrames = [] →
    pages.flatMap (·.2.stackFrames) = frames
  /-- A page behind the last frame is empty. -/
  ends : ∀ p ∈ answered, p.1.Lists thread → ∀ n, p.1.int? "startFrame" = some n → frames.length ≤ n →
    p.2.stackFrames = []
  /-- A page that begins before the first frame begins with that. -/
  first : ∀ p ∈ answered, p.1.Lists thread → ∀ n, p.1.int? "startFrame" = some n → n ≤ 0 →
    p.2.stackFrames = page (some 0) (p.1.int? "levels") frames
  /-- A page of no frames goes on to the end. -/
  toEnd : ∀ p ∈ answered, p.1.Lists thread → ∀ n, p.1.int? "levels" = some n → n ≤ 0 →
    p.2.stackFrames = page (p.1.int? "startFrame") none frames

/-- Answers that show pages of one stack are pages of it. -/
theorem PagesOf.of_shown {thread : UInt32} {frames : List Json} {answered : List (Request × Message)}
    (shown : ∀ p ∈ answered, p.1.Lists thread →
      p.2 = .response (.success p.1 (some (stackBody (p.1.page frames) frames.length)))) :
    PagesOf thread frames answered := by
  -- what is shown in an answer is a page
  have shows : ∀ p ∈ answered, p.1.Lists thread → p.2.stackFrames = p.1.page frames := by
    intro p mem lists
    rw [shown p mem lists]
    exact Message.stackFrames_stackBody ..
  -- each part is about one answer, but for the third, where the pages are put together
  refine ⟨?_, ?_, ?_, ?_, ?_, ?_⟩
  · intro p mem lists
    rw [shown p mem lists]
    exact Message.totalFrames_stackBody ..
  · intro p mem lists start levels
    rw [shows p mem lists, Request.page, start, levels, page_none]
  · intro k pos pages sub paged last isLast empty
    refine flatMap_pages pos (fun i p found => ?_) isLast empty
    obtain ⟨lists, start, levels⟩ := paged i p found
    rw [shows p (sub.subset (List.mem_of_getElem? found)) lists, Request.page, start, levels]
  · intro p mem lists n start behind
    rw [shows p mem lists, Request.page, start, page_eq_nil behind]
  · intro p mem lists n start before
    rw [shows p mem lists, Request.page, start, page_of_start_le before]
  · intro p mem lists n levels none
    rw [shows p mem lists, Request.page, levels, page_of_levels_le none]

variable {σ : Type} [Engine σ]

/-- A debuggee is stopped, and the engine tells the same stack of a thread each time. Then requests for the
stack of the thread, among which there may be requests for scopes, variables and values, are all answered,
however the threads of the session are scheduled, as long as each of them makes steps again and again. Those
for the stack are answered by pages of one list of frames, which is empty only if the engine has none to
tell. -/
theorem stack_pages {K : σ → Prop} {thread : UInt32} {maxFrames : Nat}
    {stack : Except EngineError (List NativeFrame)} (law : Engine.StandsStill K thread maxFrames stack)
    {t : Session} (on : t.started = true) (quiet : t.deferred = []) {s : System σ} {told : List Message}
    (stopped : s.Looked K thread maxFrames stack none told) {requests : List Request}
    (asks : ∀ r ∈ requests, r.Lists thread ∨ r.Looks) :
    (∀ f, SessionThread.Fair f →
      ∃ n, ((handled [] t s requests).after f n).program.isDone = true) ∧
    ∀ schedule s' t', handled schedule t s requests = ⟨s', .done (⟨⟩, t')⟩ →
      ∃ frames answers, s'.outbox.messages.filter Message.isAnswer = told ++ answers ∧
        List.Forall₂ (fun r m => m.RespondsTo r) requests answers ∧
        PagesOf thread (frames.map t.frameJson) (requests.zip answers) ∧
        (frames = [] → (∃ r ∈ requests, r.Lists thread) → stack.toOption.getD [] = []) := by
  have does : Does (At t (System.Looked K thread maxFrames stack none told)) (requests.forM handle) _ :=
    does_requests law on quiet asks
  have start : At t (System.Looked K thread maxFrames stack none told) t s := ⟨rfl, stopped⟩
  refine ⟨fun f fair => SessionRun.exists_done fair (does.proceeds t s start), ?_⟩
  intro schedule s' t' done
  -- what holds at the end holds under every schedule
  have after := SessionRun.yields_run (r := ⟨s, (requests.forM handle).run t⟩) (fun p =>
    .ofExists fun q => (stable_at (System.stable_looked law) p.2).and_const _) (does.gives t s start) schedule
  rw [handled] at done
  rw [done] at after
  -- the frames that are known at the end are those that each answer showed a page of
  obtain ⟨⟨frames?, answers⟩, ⟨-, shows⟩, -, looked⟩ := after
  have answered : ∀ p ∈ requests.zip answers, p.1.Lists thread → ∃ frames, frames? = some frames ∧
      p.2 = .response (.success p.1 (some (stackBody ((p.1.page frames).map t.frameJson) frames.length))) :=
    fun p mem => (List.forall₂_zip shows mem).page_eq
  refine ⟨frames?.getD [], answers, looked.rest.answers_eq, shows.imp fun _ _ h => h.responds, ?_, ?_⟩
  · refine .of_shown fun p mem lists => ?_
    obtain ⟨frames, rfl, shown⟩ := answered p mem lists
    rw [shown, Request.page, Request.page, map_page, List.length_map]
    rfl
  · -- no frames are listed only where the engine has none
    rintro none ⟨r, asked, lists⟩
    rw [← List.map_fst_zip (Nat.le_of_eq shows.length_eq)] at asked
    obtain ⟨p, mem, rfl⟩ := List.mem_map.1 asked
    obtain ⟨frames, rfl, -⟩ := answered p mem lists
    obtain ⟨g, -, resting⟩ := looked.gateway
    exact resting.worker.none (congrArg some none)

end Session

/-! ## A scripted debuggee that is stopped -/

namespace Scripted.World

/-- The debuggee is stopped, with the threads and stacks of another world, and no call fails. -/
structure Paused (w₀ w : World) : Prop where
  silent : w.failures = []
  status_eq : w.status = .stopped
  threads_eq : w.threads = w₀.threads
  callStacks_eq : w.callStacks = w₀.callStacks

/-- The stack of a thread. -/
def stackOf (w : World) (thread : UInt32) : List NativeFrame :=
  ((w.callStacks.find? (·.1 == thread)).map (·.2)).getD []

variable {w₀ w : World} {thread : UInt32}

/-- Calls leave a paused debuggee as it is. -/
private theorem callFrame_paused (w₀ : World) : CallFrame (Paused w₀) where
  log _ _ h := { h with }
  typeNameCalls _ _ h := { h with }
  memory _ _ h := { h with }
  currentThread _ _ h := { h with }
  frameIndex _ _ h := { h with }
  groups _ _ h := { h with }

/-- A paused debuggee has no failures scripted. -/
private theorem Paused.find?_failures (h : w₀.Paused w) (name : String) :
    w.failures.find? (·.1 == name) = none := by
  rw [h.silent]
  rfl

/-- A thread that there is can be selected. -/
private theorem Paused.choose (h : w₀.Paused w) (known : thread ∈ w₀.threads) :
    ∃ w', (Engine.choose (σ := World) thread).call w = (.ok (), w') ∧ w₀.Paused w' ∧
      w'.currentThread = thread := by
  have asked : (Engine.currentThread (σ := World)).call w = (.ok w.currentThread, w) :=
    call_asking_silent (h.find?_failures _) _
  rw [Engine.call_choose, asked]
  dsimp only
  split
  · let w' := w.log (.setCurrentThread thread)
    have there : w.threads.contains thread = true := by
      rw [h.threads_eq]
      exact List.contains_iff_mem.2 known
    have set : (Engine.setCurrentThread (σ := World) thread).call w =
        (.ok (), { w' with currentThread := thread }) := by
      refine (call_recorded_silent (h.find?_failures _) _ _).trans ?_
      refine (call_changing_unless (fun w => (!w.threads.contains thread) = true) _ _ _).trans (if_neg ?_)
      rw [log, there]
      decide
    exact ⟨_, set, { h with }, rfl⟩
  · -- the thread is the current one already
    next same => exact ⟨w, rfl, h, not_not.1 same⟩

/-- A scripted debuggee that is stopped stands still. -/
theorem standsStill (known : thread ∈ w₀.threads) (maxFrames : Nat) :
    Engine.StandsStill w₀.Paused thread maxFrames (.ok ((w₀.stackOf thread).take maxFrames)) where
  inspecting inspects w h := (callFrame_paused w₀).inspectingCall inspects w h
  scopeSymbolGroup kind previous w h := (callFrame_paused w₀).scopeSymbolGroup kind previous w h
  -- an engine that is silent on failures answers what it is asked
  status := by
    intro w h status answer
    have asked : (Engine.executionStatus (σ := World)).call w = (.ok w.status, w) :=
      call_asking_silent (h.find?_failures _) _
    rw [asked] at answer
    cases answer
    rw [h.status_eq]
    rfl
  selects := by
    intro w h
    obtain ⟨w', chosen, -, -⟩ := h.choose known
    rw [chosen]
  stack_eq := by
    intro w h
    -- once the thread is chosen, its stack is told
    obtain ⟨w', chosen, h', current⟩ := h.choose known
    rw [chosen]
    have told : (Engine.stackTrace (σ := World) maxFrames).call w' =
        (.ok ((w'.stackOf w'.currentThread).take maxFrames), w') :=
      call_asking_silent (h'.find?_failures _) _
    rw [told, current, stackOf, stackOf, h'.callStacks_eq]

end Scripted.World

namespace Session

/-- A debuggee that is stopped three calls deep, with a local variable. -/
def nested : Scripted.World where
  status := .stopped
  callStacks := [(1, [⟨0x1000, 0⟩, ⟨0x2000, 1⟩, ⟨0x3000, 2⟩])]
  symbols := [("Locals", [some ⟨"x", "i32", "7", 0, 0, 0, none, 0⟩])]

/-- The session of this debuggee, of which nothing is asked. -/
def stoppedDeep : System Scripted.World where
  provider := Scripted.provider
  state := .stopped
  native := {}
  gateway := some { worker := { session := { engine := nested } }, phase := .ready }

/-- A request for the stack, or a part of it. -/
def stackRequest (part : List (String × Json)) : Request :=
  ⟨1, "request", "stackTrace", .object (("threadId", .int 1) :: part)⟩

/-- The stack is asked for in pages of two frames, and then as a whole. In between, the client looks at the
scopes of the innermost frame, at the variables of one of them, and at a value. -/
def pageRequests : List Request :=
  [stackRequest [("startFrame", .int 0), ("levels", .int 2)],
    ⟨2, "request", "scopes", .object [("frameId", .int 2)]⟩,
    ⟨3, "request", "variables", .object [("variablesReference", .int 5)]⟩,
    stackRequest [("startFrame", .int 2), ("levels", .int 2)],
    ⟨4, "request", "evaluate", .object [("expression", .str "1"), ("frameId", .int 2)]⟩,
    stackRequest [("startFrame", .int 4), ("levels", .int 2)],
    stackRequest []]

/-- The session in which they are handled, while the threads take turns. -/
def paging : SessionRun Scripted.World (PUnit × Session) :=
  handled (List.replicate 40 [.requests, .engine, .forwarder]).flatten { byPaths with started := true }
    stoppedDeep pageRequests

/-- Two pages and an empty one show the three frames of the whole stack. -/
theorem stack_pages_nested :
    (paging.program.isDone = true ∧
      (paging.system.outbox.messages.filter Message.isAnswer).map (·.stackFrames.length) =
        [2, 0, 0, 1, 0, 0, 3]) ∧
    ∃ frames, frames ≠ [] ∧
      PagesOf 1 frames (pageRequests.zip (paging.system.outbox.messages.filter Message.isAnswer)) := by
  have isDone : paging.program.isDone = true := by decide +kernel
  obtain ⟨t', done⟩ : ∃ t', paging = ⟨paging.system, .done (⟨⟩, t')⟩ := by
    generalize paging = r at isDone
    obtain ⟨s, p⟩ := r
    cases p with
    | done result => exact ⟨result.2, rfl⟩
    | act a next => cases isDone
  -- a scripted engine that is not let run stands still
  have law : Engine.StandsStill nested.Paused 1 ({} : GatewayOptions).maxFrames
      (.ok ((nested.stackOf 1).take ({} : GatewayOptions).maxFrames)) :=
    Scripted.World.standsStill (by decide) _
  -- the session starts with an empty store and nothing asked
  have stopped : stoppedDeep.Looked nested.Paused 1 ({} : GatewayOptions).maxFrames
      (.ok ((nested.stackOf 1).take ({} : GatewayOptions).maxFrames)) none [] := by
    refine ⟨⟨_, rfl, ?_, trivial, rfl, rfl, fun _ mem => absurd mem List.not_mem_nil, Nat.le_refl 0⟩, trivial, rfl⟩
    exact
      { engine := ⟨rfl, rfl, rfl, rfl⟩
        consistent := Store.consistent_empty
        goesOn := rfl
        unexited := fun _ => List.not_mem_nil
        maxFrames_eq := rfl
        known := fun _ known => by cases known
        none := fun known => by cases known }
  have asks : ∀ r ∈ pageRequests, r.Lists 1 ∨ r.Looks := by decide +kernel
  have lists : ∃ r ∈ pageRequests, r.Lists 1 := by decide +kernel
  obtain ⟨frames, answers, same, -, pages, listed⟩ :=
    (stack_pages law (t := { byPaths with started := true }) rfl rfl stopped asks).2 _ _ _ done
  rw [List.nil_append] at same
  rw [same]
  refine ⟨⟨isDone, ?_⟩, _, fun none => ?_, pages⟩
  · rw [← same]
    decide +kernel
  · have empty := listed (List.map_eq_nil_iff.1 none) lists
    revert empty
    decide

end Session

end DebugAdapter
