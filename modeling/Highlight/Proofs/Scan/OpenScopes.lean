import Highlight.Proofs.Arena.Compiled
import Highlight.Proofs.Highlighting.Outcomes
import Highlight.Proofs.Scan.Faults
import Highlight.Proofs.Scan.StepLaws

/-!
# Open modes and open scopes

The modes that are open and the scopes that are open in what has been told go together, whatever a
grammar, a text, a delegate or the modes that a run continues in are like.

* `scopesOf`, `InStep` -- the scopes of the open modes, and that just these are open;
* `inStep_startMode`, `inStep_closeFrames` -- modes open and close;
* `inStep_step`, `inStep_initial`, `inStep_between` -- one step, the beginning, every run;
* `Highlighter.closed_outcome` -- what a run comes to;
* `Highlighter.modes_and_scopes_in_step` -- all of it.
-/

namespace Highlight.Scan

open Highlight.Arena (ArenaMode RuleMatch compileLanguage)
open Highlight.Grammar (HookData HookNote Language)
open Highlight.Token (Event TokenTree openAfter)

variable {s : Scene} {r r' : Run} {t : String} {m : RuleMatch} {name : String}
  {language : Language} {continuation : Option (List Nat)}

/-! ## 1. In step -/

/-- The scopes of open modes, the innermost first, as they are called in the output. -/
def scopesOf (arena : Arena) (frames : List Frame) : List String :=
  frames.filterMap fun f => (arena.mode f.mode).scope.map arena.scopeAlias

/-- **The open modes are modes of the language, and the open scopes are theirs.** -/
structure InStep (s : Scene) (r : Run) : Prop where
  inRange : ∀ f ∈ r.frames, f.mode < s.arena.modes.size
  opened : r.opened = some (scopesOf s.arena r.frames)

theorem InStep.congr (h : InStep s r) (hf : r'.frames = r.frames) (ho : r'.opened = r.opened) :
    InStep s r' where
  inRange := by rw [hf]; exact h.inRange
  opened := by rw [ho, hf]; exact h.opened

/-- The scopes of open modes do not depend on what their hooks keep. -/
theorem scopesOf_congr (arena : Arena) {frames frames' : List Frame}
    (h : frames.map (·.mode) = frames'.map (·.mode)) :
    scopesOf arena frames = scopesOf arena frames' := by
  have hscopes : ∀ fs : List Frame, scopesOf arena fs =
      (fs.map (·.mode)).filterMap fun id => (arena.mode id).scope.map arena.scopeAlias := by
    intro fs
    rw [List.filterMap_map]
    rfl
  rw [hscopes, hscopes, h]

/-- What hooks keep does not matter. -/
theorem InStep.congr_modes (h : InStep s r) (hf : r'.frames.map (·.mode) = r.frames.map (·.mode))
    (ho : r'.opened = r.opened) : InStep s r' where
  inRange := fun f hmem => by
    have hmode : f.mode ∈ r.frames.map (·.mode) := hf ▸ List.mem_map_of_mem hmem
    obtain ⟨g, hg, heq⟩ := List.mem_map.mp hmode
    rw [← heq]
    exact h.inRange g hg
  opened := by rw [ho, h.opened, scopesOf_congr s.arena hf]

theorem InStep.tells (h : InStep s r) (ht : Tells r r' t) : InStep s r' :=
  h.congr ht.frames ht.opened

theorem inStep_passChar (h : InStep s r) (i : Nat) : InStep s (passChar s i r) := h.congr rfl rfl

theorem inStep_turnDown (h : InStep s r) (m : RuleMatch) : InStep s (turnDown s m r) :=
  turnDown_of (inStep_passChar h _) (h.congr rfl rfl)

theorem inStep_flush (h : InStep s r) : (flush s r).Meets (InStep s) (StepFails s) := by
  refine Attempt.meets_mono (meets_flush s r) (fun r' hr' => ?_) fun f hf => stepFails_of_failsBy hf
  obtain ⟨t, ht, _⟩ := hr'
  have h0 : InStep s { r with buffer := "" } := h.congr rfl rfl
  exact h0.tells ht

/-! ## 2. Modes open -/

theorem Run.opened_openMode {opened : List String} (hr : r.opened = some opened) (arena : Arena)
    (mode : ArenaMode) :
    (r.openMode arena mode).opened =
      some ((mode.scope.map arena.scopeAlias).toList ++ opened) := by
  unfold Run.openMode
  cases mode.scope with
  | none => exact hr
  | some label =>
    rw [Run.opened_emit, hr]
    rfl

theorem scopesOf_cons (arena : Arena) (f : Frame) (frames : List Frame) :
    scopesOf arena (f :: frames) =
      ((arena.mode f.mode).scope.map arena.scopeAlias).toList ++ scopesOf arena frames := by
  unfold scopesOf
  rw [List.filterMap_cons]
  cases (arena.mode f.mode).scope <;> rfl

theorem scopesOf_append (arena : Arena) (fs gs : List Frame) :
    scopesOf arena (fs ++ gs) = scopesOf arena fs ++ scopesOf arena gs := List.filterMap_append ..

/-- Opening modes from the outside in opens their scopes, and leaves the frames as they are. -/
theorem opened_openModes (arena : Arena) : ∀ (ids : List Nat) (r : Run) (opened : List String),
    r.opened = some opened →
    (ids.foldl (fun r id => r.openMode arena (arena.mode id)) r).opened =
      some (scopesOf arena (ids.reverse.map fun id => ⟨id, .empty⟩) ++ opened) ∧
    (ids.foldl (fun r id => r.openMode arena (arena.mode id)) r).frames = r.frames
  | [], _, _, hr => ⟨hr, rfl⟩
  | id :: ids, r, opened, hr => by
      have hopen := Run.opened_openMode hr arena (arena.mode id)
      have hframes := r.frames_openMode arena (arena.mode id)
      obtain ⟨h1, h2⟩ := opened_openModes arena ids _ _ hopen
      refine ⟨?_, h2.trans hframes⟩
      have hnil : scopesOf arena [] = [] := rfl
      rw [List.foldl_cons, h1, List.reverse_cons, List.map_append, scopesOf_append,
        List.map_singleton, scopesOf_cons, hnil, List.append_nil, List.append_assoc]

/-- **A mode that opens has its scope opened.** -/
theorem inStep_startMode (h : InStep s r) {id : Nat} (hid : id < s.arena.modes.size)
    (m : RuleMatch) (data : HookData) : InStep s (startMode s id m data r) := by
  have hopen := Run.opened_openMode h.opened s.arena (s.arena.mode id)
  have hframes := r.frames_openMode s.arena (s.arena.mode id)
  -- The label of the delimiter comes and goes between, whichever way it is told.
  have htold : ∀ r1 : Run, r1.frames = (r.openMode s.arena (s.arena.mode id)).frames →
      r1.opened = (r.openMode s.arena (s.arena.mode id)).opened →
      InStep s { r1 with frames := ⟨id, data⟩ :: r1.frames } := by
    intro r1 hf ho
    refine ⟨fun f hf' => ?_, ?_⟩
    · rw [hf, hframes] at hf'
      rcases List.mem_cons.mp hf' with rfl | hf'
      · exact hid
      · exact h.inRange f hf'
    · show r1.opened = some (scopesOf s.arena (⟨id, data⟩ :: r1.frames))
      rw [ho, hopen, hf, hframes, scopesOf_cons]
  unfold startMode
  simp only
  split
  · rename_i label _
    have ht := tells_emitLabelled { r.openMode s.arena (s.arena.mode id) with buffer := "" }
      s.arena (r.openMode s.arena (s.arena.mode id)).buffer label
    exact htold _ ht.frames ht.opened
  · rename_i labels _
    have ht := tells_tellParts s m labels (r.openMode s.arena (s.arena.mode id))
    exact htold { tellParts s m labels (r.openMode s.arena (s.arena.mode id)) with buffer := "" }
      ht.frames ht.opened
  · exact htold _ rfl rfl

theorem inStep_holdBegin (h : InStep s r) (mode : ArenaMode) (lexeme : String) :
    (holdBegin s mode lexeme r).Meets (InStep s) (StepFails s) := by
  have hr : InStep s (if mode.excludeBegin then r.hold lexeme else r) := by
    split
    · exact h.congr rfl rfl
    · exact h
  refine meets_holdBegin (fun _ => h.congr rfl rfl) (fun _ => inStep_flush hr) fun _ r1 hr1 => ?_
  split
  · exact hr1
  · exact hr1.congr rfl rfl

theorem inStep_beginStep (h : InStep s r) {id : Nat} (hid : id < s.arena.modes.size)
    (m : RuleMatch) : (beginStep s id m r).Meets (InStep s) (StepFails s) := by
  exact meets_beginStep (fun _ => inStep_turnDown h m) (meets_askHook? id m _ .inl).2
    (fun _ => inStep_holdBegin h _ _) fun data _ _ hr1 =>
      (inStep_startMode hr1 hid m data).congr rfl rfl

/-! ## 3. Modes close -/

/-- **A mode that closes has its scope closed.** -/
theorem inStep_closeFrame (h : InStep s r) {f : Frame} {rest : List Frame}
    (hf : r.frames = f :: rest) :
    InStep s (closeFrame s.arena f { r with frames := rest }) := by
  have hopened := h.opened
  rw [hf, scopesOf_cons] at hopened
  have hclose : InStep s (({ r with frames := rest } : Run).closeMode (s.arena.mode f.mode)) := by
    unfold Run.closeMode
    cases hscope : (s.arena.mode f.mode).scope with
    | none =>
      rw [hscope] at hopened
      exact ⟨fun g hg => h.inRange g (hf ▸ List.mem_cons_of_mem f hg), hopened⟩
    | some label =>
      rw [hscope] at hopened
      refine ⟨fun g hg => h.inRange g (hf ▸ List.mem_cons_of_mem f hg), ?_⟩
      show (Run.emit _ .closing).opened = _
      rw [Run.opened_emit]
      show r.opened.bind _ = _
      rw [hopened]
      rfl
  exact closeFrame_of hclose fun _ _ h => h.congr rfl rfl

theorem inStep_closeFrames (n : Nat) {ended : Option Nat} (h : InStep s r)
    (he : ∀ id, ended = some id → id < s.arena.modes.size) :
    InStep s (closeFrames s.arena n ended r).2 ∧
      ∀ id, (closeFrames s.arena n ended r).1 = some id → id < s.arena.modes.size := by
  induction n generalizing r ended with
  | zero => exact ⟨h, he⟩
  | succ n ih =>
    unfold closeFrames
    cases hf : r.frames with
    | nil => exact ⟨h, he⟩
    | cons f rest =>
      refine ih (inStep_closeFrame h hf) fun id hid => ?_
      cases hid
      exact h.inRange f (hf ▸ List.mem_cons_self)

theorem inStep_holdEnd (h : InStep s r) (mode : ArenaMode) (m : RuleMatch) :
    (holdEnd s mode m r).Meets (InStep s) (StepFails s) := by
  have hr : InStep s (if mode.returnEnd || mode.excludeEnd then r else r.hold (lexeme s m)) := by
    split
    · exact h
    · exact h.congr rfl rfl
  refine meets_holdEnd (fun _ => inStep_flush h)
    (fun label _ r1 hr1 => hr1.tells (tells_emitLabelled r1 s.arena _ label))
    (fun labels _ r1 hr1 => (hr1.tells (tells_tellParts s m labels r1)).congr rfl rfl)
    (fun _ _ => h.congr rfl rfl) (fun _ _ => inStep_flush hr) fun _ _ r1 hr1 => ?_
  split
  · exact hr1.congr rfl rfl
  · exact hr1

section Compiled

variable (hc : compileLanguage name language = .ok s.arena)

include hc

theorem starts_lt_size {id next : Nat} (hid : id < s.arena.modes.size)
    (h : (s.arena.mode id).starts = some next) : next < s.arena.modes.size :=
  (Arena.made_mode hc hid).starts next h

theorem inStep_endStep (h : InStep s r) (m : RuleMatch) :
    (endStep s m r).Meets (InStep s) (StepFails s) := by
  have hasked : ∀ {frames : List Frame}, frames.map (·.mode) = r.frames.map (·.mode) →
      InStep s { r with frames } := fun hmodes => h.congr_modes hmodes rfl
  have hnone : ∀ id, (none : Option Nat) = some id → id < s.arena.modes.size :=
    fun _ hid => by cases hid
  refine meets_endStep (meets_endOf s m r.frames) (fun frames ha => inStep_passChar (hasked ha.1) _)
    (fun n frames ha => inStep_holdEnd (hasked ha.1) _ m)
    (fun n _ _ _ hr1 _ => (inStep_closeFrames n hr1 hnone).1.congr rfl rfl)
    fun n frames r1 next _ hr1 hnext => ?_
  obtain ⟨hclosed, hended⟩ := inStep_closeFrames n hr1 hnone
  obtain ⟨id, hid, hstarts⟩ := Option.bind_eq_some_iff.mp hnext
  have hnext' := starts_lt_size hc (hended id hid) hstarts
  exact (inStep_startMode hclosed hnext' m .empty).congr rfl rfl

/-- The innermost open mode is one of the language. -/
theorem topId_lt_size (h : InStep s r) : s.topId r.frames < s.arena.modes.size := by
  unfold Scene.topId
  split
  · exact (Arena.made_of_compileLanguage hc).1
  · rename_i f rest hf
    exact h.inRange f (hf ▸ List.mem_cons_self)

/-! ## 4. Runs -/

/-- **One step keeps open modes and open scopes in step.** -/
theorem inStep_step (h : InStep s r)
    (hm : ∀ id, m.kind = .begins id → id < s.arena.modes.size) :
    (step s m r).Meets (InStep s) (StepFails s) := by
  have hr : InStep s (r.hold (s.text.slice r.index m.span.start)) := h.congr rfl rfl
  have hmet : InStep s (r.meet s m) := h.congr rfl rfl
  exact meets_step (inStep_passChar hr _) (.zeroWidth _)
    (fun id hid => inStep_beginStep hmet (hm id hid) m) (fun _ => inStep_endStep hc hmet m)
    (fun _ => passIllegal_of (inStep_passChar hmet _) (hmet.congr rfl rfl)) (.illegal _ _ _)

/-- What is looked up in a run that is in step is of a mode of the language. -/
theorem begins_lt_size (h : InStep s r) {first : Nat} (hl : lookUp s r = .ok (some m, first))
    {id : Nat} (hk : m.kind = .begins id) : id < s.arena.modes.size := by
  obtain ⟨rule, hrule, hkind⟩ := (Arena.finds_next hl).kind
  exact (Arena.made_mode hc (topId_lt_size hc h)).begins hrule (by rw [hkind, hk])

theorem isValidStack_startStack (continuation : Option (List Nat)) :
    s.arena.isValidStack (startStack s.arena continuation) = true := by
  have hroot : s.arena.isValidStack [s.arena.root] = true := by
    have := (Arena.made_of_compileLanguage hc).1
    simp [Arena.isValidStack, this]
  unfold startStack
  split
  · split
    · rename_i h
      exact h
    · exact hroot
  · exact hroot

/-- **A run begins in step**, wherever an earlier one has stopped. -/
theorem inStep_initial (continuation : Option (List Nat)) :
    InStep s (initial s.arena continuation) := by
  have hvalid := isValidStack_startStack hc continuation
  unfold initial
  generalize startStack s.arena continuation = stack at hvalid ⊢
  obtain ⟨h1, h2⟩ := opened_openModes s.arena (stack.drop 1)
    { frames := framesOf stack, buffer := "", events := [], relevance := 0, hits := .empty,
      blocks := .empty, index := 0, firstRule := 0, resumes := false, last := none } [] rfl
  unfold startIn
  refine ⟨?_, ?_⟩
  · rw [h2]
    intro f hf
    obtain ⟨id, hid, rfl⟩ := List.mem_map.mp hf
    have hall := (Bool.and_eq_true_iff.mp hvalid).2
    have hmem : id ∈ stack := List.mem_of_mem_drop (List.mem_reverse.mp hid)
    simpa using List.all_eq_true.mp hall id hmem
  · rw [h1, h2, List.append_nil]
    rfl

/-- **Open modes and open scopes are in step whenever a step is handled**, up to the last one. -/
theorem inStep_between (h : Between s continuation r) : InStep s r := by
  have hturn : ∀ {r r' : Run} {m : RuleMatch} {first : Nat} {notes : List HookNote}, InStep s r →
      lookUp s r = .ok (some m, first) → step s m (r.atRule first) = ⟨notes, .ok r'⟩ →
      InStep s r' := by
    intro r r' m first notes hr hl hstep
    have hrule : InStep s (r.atRule first) := hr.congr rfl rfl
    have hmeets := inStep_step hc hrule fun id hk => begins_lt_size hc hr hl hk
    exact hmeets.1 r' (by rw [hstep])
  have hreached : ∀ {n : Nat} {r : Run}, Reached s continuation n r → InStep s r := by
    intro n r hr
    refine invariant (inStep_initial hc continuation) (fun {steps r notes r'} hr hnext => ?_) hr
    obtain ⟨m, first, hl, hstep, _⟩ := turn_next hnext
    exact hturn hr hl hstep
  rcases h with ⟨n, h⟩ | ⟨n, r0, notes, h, hlast⟩
  · exact hreached h
  · rcases turn_last hlast with ⟨first, _, _, rfl⟩ | ⟨m, first, hl, hstep, _⟩
    · exact (hreached h).congr rfl rfl
    · exact hturn (hreached h) hl hstep

/-- The open modes of a run that is in step can be the open modes of the language. -/
theorem isValidStack_of_inStep (h : InStep s r) :
    s.arena.isValidStack (s.stack r.frames) = true := by
  have hroot := (Arena.made_of_compileLanguage hc).1
  unfold Arena.isValidStack Scene.stack
  simp only [List.head?_cons, beq_self_eq_true, Bool.true_and, List.all_cons, List.all_reverse,
    List.all_map, Bool.and_eq_true, decide_eq_true_eq, List.all_eq_true]
  exact ⟨hroot, fun f hf => by simpa using h.inRange f hf⟩

/-- What a whole run comes to: its open modes can be those of the language, a completed run has
    nothing open, and no run has closed a scope with none open. -/
structure EndsInStep (s : Scene) (scanned : Scanned) : Prop where
  valid : s.arena.isValidStack (s.stack scanned.frames) = true
  completed : scanned.fault = none → openAfter [] scanned.events = some []
  opened : ∃ opened, openAfter [] scanned.events = some opened

/-- **Every whole run ends with open modes and open scopes in step.** -/
theorem endsInStep_scanAll (continuation : Option (List Nat)) :
    EndsInStep s (scanAll s continuation) := by
  have hends := ends_scanAll s continuation
  generalize scanAll s continuation = scanned at hends ⊢
  cases hends with
  | broken notes hr hturn =>
    have hin := inStep_between hc (.inl ⟨_, hr⟩)
    exact ⟨isValidStack_of_inStep hc hin, (fun h => by cases h), ⟨_, hin.opened⟩⟩
  | completed notes hr hturn =>
    rename_i n r0 r1 more
    have hin : InStep s r1 := inStep_between hc (.inr ⟨_, _, _, hr, hturn⟩)
    have hheld : InStep s (r1.hold (s.text.slice r1.index s.text.size)) := hin.congr rfl rfl
    have hflush := inStep_flush hheld
    unfold complete
    simp only
    split
    · rename_i more2 r2 hflushed
      have hin2 : InStep s r2 := hflush.1 r2 (by rw [hflushed])
      have hfinish : openAfter [] (Event.finish :: r2.events).reverse = some [] := by
        show (r2.emit .finish).opened = some []
        rw [Run.opened_emit, hin2.opened]
        rfl
      exact ⟨isValidStack_of_inStep hc hin2, fun _ => hfinish, ⟨_, hfinish⟩⟩
    · exact ⟨isValidStack_of_inStep hc hin, (fun h => by cases h), ⟨_, hin.opened⟩⟩

/-- **How a run can fail**: a tail of rules cannot be merged, the run makes no headway, or a step
    fails. -/
theorem fault_scanAll {f : Fault} (h : (scanAll s continuation).fault = some f) :
    (∃ id k cause, k < (s.arena.mode id).rules.size ∧
      (s.arena.mode id).rules.mergedFrom k = .error cause ∧ f = .unplaced cause) ∨
    LosesHeadway s continuation f ∨ StepFails s f := by
  have hends := ends_scanAll s continuation
  generalize scanAll s continuation = scanned at hends h
  cases hends with
  | broken notes hr hturn =>
    cases h
    have hin := inStep_between hc (.inl ⟨_, hr⟩)
    rcases turn_broken hturn with ⟨cause, hl, rfl⟩ | ⟨m, first, hl, hlacks, rfl⟩ |
      ⟨m, first, hl, hstep⟩
    · obtain ⟨k, hk, hmerge⟩ := Arena.next_error hl
      exact .inl ⟨_, k, cause, hk, hmerge, rfl⟩
    · exact .inr (.inl (.stopped hr hl hlacks))
    · rename_i n r1 more
      have hrule : InStep s (r1.atRule first) := hin.congr rfl rfl
      have hmeets := inStep_step hc hrule fun id hk => begins_lt_size hc hin hl hk
      exact .inr (.inr (hmeets.2 _ (by rw [hstep])))
  | completed notes hr hturn =>
    rename_i n r0 r1 more
    have hin : InStep s r1 := inStep_between hc (.inr ⟨_, _, _, hr, hturn⟩)
    have hheld : InStep s (r1.hold (s.text.slice r1.index s.text.size)) := hin.congr rfl rfl
    unfold complete at h
    simp only at h
    split at h
    · cases h
    · rename_i more2 f2 hflushed
      cases h
      exact .inr (.inr ((inStep_flush hheld).2 _ (by rw [hflushed])))

end Compiled

end Highlight.Scan

namespace Highlight.Highlighter

open Highlight.Arena (compileLanguage)
open Highlight.Grammar (Language)
open Highlight.Scan (Between endOf scopesOf)
open Highlight.Token (TokenTree openAfter)

variable {name : String} {language : Language} {arena : Arena}

/-! ## 5. Outcomes -/

/-- **What a run in a compiled language comes to** has modes that can be open, and nothing is open
    any more, whether the run was completed or recovered. -/
theorem closed_outcome (hc : compileLanguage name language = .ok arena) (h : Highlighter)
    (delegate : Scan.Delegate) (code : String) (ignoreIllegals : Bool)
    (continuation : Option (List Nat)) {o : Outcome}
    (ho : (h.runArena delegate arena code ignoreIllegals continuation).result = .ok o) :
    arena.isValidStack o.top = true ∧ openAfter [] o.events = some [] := by
  have hscene : compileLanguage name language =
      .ok (h.sceneOf delegate arena code ignoreIllegals).arena := hc
  have hends := Scan.endsInStep_scanAll hscene continuation
  obtain ⟨htop, ⟨hfault, _, hevents⟩ | ⟨f, hfault, _, _, _, hevents, _⟩⟩ := runArena_ok ho
  · rw [htop, hevents]
    exact ⟨hends.valid, hends.completed hfault⟩
  · rw [htop, hevents]
    obtain ⟨opened, hopened⟩ := hends.opened
    refine ⟨hends.valid, ?_⟩
    rw [Token.openAfter_append, hopened]
    rfl

/-- **Open modes and open scopes stay in step.** At every point between the steps of a run the open
    modes begin with the root and are modes of the language, the open scopes are theirs, in order,
    and no end closes more modes than are open inside the root. What a run comes to has nothing open
    any more. -/
theorem modes_and_scopes_in_step (hc : compileLanguage name language = .ok arena) (h : Highlighter)
    (delegate : Scan.Delegate) (code : String) (ignoreIllegals : Bool)
    (continuation : Option (List Nat)) :
    (∀ r, Between (h.sceneOf delegate arena code ignoreIllegals) continuation r →
      arena.isValidStack ((h.sceneOf delegate arena code ignoreIllegals).stack r.frames) = true ∧
      openAfter [] r.events.reverse = some (scopesOf arena r.frames) ∧
      (TokenTree.ofEvents r.events.reverse).labels = scopesOf arena r.frames ∧
      ∀ m n frames, (endOf (h.sceneOf delegate arena code ignoreIllegals) m r.frames).result =
        .ok (some n, frames) → n ≤ r.frames.length) ∧
    ∀ o, (h.runArena delegate arena code ignoreIllegals continuation).result = .ok o →
      arena.isValidStack o.top = true ∧ openAfter [] o.events = some [] ∧
      (TokenTree.ofEvents o.events).labels = [] := by
  have hscene : compileLanguage name language =
      .ok (h.sceneOf delegate arena code ignoreIllegals).arena := hc
  refine ⟨fun r hr => ?_, fun o ho => ?_⟩
  · have hin := Scan.inStep_between hscene hr
    refine ⟨Scan.isValidStack_of_inStep hscene hin, hin.opened, ?_, fun m n frames hend => ?_⟩
    · exact TokenTree.labels_applyAll .empty r.events.reverse hin.opened
    · exact ((Scan.meets_endOf _ m r.frames).1 _ hend).2 n rfl
  · obtain ⟨hvalid, hopened⟩ := closed_outcome hc h delegate code ignoreIllegals continuation ho
    exact ⟨hvalid, hopened, TokenTree.labels_applyAll .empty o.events hopened⟩

/-- A language of texts in quotes, in which a backslash and the character after it go together. -/
def quotedLanguage : Language where
  mode := {
    contains := some [.mode ⟨[("text", 0)], {
      scope := some (.single "string")
      beginPattern := some (.single "\"")
      endPattern := some (.single "\"")
      contains := some [.mode ⟨[("escape", 0)], {
        scope := some (.single "char.escape")
        matchPattern := some (.single "\\\\.") }⟩] }⟩] }

/-- A run in the language of texts in quotes is in step, though a text in it is not closed. -/
theorem quoted_in_step : ∃ arena, compileLanguage "quoted" quotedLanguage = .ok arena ∧
    ∀ r, Between ((new {}).sceneOf ((new {}).delegateTo ((new {}).runAt 0)) arena "a \"b\\\"c"
        false) none r →
      openAfter [] r.events.reverse = some (scopesOf arena r.frames) := by
  have hcompiles : (compileLanguage "quoted" quotedLanguage).isOk = true := by decide +kernel
  cases h : compileLanguage "quoted" quotedLanguage with
  | error f =>
    rw [h] at hcompiles
    cases hcompiles
  | ok arena =>
    refine ⟨arena, rfl, fun r hr => ?_⟩
    have hin := modes_and_scopes_in_step h (new {}) ((new {}).delegateTo ((new {}).runAt 0))
      "a \"b\\\"c" false none
    exact (hin.1 r hr).2.1

end Highlight.Highlighter
