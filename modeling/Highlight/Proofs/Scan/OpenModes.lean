import Highlight.Proofs.Arena.Terminators
import Highlight.Proofs.Scan.OpenScopes
import Mathlib.Data.List.Chain

/-!
# Which modes are open

A step opens a mode, or closes some and perhaps starts another one in their place. So every open mode
follows the one around it, and what ends that one ends it too if it ends with its parent.

* `Moves` -- how a step changes which modes are open;
* `moves_step` -- every step does just that;
* `Linked` -- every open mode follows the one around it;
* `StackReached`, `linked_of_reached` -- so it is in every run, also in one that goes on where another
  one has stopped;
* `ends_with_parent_unless_started` -- what ends the mode around another one ends that one;
* `tail_misses_end` -- it need not end one that was started inside itself.
-/

namespace Highlight.Scan

open Highlight.Arena (ArenaMode Follows IsAlternative RuleMatch Starts compileLanguage)
open Highlight.Grammar (HookData HookNote Language)
open Highlight.Highlighter (passes exists_of_passes)
open Relation (TransGen)

variable {s : Scene} {r r' : Run} {m : RuleMatch} {arena : Arena} {name : String}
  {language : Language} {continuation : Option (List Nat)} {stack stack' : List Nat}

/-! ## 1. What a step does -/

/-- **How a step changes which modes are open**, the root first: it leaves them, opens the mode whose
    beginning has matched, or closes some; then the outermost of these may start another one. -/
inductive Moves (arena : Arena) (m : RuleMatch) (stack : List Nat) : List Nat → Prop
  | stays : Moves arena m stack stack
  | begins {id : Nat} : m.kind = .begins id → Moves arena m stack (stack ++ [id])
  | ends {rest closed : List Nat} : stack = rest ++ closed → Moves arena m stack rest
  | starts {rest closed : List Nat} {id next : Nat} : stack = rest ++ id :: closed →
      Starts arena id next → Moves arena m stack (rest ++ [next])

theorem stack_cons (s : Scene) (f : Frame) (frames : List Frame) :
    s.stack (f :: frames) = s.stack frames ++ [f.mode] := by
  unfold Scene.stack
  rw [List.map_cons, List.reverse_cons, List.cons_append]

theorem stack_congr {frames frames' : List Frame}
    (h : frames.map (·.mode) = frames'.map (·.mode)) : s.stack frames = s.stack frames' := by
  unfold Scene.stack
  rw [h]

/-- Telling what is held back leaves the open modes. -/
theorem frames_flush (s : Scene) (r : Run) :
    (flush s r).Meets (fun r' => r'.frames = r.frames) (StepFails s) := by
  refine Attempt.meets_mono (meets_flush s r) (fun r' hr' => ?_) fun f hf => stepFails_of_failsBy hf
  obtain ⟨t, ht, _⟩ := hr'
  exact ht.frames

theorem frames_startMode (s : Scene) (id : Nat) (m : RuleMatch) (data : HookData) (r : Run) :
    (startMode s id m data r).frames = ⟨id, data⟩ :: r.frames := by
  have hopen := r.frames_openMode s.arena (s.arena.mode id)
  unfold startMode
  simp only
  split
  · rw [(tells_emitLabelled _ s.arena _ _).frames]
    exact congrArg _ hopen
  · rename_i labels _
    exact congrArg _ ((tells_tellParts s m labels _).frames.trans hopen)
  · exact congrArg _ hopen

theorem frames_holdBegin (s : Scene) (mode : ArenaMode) (lexeme : String) (r : Run) :
    (holdBegin s mode lexeme r).Meets (fun r' => r'.frames = r.frames) (StepFails s) := by
  have hheld : (if mode.excludeBegin then r.hold lexeme else r).frames = r.frames := by
    split <;> rfl
  refine meets_holdBegin (fun _ => rfl) (fun _ => frames_flush s _) fun _ r1 hr1 => ?_
  split
  · exact hr1.trans hheld
  · exact hr1.trans hheld

theorem frames_holdEnd (s : Scene) (mode : ArenaMode) (m : RuleMatch) (r : Run) :
    (holdEnd s mode m r).Meets (fun r' => r'.frames = r.frames) (StepFails s) := by
  have hheld : (if mode.returnEnd || mode.excludeEnd then r else r.hold (lexeme s m)).frames =
      r.frames := by
    split <;> rfl
  refine meets_holdEnd (fun _ => frames_flush s r)
    (fun label _ r1 hr1 => (tells_emitLabelled r1 s.arena _ label).frames.trans hr1)
    (fun labels _ r1 hr1 => (tells_tellParts s m labels r1).frames.trans hr1) (fun _ _ => rfl)
    (fun _ _ => frames_flush s _) fun _ _ r1 hr1 => ?_
  split
  · exact hr1.trans hheld
  · exact hr1.trans hheld

theorem frames_closeFrame (arena : Arena) (f : Frame) (r : Run) :
    (closeFrame arena f r).frames = r.frames := by
  have hclose : (r.closeMode (arena.mode f.mode)).frames = r.frames := by
    unfold Run.closeMode
    split <;> rfl
  unfold closeFrame
  simp only
  split
  · exact hclose
  · exact hclose

/-- Closing modes leaves the outer ones; the last one that was closed stood right inside them. -/
theorem stack_closeFrames (n : Nat) (ended : Option Nat) (hsuffix : ∃ closed, stack =
      s.stack r.frames ++ closed)
    (hended : ∀ id, ended = some id → ∃ closed, stack = s.stack r.frames ++ id :: closed) :
    (∃ closed, stack = s.stack (closeFrames s.arena n ended r).2.frames ++ closed) ∧
      ∀ id, (closeFrames s.arena n ended r).1 = some id →
        ∃ closed, stack = s.stack (closeFrames s.arena n ended r).2.frames ++ id :: closed := by
  induction n generalizing r ended with
  | zero => exact ⟨hsuffix, hended⟩
  | succ n ih =>
    unfold closeFrames
    cases hf : r.frames with
    | nil => exact ⟨hsuffix, hended⟩
    | cons f rest =>
      obtain ⟨closed, hclosed⟩ := hsuffix
      have hframes : (closeFrame s.arena f { r with frames := rest }).frames = rest :=
        frames_closeFrame s.arena f _
      have hstack : stack = s.stack (closeFrame s.arena f { r with frames := rest }).frames ++
          f.mode :: closed := by
        rw [hclosed, hf, stack_cons, hframes, List.append_assoc, List.singleton_append]
      refine ih _ ⟨_, hstack⟩ fun id hid => ?_
      cases hid
      exact ⟨closed, hstack⟩

theorem frames_turnDown (s : Scene) (m : RuleMatch) (r : Run) :
    (turnDown s m r).frames = r.frames :=
  turnDown_of (P := fun r' => r'.frames = r.frames) rfl rfl

theorem frames_passIllegal (s : Scene) (m : RuleMatch) (r : Run) :
    (passIllegal s m r).frames = r.frames :=
  passIllegal_of (P := fun r' => r'.frames = r.frames) rfl rfl

theorem moves_turnDown (s : Scene) (m m' : RuleMatch) (r : Run) :
    Moves s.arena m' (s.stack r.frames) (s.stack (turnDown s m r).frames) := by
  rw [frames_turnDown]
  exact .stays

theorem moves_beginStep {id : Nat} (hm : m.kind = .begins id) (r : Run) :
    (beginStep s id m r).Meets
      (fun r' => Moves s.arena m (s.stack r.frames) (s.stack r'.frames)) (StepFails s) := by
  refine meets_beginStep (fun _ => moves_turnDown s m m r) (meets_askHook? id m _ .inl).2
    (fun _ => frames_holdBegin s _ _ r) fun data r1 _ hr1 => ?_
  show Moves s.arena m _ (s.stack (startMode s id m data r1).frames)
  rw [frames_startMode, hr1, stack_cons]
  exact .begins hm

theorem moves_endStep (s : Scene) (m : RuleMatch) (r : Run) :
    (endStep s m r).Meets
      (fun r' => Moves s.arena m (s.stack r.frames) (s.stack r'.frames)) (StepFails s) := by
  have hclosed : ∀ n {frames : List Frame} {r1 : Run}, frames.map (·.mode) = r.frames.map (·.mode) →
      r1.frames = frames → (∃ closed, s.stack r.frames =
          s.stack (closeFrames s.arena n none r1).2.frames ++ closed) ∧
        ∀ id, (closeFrames s.arena n none r1).1 = some id → ∃ closed, s.stack r.frames =
          s.stack (closeFrames s.arena n none r1).2.frames ++ id :: closed := by
    intro n frames r1 hmodes hr1
    have hstack : s.stack r.frames = s.stack r1.frames := by rw [hr1, stack_congr hmodes]
    exact stack_closeFrames n none ⟨[], hstack.trans (List.append_nil _).symm⟩ fun _ hid => by cases hid
  refine meets_endStep (meets_endOf s m r.frames) (fun frames ha => ?_)
    (fun n frames _ => frames_holdEnd s _ m { r with frames }) (fun n frames r1 ha hr1 _ => ?_)
    fun n frames r1 next ha hr1 hnext => ?_
  · show Moves s.arena m _ (s.stack frames)
    rw [stack_congr ha.1]
    exact .stays
  · obtain ⟨⟨closed, hrest⟩, _⟩ := hclosed n ha.1 hr1
    exact .ends hrest
  · obtain ⟨id, hid, hstarts⟩ := Option.bind_eq_some_iff.mp hnext
    obtain ⟨closed, hrest⟩ := (hclosed n ha.1 hr1).2 id hid
    show Moves s.arena m _ (s.stack (startMode s next m .empty _).frames)
    rw [frames_startMode, stack_cons]
    exact .starts hrest hstarts

/-- **Every step leaves the open modes, opens one, or closes some and starts at most one.** -/
theorem moves_step (s : Scene) (m : RuleMatch) (r : Run) :
    (step s m r).Meets
      (fun r' => Moves s.arena m (s.stack r.frames) (s.stack r'.frames)) (StepFails s) := by
  refine meets_step .stays (.zeroWidth _) (fun id hid => moves_beginStep hid _)
    (fun _ => moves_endStep s m _) (fun _ => ?_) (.illegal _ _ _)
  rw [frames_passIllegal]
  exact .stays

/-! ## 2. Open modes follow one another -/

/-- **Every open mode follows the one around it.** -/
def Linked (arena : Arena) (stack : List Nat) : Prop := stack.IsChain (Follows arena)

/-- The innermost open mode is the last one. -/
theorem getLast?_stack (s : Scene) (frames : List Frame) :
    (s.stack frames).getLast? = some (s.topId frames) := by
  cases frames with
  | nil => rfl
  | cons f frames =>
    rw [stack_cons, List.getLast?_concat]
    rfl

theorem linked_concat {id : Nat} (h : Linked arena stack)
    (hid : ∀ p, stack.getLast? = some p → Follows arena p id) : Linked arena (stack ++ [id]) := by
  refine List.isChain_append.mpr ⟨h, .singleton id, fun p hp c hc => ?_⟩
  cases hc
  exact hid p hp

theorem linked_moves (h : Linked arena stack)
    (hbegins : ∀ id, m.kind = .begins id → ∀ p, stack.getLast? = some p → Follows arena p id)
    (hm : Moves arena m stack stack') : Linked arena stack' := by
  cases hm with
  | stays => exact h
  | begins hkind => exact linked_concat h (hbegins _ hkind)
  | ends heq =>
    subst heq
    exact (List.isChain_append.mp h).1
  | starts heq hstarts =>
    subst heq
    obtain ⟨hrest, _, hnext⟩ := List.isChain_append.mp h
    exact linked_concat hrest fun p hp => .started (hnext p hp _ rfl) hstarts

section Compiled

variable (hc : compileLanguage name language = .ok s.arena)

include hc

/-- What is looked up as a beginning is contained in the innermost open mode. -/
theorem mem_contains_of_lookUp (h : InStep s r) {first : Nat}
    (hl : lookUp s r = .ok (some m, first)) {id : Nat} (hk : m.kind = .begins id) :
    id ∈ (s.top r).contains := by
  obtain ⟨rule, hrule, hkind⟩ := (Arena.finds_next hl).kind
  obtain ⟨source, hmake⟩ := (Arena.made_mode hc (topId_lt_size hc h)).rules
  have hrules := (Arena.RuleSet.make_eq_ok hmake).1
  have hmem : rule ∈ (s.arena.mode (s.topId r.frames)).rules.rules := hrule
  rw [hrules] at hmem
  exact Arena.mem_contains_of_begins hmem (by rw [hkind, hk])

/-- A step keeps open modes following one another. -/
theorem linked_turn (hin : InStep s r) (h : Linked s.arena (s.stack r.frames)) {first : Nat}
    {notes : List HookNote} (hl : lookUp s r = .ok (some m, first))
    (hstep : step s m (r.atRule first) = ⟨notes, .ok r'⟩) : Linked s.arena (s.stack r'.frames) := by
  have hmoves := (moves_step s m (r.atRule first)).1 r' (by rw [hstep])
  refine linked_moves h (fun id hid p hp => ?_) hmoves
  rw [getLast?_stack] at hp
  cases hp
  exact .inside (mem_contains_of_lookUp hc hin hl hid)

/-- **Open modes follow one another at every point of a run**, if they do where it begins. -/
theorem linked_between (hstart : Linked s.arena (s.stack (initial s.arena continuation).frames))
    (h : Between s continuation r) : Linked s.arena (s.stack r.frames) := by
  have hreached : ∀ {n : Nat} {r : Run}, Reached s continuation n r →
      Linked s.arena (s.stack r.frames) := by
    intro n r hr
    induction hr with
    | start => exact hstart
    | next hr hturn ih =>
      obtain ⟨m, first, hl, hstep, _⟩ := turn_next hturn
      exact linked_turn hc (inStep_between hc (.inl ⟨_, hr⟩)) ih hl hstep
  rcases h with ⟨n, h⟩ | ⟨n, r0, notes, h, hlast⟩
  · exact hreached h
  · have hr0 := hreached h
    rcases turn_last hlast with ⟨first, _, _, rfl⟩ | ⟨m, first, hl, hstep, _⟩
    · exact hr0
    · exact linked_turn hc (inStep_between hc (.inl ⟨_, h⟩)) hr0 hl hstep

end Compiled

/-! ## 3. Stacks that runs reach -/

/-- **The open modes that runs come to**: a run begins with the root alone, or with what an earlier
    run has come to; they are open at some point of it, or at its end. -/
inductive StackReached (arena : Arena) : List Nat → Prop
  | root : StackReached arena [arena.root]
  | between {s : Scene} {continuation : Option (List Nat)} {r : Run} : s.arena = arena →
      (∀ stack, continuation = some stack → StackReached arena stack) → Between s continuation r →
      StackReached arena (s.stack r.frames)
  | ended {s : Scene} {continuation : Option (List Nat)} : s.arena = arena →
      (∀ stack, continuation = some stack → StackReached arena stack) →
      StackReached arena (s.stack (scanAll s continuation).frames)

/-- The modes that a run begins in begin with the root. -/
theorem head?_startStack (arena : Arena) (continuation : Option (List Nat)) :
    (startStack arena continuation).head? = some arena.root := by
  unfold startStack
  split
  · split
    · rename_i stack hvalid
      exact beq_iff_eq.mp (Bool.and_eq_true_iff.mp hvalid).1
    · rfl
  · rfl

/-- A run begins with the frames of its modes. -/
theorem frames_initial (arena : Arena) (continuation : Option (List Nat)) :
    (initial arena continuation).frames = framesOf (startStack arena continuation) :=
  (opened_openModes arena ((startStack arena continuation).drop 1) _ [] rfl).2

/-- The modes that are open where a run begins. -/
theorem stack_initial (s : Scene) (continuation : Option (List Nat)) :
    s.stack (initial s.arena continuation).frames = startStack s.arena continuation := by
  have hhead := head?_startStack s.arena continuation
  rw [frames_initial]
  generalize startStack s.arena continuation = stack at hhead ⊢
  cases stack with
  | nil => cases hhead
  | cons root stack =>
    cases hhead
    unfold Scene.stack framesOf
    simp [List.map_reverse, Function.comp_def]

/-- What is open at the end of a run was open before the last of it was told. -/
theorem between_scanAll (s : Scene) (continuation : Option (List Nat)) :
    ∃ r, Between s continuation r ∧ (scanAll s continuation).frames = r.frames := by
  have hends := ends_scanAll s continuation
  generalize scanAll s continuation = scanned at hends
  cases hends with
  | broken notes hr hturn => exact ⟨_, .inl ⟨_, hr⟩, rfl⟩
  | completed notes hr hturn =>
    rename_i n r0 r1 more
    refine ⟨r1, .inr ⟨_, _, _, hr, hturn⟩, ?_⟩
    have hflush := frames_flush s (r1.hold (s.text.slice r1.index s.text.size))
    unfold complete
    simp only
    split
    · rename_i more2 r2 hflushed
      exact hflush.1 r2 (by rw [hflushed])
    · rfl

/-- **Wherever runs come to, open modes follow one another.** -/
theorem linked_of_reached (hc : compileLanguage name language = .ok arena)
    (h : StackReached arena stack) : Linked arena stack := by
  have hinitial : ∀ (s : Scene) (continuation : Option (List Nat)), s.arena = arena →
      (∀ stack, continuation = some stack → Linked arena stack) →
      Linked s.arena (s.stack (initial s.arena continuation).frames) := by
    rintro s continuation rfl hall
    rw [stack_initial]
    unfold startStack
    split
    · split
      · exact hall _ rfl
      · exact .singleton _
    · exact .singleton _
  induction h with
  | root => exact .singleton _
  | between harena _ hr ih =>
    have hstart := hinitial _ _ harena ih
    subst harena
    exact linked_between hc hstart hr
  | @ended s continuation harena _ ih =>
    have hstart := hinitial s continuation harena ih
    subst harena
    obtain ⟨r, hr, hframes⟩ := between_scanAll s continuation
    rw [hframes]
    exact linked_between hc hstart hr

/-- **What ends a mode ends the mode right inside it that ends with its parent**, wherever runs come
    to, unless the outer one contains itself and the inner one is started where it stands inside
    itself: a mode that was started was compiled for the mode further out. -/
theorem ends_with_parent_unless_started (hc : compileLanguage name language = .ok arena)
    (hext : language.extensions = []) (hr : StackReached arena stack) {d p c : Nat}
    (hp : stack[d]? = some p) (hin : stack[d + 1]? = some c)
    (hends : (arena.mode c).endsWithParent = true) {a : String}
    (ha : IsAlternative a (arena.mode p).terminator) :
    IsAlternative a (arena.mode c).terminator ∨
      (p ∈ (arena.mode p).contains ∧ TransGen (Starts arena) p c) := by
  have hlinked := List.isChain_iff_getElem.mp (linked_of_reached hc hr)
  obtain ⟨hlt, hcget⟩ := List.getElem?_eq_some_iff.mp hin
  obtain ⟨_, hpget⟩ := List.getElem?_eq_some_iff.mp hp
  have hfollows := hlinked d hlt
  rw [hpget, hcget] at hfollows
  exact Arena.alternative_of_follows hext hc hfollows hends ha

/-! ## 4. Tails -/

/-- A language of parentheses between angle brackets. They may stand inside one another, and what
    comes after one of them is read up to the end of the mode around it. -/
def tailedLanguage : Language where
  mode := {
    contains := some [.mode ⟨[("angle", 0)], {
      beginPattern := some (.single "<")
      endPattern := some (.single ">")
      contains := some [.mode ⟨[("paren", 0)], {
        scope := some (.single "x")
        beginPattern := some (.single "\\(")
        endPattern := some (.single "\\)")
        contains := some [.self]
        starts := some ⟨[("tail", 0)], {
          scope := some (.single "s")
          endsWithParent := some true }⟩ }⟩] }⟩] }

/-- A run in a language, with nothing around it. -/
def aloneIn (arena : Arena) (code : String) : Scene :=
  (Highlighter.new {}).sceneOf ((Highlighter.new {}).delegateTo ((Highlighter.new {}).runAt 0))
    arena code false

theorem stackReached_alone (arena : Arena) (code : String) :
    StackReached arena
      ((aloneIn arena code).stack (scanAll (aloneIn arena code) none).frames) :=
  .ended (s := aloneIn arena code) rfl fun _ h => by cases h

/-- **A mode that is started inside itself misses the end around it**: the tail of inner parentheses
    stands in the outer ones, whose end does not end it. -/
theorem tail_misses_end : ∃ arena, compileLanguage "tailed" tailedLanguage = .ok arena ∧
    ∃ stack d p c a, StackReached arena stack ∧ stack[d]? = some p ∧ stack[d + 1]? = some c ∧
      (arena.mode c).endsWithParent = true ∧ IsAlternative a (arena.mode p).terminator ∧
      ¬ IsAlternative a (arena.mode c).terminator := by
  have hcheck : passes (compileLanguage "tailed" tailedLanguage) (fun arena =>
      (aloneIn arena "<((a)b").stack (scanAll (aloneIn arena "<((a)b") none).frames == [0, 1, 2, 3] &&
        (arena.mode 3).endsWithParent && (arena.mode 2).terminator == "\\)" &&
        (arena.mode 3).terminator == ">") = true := by decide +kernel
  obtain ⟨arena, hc, hcheck⟩ := exists_of_passes hcheck
  simp only [Bool.and_eq_true, beq_iff_eq] at hcheck
  obtain ⟨⟨⟨hstack, hends⟩, houter⟩, hinner⟩ := hcheck
  refine ⟨arena, hc, [0, 1, 2, 3], 2, 2, 3, "\\)", hstack ▸ stackReached_alone arena _, rfl, rfl,
    hends, ?_, fun halternative => ?_⟩
  · rw [houter]
    exact ⟨by decide, "", "", by decide, .inl rfl, .inl rfl⟩
  · rw [hinner] at halternative
    obtain ⟨_, before, after, heq, _⟩ := halternative
    have hlength := congrArg String.length heq
    simp at hlength
    have hparen : "\\)".length = 2 := by decide
    have hangle : ">".length = 1 := by decide
    omega

/-- The tail of parentheses that stand right between angle brackets ends where these do. -/
theorem tail_ends_with_brackets : ∃ arena stack p c,
    compileLanguage "tailed" tailedLanguage = .ok arena ∧ StackReached arena stack ∧
    stack[1]? = some p ∧ stack[2]? = some c ∧ (arena.mode c).endsWithParent = true ∧
    IsAlternative ">" (arena.mode p).terminator ∧ IsAlternative ">" (arena.mode c).terminator := by
  have hcheck : passes (compileLanguage "tailed" tailedLanguage) (fun arena =>
      (aloneIn arena "<(a)b").stack (scanAll (aloneIn arena "<(a)b") none).frames == [0, 1, 3] &&
        (arena.mode 3).endsWithParent && (arena.mode 1).terminator == ">" &&
        !(arena.mode 1).contains.contains 1) = true := by decide +kernel
  obtain ⟨arena, hc, hcheck⟩ := exists_of_passes hcheck
  simp only [Bool.and_eq_true, beq_iff_eq, Bool.not_eq_true', List.contains_eq_mem,
    decide_eq_false_iff_not] at hcheck
  obtain ⟨⟨⟨hstack, hends⟩, houter⟩, hself⟩ := hcheck
  have hreached : StackReached arena [0, 1, 3] := hstack ▸ stackReached_alone arena _
  have hbracket : IsAlternative ">" (arena.mode 1).terminator := by
    rw [houter]
    exact ⟨by decide, "", "", by decide, .inl rfl, .inl rfl⟩
  refine ⟨arena, [0, 1, 3], 1, 3, hc, hreached, rfl, rfl, hends, hbracket, ?_⟩
  have htail := ends_with_parent_unless_started hc rfl hreached (d := 1) rfl rfl hends hbracket
  exact htail.resolve_right fun h => hself h.1

end Highlight.Scan
