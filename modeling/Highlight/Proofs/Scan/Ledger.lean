import Highlight.Proofs.Scan.Deeds
import Highlight.Proofs.Scan.HeldText

/-!
# The ledger of a run

What a run is worth is what its deeds add, and nothing else. Whatever a run tells, opens or closes
keeps this up, so it holds at every point of the run.

* `Run.book`, `Tallied` -- the counters of a run, and that they agree with its deeds;
* `Tallied.finds`, `Tallied.hands`, `Tallied.closes` -- one deed more;
* `tallied_flush`, `tallied_beginStep`, `tallied_endStep`, `tallied_step` -- what a step keeps up;
* `tallied_reached`, `tallied_scanAll` -- **what a run is worth**;
* `continued_runDeeds` -- how the blocks of a run go on, however it ends.
-/

namespace Highlight.Scan

open Highlight.Arena (ArenaMode RuleMatch)
open Highlight.Grammar (HookData HookNote SubLanguage)
open Highlight.Token (Event)

variable {s : Scene} {r r' : Run} {deeds more : List Deed} {m : RuleMatch}

/-! ## 1. Counters -/

/-- The nested runs that a run has told, the latest first. -/
def Run.nested (r : Run) : List (Option String × List Event) := r.events.filterMap nested?

/-- The counters of a run, and the nested runs that it has told. -/
structure Book where
  hits : Dictionary String Nat
  relevance : Nat
  blocks : Dictionary String (List Nat)
  nested : List (Option String × List Event)

def Run.book (r : Run) : Book := ⟨r.hits, r.relevance, r.blocks, r.nested⟩

/-- **The counters of a run agree with its deeds**, and each block has begun where the last one of its
    name has ended. The nested runs that have been told are what the blocks have come to. -/
structure Tallied (s : Scene) (deeds : List Deed) (r : Run) : Prop where
  timesFound : ∀ word, r.timesFound word = timesAmong (hitsOf deeds) word
  relevance : r.relevance = worth s deeds
  last : ∀ name, r.blocks.get? name = lastTop name deeds
  continued : Continued deeds
  spliced : r.nested.reverse = (blocksOf deeds).map Block.told

theorem Tallied.congr (h : Tallied s deeds r) (hbook : r'.book = r.book) : Tallied s deeds r' := by
  obtain ⟨hhits, hrelevance, hblocks, hnested⟩ := Book.mk.inj hbook
  refine ⟨fun word => ?_, hrelevance.trans h.relevance, fun name => ?_, h.continued,
    (congrArg List.reverse hnested).trans h.spliced⟩
  · rw [Run.timesFound, hhits]
    exact h.timesFound word
  · rw [hblocks]
    exact h.last name

theorem Tallied.resumption_eq (h : Tallied s deeds r) (sub : SubLanguage) :
    r.resumption sub = resumption deeds sub := by
  cases sub with
  | single name => exact h.last name
  | list names => rfl
  | any => rfl

/-- **Words are found.** -/
theorem Tallied.finds (h : Tallied s deeds r) {hits : List Hit}
    (htimes : ∀ word, r'.timesFound word = r.timesFound word + timesAmong hits word)
    (hrelevance : r'.relevance = r.relevance +
      score s.options.maxKeywordHits r.timesFound hits)
    (hblocks : r'.blocks = r.blocks) (hnested : r'.nested = r.nested) :
    Tallied s (deeds ++ hits.map .finds) r' where
  timesFound := fun word => by
    rw [htimes, h.timesFound, hitsOf_append, hitsOf_finds, timesAmong_append]
  relevance := by
    rw [hrelevance, h.relevance, worth_finds, show r.timesFound = _ from funext h.timesFound]
  last := fun name => by
    rw [hblocks, lastTop_append name deeds (blocksOf_finds hits)]
    exact h.last name
  continued := h.continued.append (blocksOf_finds hits)
  spliced := by
    rw [hnested, blocksOf_append, blocksOf_finds, List.append_nil]
    exact h.spliced

/-- **A text is handed on.** -/
theorem Tallied.hands (h : Tallied s deeds r) {block : Block}
    (hresumed : block.resumed = r.resumption block.sub) (hhits : r'.hits = r.hits)
    (hrelevance : r'.relevance = r.relevance + handedWorth s.arena block)
    (hblocks : ∀ name, r'.blocks.get? name =
      if block.sub = .single name then some block.answer.top else r.blocks.get? name)
    (hnested : r'.nested = block.told :: r.nested) :
    Tallied s (deeds ++ [.hands block]) r' where
  timesFound := fun word => by
    rw [Run.timesFound, hhits, hitsOf_append]
    exact (h.timesFound word).trans (congrArg (timesAmong · word) (List.append_nil _).symm)
  relevance := by rw [hrelevance, h.relevance, worth_hands]
  last := fun name => by
    rw [hblocks, h.last, lastTop_concat, topUnder]
    split <;> rfl
  continued := h.continued.concat fun block' heq => by
    cases heq
    exact hresumed.trans (h.resumption_eq _)
  spliced := by
    rw [hnested, List.reverse_cons, h.spliced, blocksOf_append, List.map_append]
    rfl

/-- **A mode is closed.** -/
theorem Tallied.closes (h : Tallied s deeds r) {id : Nat} (hhits : r'.hits = r.hits)
    (hrelevance : r'.relevance = r.relevance + closedWorth s.arena id)
    (hblocks : r'.blocks = r.blocks) (hnested : r'.nested = r.nested) :
    Tallied s (deeds ++ [.closes id]) r' where
  timesFound := fun word => by
    rw [Run.timesFound, hhits, hitsOf_append]
    exact (h.timesFound word).trans (congrArg (timesAmong · word) (List.append_nil _).symm)
  relevance := by rw [hrelevance, h.relevance, worth_closes]
  last := fun name => by
    rw [hblocks, lastTop_append name deeds rfl]
    exact h.last name
  continued := h.continued.append rfl
  spliced := by
    rw [hnested, blocksOf_append]
    exact h.spliced.trans (congrArg (List.map Block.told) (List.append_nil _).symm)

/-! ## 2. Text that is told -/

theorem book_emitLabelled (r : Run) (arena : Arena) (t label : String) :
    (r.emitLabelled arena t label).book = r.book := by
  unfold Run.emitLabelled
  split <;> rfl

theorem book_openMode (r : Run) (arena : Arena) (mode : ArenaMode) :
    (r.openMode arena mode).book = r.book := by
  unfold Run.openMode
  split <;> rfl

/-- Telling text tells no nested run. -/
theorem piecewise_nested (arena : Arena) :
    Piecewise arena (fun _ => True) fun r r' _ => r'.nested = r.nested where
  refl := fun _ => rfl
  trans := fun h h' => h'.trans h
  text := fun _ _ => rfl
  count := fun _ _ _ _ => rfl
  labelled := fun r t label _ => by
    unfold Run.emitLabelled
    split <;> rfl
  keywords := fun _ _ _ _ _ _ _ => trivial

/-- No words are found where there is no text. -/
theorem textDeeds_empty (s : Scene) (id : Nat) : textDeeds s id "" = [] := by
  unfold textDeeds
  split
  · rfl
  · rename_i k _
    have hnone : identifiers k.regex (Text.ofString "") = [] := by
      obtain ⟨n, _, hwords⟩ := words_identifiers k.regex (Text.ofString "")
      have horder : InOrder (Text.ofString "") 0 (identifiers k.regex (Text.ofString "")) :=
        inOrder_identifiersFrom ..
      cases hms : identifiers k.regex (Text.ofString "") with
      | nil => rfl
      | cons m ms =>
        rw [hms] at hwords horder
        have hfull := lt_of_mem_words hwords List.mem_cons_self
        have hsize : m.stop ≤ 0 := horder.2.2.1
        omega
    simp only [hnone]
    rfl

/-- Text that is told in the innermost mode is worth the words of its table. -/
theorem tallied_tellKeywords (h : Tallied s deeds r) (text : String) :
    Tallied s (deeds ++ textDeeds s (s.topId r.frames) text) (tellKeywords s text r) := by
  unfold textDeeds
  split
  · rename_i hnone
    rw [List.append_nil]
    refine h.congr ?_
    unfold tellKeywords Scene.top
    rw [hnone]
    rfl
  · rename_i k hk
    have hcounted := counted_tellKeywords text hk
    exact h.finds hcounted.timesFound hcounted.relevance (blocks_tellKeywords s text r)
      ((piecewise_nested s.arena).tellKeywords text r)

theorem tallied_tellPart (h : Tallied s deeds r) (part : Nat × Option String) :
    Tallied s (deeds ++ if part.2.isSome then [] else
      textDeeds s (s.topId r.frames) (partText s m part.1)) (tellPart s m r part) := by
  unfold tellPart partText
  cases m.groups[part.1]? with
  | none =>
    rw [textDeeds_empty, ite_self, List.append_nil]
    exact h
  | some group =>
    cases group with
    | none =>
      rw [textDeeds_empty, ite_self, List.append_nil]
      exact h
    | some span =>
      cases part.2 with
      | some label =>
        show Tallied s (deeds ++ []) (r.emitLabelled s.arena _ label)
        rw [List.append_nil]
        exact h.congr (book_emitLabelled ..)
      | none => exact tallied_tellKeywords h _

theorem tallied_tellParts (h : Tallied s deeds r) (m : RuleMatch)
    (labels : Dictionary Nat (Option String)) :
    Tallied s (deeds ++ partDeeds s (s.topId r.frames) m labels) (tellParts s m labels r) := by
  unfold partDeeds tellParts
  induction labels.entries generalizing deeds r with
  | nil => exact (List.append_nil deeds).symm ▸ h
  | cons part parts ih =>
    have hframes : (tellPart s m r part).frames = r.frames :=
      ((piecewise_tells s.arena).tellPart m r part fun _ _ => trivial).frames
    have hstep := ih (tallied_tellPart (m := m) h part)
    rw [hframes] at hstep
    rwa [List.flatMap_cons, ← List.append_assoc]

/-! ## 3. Text that is handed on -/

theorem blockOf_of_ok {sub : SubLanguage} {text : String} {x : Attempt Nested} {answer : Nested}
    (hne : text ≠ "") (hask : s.delegate.ask sub text (r.resumption sub) = some x)
    (hx : x.result = .ok answer) : blockOf s r sub text =
      some ⟨s.topId r.frames, sub, text, r.resumption sub, answer⟩ := by
  unfold blockOf
  rw [if_neg (by simpa using hne), hask]
  show x.result.toOption.bind _ = _
  rw [hx]
  rfl

theorem blockOf_of_none {sub : SubLanguage} {text : String}
    (hask : s.delegate.ask sub text (r.resumption sub) = none) : blockOf s r sub text = none := by
  unfold blockOf
  rw [hask]
  exact ite_self _

/-- A nested run that is told is a text that has been handed on. -/
theorem tallied_splice (h : Tallied s deeds r) {sub : SubLanguage} {text : String} {x : Attempt Nested}
    {answer : Nested} (hne : text ≠ "") (hask : s.delegate.ask sub text (r.resumption sub) = some x)
    (hx : x.result = .ok answer) {blocks : Dictionary String (List Nat)}
    (hblocks : ∀ name, blocks.get? name =
      if sub = .single name then some answer.top else r.blocks.get? name) :
    Tallied s (deeds ++ (blockOf s r sub text).toList.map .hands)
      (({ r with blocks } : Run).splice (s.top r) answer) := by
  rw [blockOf_of_ok hne hask hx]
  refine h.hands rfl rfl ?_ hblocks rfl
  show (if 0 < (s.top r).relevance then r.relevance + answer.relevance else r.relevance) =
    r.relevance + if 0 < (s.top r).relevance then answer.relevance else 0
  split <;> rfl

/-- Text of another language is worth what it comes to, if it is handed on. -/
theorem tallied_tellBlock (h : Tallied s deeds r) (sub : SubLanguage) (text : String) :
    (tellBlock s sub text r).Meets
      (Tallied s (deeds ++ (blockOf s r sub text).toList.map .hands)) fun _ => True := by
  unfold tellBlock
  split
  · rename_i hempty
    have hnone : blockOf s r sub text = none := if_pos hempty
    rw [hnone]
    exact Attempt.meets_pure ((List.append_nil deeds).symm ▸ h)
  · rename_i hfull
    have hne : text ≠ "" := by simpa using hfull
    cases sub with
    | single name =>
      simp only
      split
      · rename_i hask
        have hnone : blockOf s r (.single name) text = none := blockOf_of_none hask
        rw [hnone]
        exact Attempt.meets_pure ((List.append_nil deeds).symm ▸ h.congr rfl)
      · rename_i x hask
        have hask : s.delegate.ask (.single name) text (r.resumption (.single name)) = some x := hask
        refine Attempt.meets_bind (Attempt.meets_result x) fun answer hx => Attempt.meets_pure ?_
        refine tallied_splice h hne hask hx fun name' => ?_
        rw [Dictionary.get?_insert]
        by_cases heq : name' = name
        · rw [if_pos heq, if_pos (congrArg _ heq.symm)]
        · rw [if_neg heq, if_neg fun hsub => heq (SubLanguage.single.inj hsub).symm]
    | list names =>
      refine Attempt.meets_bind (Attempt.meets_result _) fun answer hx => Attempt.meets_pure ?_
      exact tallied_splice h hne rfl hx fun name' => (if_neg fun hsub => by cases hsub).symm
    | any =>
      refine Attempt.meets_bind (Attempt.meets_result _) fun answer hx => Attempt.meets_pure ?_
      exact tallied_splice h hne rfl hx fun name' => (if_neg fun hsub => by cases hsub).symm

/-- **What is held back is told**, for what its words or its block are worth. -/
theorem tallied_flush (h : Tallied s deeds r) :
    (flush s r).Meets (Tallied s (deeds ++ flushDeeds s r)) fun _ => True := by
  have hempty : Tallied s deeds { r with buffer := "" } := h.congr rfl
  unfold flushDeeds
  refine meets_flush_of (fun sub hsub => ?_) fun hnone => ?_
  · rw [hsub]
    exact tallied_tellBlock hempty sub r.buffer
  · rw [hnone]
    exact tallied_tellKeywords hempty r.buffer

/-! ## 4. Modes open and close -/

theorem tallied_startMode (h : Tallied s deeds r) (id : Nat) (m : RuleMatch) (data : HookData) :
    Tallied s (deeds ++ startDeeds s id (s.topId r.frames) m) (startMode s id m data r) := by
  have hopen : Tallied s deeds (r.openMode s.arena (s.arena.mode id)) :=
    h.congr (book_openMode r s.arena (s.arena.mode id))
  have hframes : (r.openMode s.arena (s.arena.mode id)).frames = r.frames :=
    Run.frames_openMode r s.arena (s.arena.mode id)
  unfold startMode
  simp only
  split
  · rename_i label hscope
    have hnone : startDeeds s id (s.topId r.frames) m = [] := by rw [startDeeds, hscope]
    rw [hnone, List.append_nil]
    exact hopen.congr (book_emitLabelled ..)
  · rename_i labels hscope
    have hparts := tallied_tellParts hopen m labels
    rw [hframes] at hparts
    rw [startDeeds, hscope]
    exact hparts.congr rfl
  · rename_i hscope
    have hnone : startDeeds s id (s.topId r.frames) m = [] := by rw [startDeeds, hscope]
    rw [hnone, List.append_nil]
    exact hopen.congr rfl

theorem opens_iff (id : Nat) : opens s id m = true ↔ ∃ data, Opens s id m data := by
  unfold opens Opens
  rw [Bool.and_eq_true, Bool.not_eq_true']
  cases hreply : (askHook? s (s.arena.mode id).onBegin m .empty).result with
  | error f => simp [Except.toOption]
  | ok reply =>
    obtain ⟨counts, data⟩ := reply
    cases counts <;> simp [Except.toOption]

theorem tallied_turnDown (h : Tallied s deeds r) : Tallied s deeds (turnDown s m r) :=
  turnDown_of (h.congr rfl) (h.congr rfl)

theorem tallied_holdBegin (h : Tallied s deeds r) (id : Nat) (m : RuleMatch) :
    (holdBegin s (s.arena.mode id) (lexeme s m) r).Meets (Tallied s (deeds ++
      if (s.arena.mode id).skip then []
      else flushDeeds s (if (s.arena.mode id).excludeBegin then r.hold (lexeme s m) else r)))
      fun _ => True := by
  have hheld : Tallied s deeds
      (if (s.arena.mode id).excludeBegin then r.hold (lexeme s m) else r) := by
    split
    · exact h.congr rfl
    · exact h
  refine meets_holdBegin (fun hskip => ?_) (fun _ => tallied_flush hheld) fun hskip r1 hr1 => ?_
  · rw [if_pos hskip, List.append_nil]
    exact h.congr rfl
  · rw [if_neg (Bool.not_eq_true _ ▸ hskip)]
    exact hr1.congr ((apply_ite Run.book ..).trans (ite_self _))

/-- **The beginning of a mode.** -/
theorem tallied_beginStep (h : Tallied s deeds r) (id : Nat) (m : RuleMatch) :
    (beginStep s id m r).Meets
      (Tallied s (deeds ++ if opens s id m then beginDeeds s id m r else [])) fun _ => True := by
  refine meets_beginStep (fun hnot => ?_) (fun _ _ => trivial)
    (fun _ => Attempt.meets_and (beginHeld_holdBegin s (s.arena.mode id) (lexeme s m) r)
      (tallied_holdBegin h id m)) fun data r1 hopens hr1 => ?_
  · rw [if_neg fun hopens => hnot ((opens_iff id).mp hopens), List.append_nil]
    exact tallied_turnDown h
  · rw [if_pos ((opens_iff id).mpr ⟨data, hopens⟩), beginDeeds]
    have hstart := tallied_startMode hr1.2 id m data
    rw [hr1.1.frames, List.append_assoc] at hstart
    exact hstart.congr rfl

theorem tallied_closeFrame (h : Tallied s deeds r) (f : Frame) :
    Tallied s (deeds ++ [.closes f.mode]) (closeFrame s.arena f r) := by
  have hclose : (r.closeMode (s.arena.mode f.mode)).book = r.book := by
    unfold Run.closeMode
    split <;> rfl
  obtain ⟨hhits, hrelevance, hblocks, hnested⟩ := Book.mk.inj hclose
  unfold closeFrame
  simp only
  split
  · rename_i hworthless
    refine h.closes hhits ?_ hblocks hnested
    rw [hrelevance, closedWorth, if_pos hworthless, Nat.add_zero]
  · rename_i hworth
    refine h.closes hhits ?_ hblocks hnested
    show (r.closeMode (s.arena.mode f.mode)).relevance + _ = _
    rw [hrelevance, closedWorth, if_neg hworth]

/-- Modes that close, from the innermost outward. -/
theorem tallied_closeFrames (h : Tallied s deeds r) (n : Nat) (ended : Option Nat) :
    Tallied s (deeds ++ (r.frames.take n).map fun f => .closes f.mode)
      (closeFrames s.arena n ended r).2 := by
  induction n generalizing deeds ended r with
  | zero =>
    rw [List.take_zero, List.map_nil, List.append_nil]
    exact h
  | succ n ih =>
    unfold closeFrames
    cases hf : r.frames with
    | nil =>
      rw [List.take_nil, List.map_nil, List.append_nil]
      exact h
    | cons f rest =>
      have hrest : Tallied s deeds { r with frames := rest } := h.congr rfl
      have hstep := ih (tallied_closeFrame hrest f) (some f.mode)
      rw [frames_closeFrame] at hstep
      rwa [List.take_succ_cons, List.map_cons, List.append_cons]

theorem tallied_holdEnd (h : Tallied s deeds r) (mode : ArenaMode) (m : RuleMatch) :
    (holdEnd s mode m r).Meets (Tallied s (deeds ++ holdEndDeeds s mode m r)) fun _ => True := by
  have hheld : Tallied s deeds
      (if mode.returnEnd || mode.excludeEnd then r else r.hold (lexeme s m)) := by
    split
    · exact h
    · exact h.congr rfl
  unfold holdEndDeeds
  refine meets_holdEnd (fun _ => Attempt.meets_and (flushed_flush s r) (tallied_flush h))
    (fun label hscope r1 hr1 => ?_) (fun labels hscope r1 hr1 => ?_) (fun hscope hskip => ?_)
    (fun _ _ => tallied_flush hheld) fun hscope hskip r1 hr1 => ?_
  · rw [hscope]
    exact hr1.2.congr (book_emitLabelled ..)
  · have hparts := tallied_tellParts hr1.2 m labels
    rw [hr1.1.frames, List.append_assoc] at hparts
    rw [hscope]
    exact hparts.congr rfl
  · simp only [hscope, hskip, if_true, List.append_nil]
    exact h.congr rfl
  · simp only [hscope, hskip, Bool.false_eq_true, if_false]
    exact hr1.congr ((apply_ite Run.book ..).trans (ite_self _))

/-- **An end.** -/
theorem tallied_endStep (h : Tallied s deeds r) (m : RuleMatch) (hends : m.kind = .ends) :
    (endStep s m r).Meets (Tallied s (deeds ++ actDeeds s m r)) fun _ => True := by
  have hasked : ∀ frames, Tallied s deeds { r with frames } := fun _ => h.congr rfl
  have hclosed : ∀ {n : Nat} {frames : List Frame} {r1 : Run},
      (endOf s m r.frames).result = .ok (some n, frames) → r1.frames = frames →
      Tallied s (deeds ++ holdEndDeeds s (s.top { r with frames }) m { r with frames }) r1 →
      Tallied s (deeds ++ holdEndDeeds s (s.top { r with frames }) m { r with frames } ++
          (frames.take n).map fun f => .closes f.mode) (closeFrames s.arena n none r1).2 ∧
        (closeFrames s.arena n none r1).2.frames = frames.drop n ∧
        (closeFrames s.arena n none r1).1.bind (fun id => (s.arena.mode id).starts) =
          startedBy s frames n := by
    rintro n _ r1 ha rfl hr1
    obtain ⟨_, hpos, hn⟩ := facts_of_ended ha
    exact ⟨tallied_closeFrames hr1 n none, frames_closeFrames s.arena n none r1,
      started_closeFrames hpos hn⟩
  unfold actDeeds
  rw [hends]
  simp only
  refine meets_endStep (Attempt.meets_result _) (fun frames ha => ?_)
    (fun n frames _ => Attempt.meets_and (endHeld_holdEnd s _ m { r with frames })
      (tallied_holdEnd (hasked frames) (s.top { r with frames }) m))
    (fun n frames r1 ha hr1 hnone => ?_) fun n frames r1 next ha hr1 hnext => ?_
  · rw [ha]
    simp only [List.append_nil]
    exact h.congr rfl
  · obtain ⟨htallied, _, hstarted⟩ := hclosed ha hr1.1.frames hr1.2
    rw [ha]
    simp only
    rw [endDeeds, ← List.append_assoc, ← List.append_assoc, hstarted.symm.trans hnone]
    exact (List.append_nil _).symm ▸ htallied.congr rfl
  · obtain ⟨htallied, hframes, hstarted⟩ := hclosed ha hr1.1.frames hr1.2
    have hstart := tallied_startMode htallied next m .empty
    rw [hframes] at hstart
    rw [ha]
    simp only
    rw [endDeeds, ← List.append_assoc, ← List.append_assoc, hstarted.symm.trans hnext]
    exact hstart.congr rfl

/-! ## 5. Runs -/

/-- **A step adds its deeds.** -/
theorem tallied_step (h : Tallied s deeds r) (m : RuleMatch) :
    (step s m r).Meets (Tallied s (deeds ++ stepDeeds s m r)) fun _ => True := by
  unfold stepDeeds
  cases hempty : isEmptyMode m r.last with
  | true =>
    rw [step_of_empty hempty, if_pos rfl, List.append_nil]
    split
    · exact Attempt.meets_pure (h.congr rfl)
    · exact Attempt.meets_fail trivial
  | false =>
    have hmet : Tallied s deeds (r.meet s m) := h.congr rfl
    rw [step_of_not_empty hempty, if_neg Bool.false_ne_true]
    unfold act
    split
    · rename_i id hbegins
      unfold actDeeds
      rw [hbegins]
      exact tallied_beginStep hmet id m
    · rename_i hends
      exact tallied_endStep hmet m hends
    · rename_i hillegal
      unfold actDeeds
      rw [hillegal]
      simp only [List.append_nil]
      split
      · exact Attempt.meets_pure (passIllegal_of (hmet.congr rfl) (hmet.congr rfl))
      · exact Attempt.meets_fail trivial

variable {continuation : Option (List Nat)} {n : Nat} {notes : List HookNote}

theorem tallied_of_step {first : Nat} (h : Tallied s deeds r)
    (hl : lookUp s r = .ok (some m, first))
    (hstep : step s m (r.atRule first) = ⟨notes, .ok r'⟩) :
    Tallied s (deeds ++ roundDeeds s r) r' := by
  have hrule : Tallied s deeds (r.atRule first) := h.congr rfl
  have hround : roundDeeds s r = stepDeeds s m (r.atRule first) := by rw [roundDeeds, hl]
  rw [hround]
  exact (tallied_step hrule m).1 r' (by rw [hstep])

/-- **A round adds its deeds**, whether the run goes on after it or not. -/
theorem tallied_turn_next (h : Tallied s deeds r) (hturn : turn s n r = .next notes r') :
    Tallied s (deeds ++ roundDeeds s r) r' := by
  obtain ⟨m, first, hl, hstep, _⟩ := turn_next hturn
  exact tallied_of_step h hl hstep

theorem tallied_turn_last (h : Tallied s deeds r) (hturn : turn s n r = .last notes r') :
    Tallied s (deeds ++ roundDeeds s r) r' := by
  rcases turn_last hturn with ⟨first, hl, _, rfl⟩ | ⟨m, first, hl, hstep, _⟩
  · have hround : roundDeeds s r = [] := by rw [roundDeeds, hl]
    rw [hround, List.append_nil]
    exact h.congr rfl
  · exact tallied_of_step h hl hstep

/-- A run begins with no deeds. -/
theorem tallied_initial (s : Scene) (continuation : Option (List Nat)) :
    Tallied s [] (initial s.arena continuation) := by
  have hfold : ∀ (ids : List Nat) (r : Run),
      (ids.foldl (fun r id => r.openMode s.arena (s.arena.mode id)) r).book = r.book := by
    intro ids
    induction ids with
    | nil => exact fun r => rfl
    | cons id ids ih => exact fun r => (ih _).trans (book_openMode r s.arena _)
  have hcontinued : Continued [] := fun before _ _ heq => by
    cases before with
    | nil => cases heq
    | cons _ _ => cases heq
  have hstart : Tallied s [] (startIn s.arena [s.arena.root]) :=
    ⟨fun _ => rfl, rfl, fun _ => rfl, hcontinued, rfl⟩
  exact hstart.congr (hfold _ _)

theorem lt_maxSteps_of_reached (hr : Reached s continuation n r) : n < maxSteps s := by
  cases hr with
  | start => exact Nat.succ_pos _
  | next _ hturn => exact Nat.lt_of_not_le fun hmax => not_next_of_maxSteps hmax hturn

/-- A round that a run comes to is one of those that it may take. -/
theorem fuel_of_reached (hr : Reached s continuation n r) :
    maxSteps s - n = maxSteps s - (n + 1) + 1 := by
  have := lt_maxSteps_of_reached hr
  omega

/-- **At every point of a run its counters agree with its deeds so far**, and the deeds of the whole run
    go on from there. -/
theorem tallied_reached (hr : Reached s continuation n r) : ∃ deeds, Tallied s deeds r ∧
    runDeeds s continuation = deeds ++ deedsFrom s (maxSteps s - n) n r := by
  induction hr with
  | start => exact ⟨[], tallied_initial s continuation, rfl⟩
  | @next n r r' notes hr hturn ih =>
    obtain ⟨deeds, htallied, hrun⟩ := ih
    refine ⟨_, tallied_turn_next htallied hturn, ?_⟩
    rw [hrun, fuel_of_reached hr, deedsFrom, hturn]
    exact (List.append_assoc ..).symm

/-- The deeds of a run that is over: those of its rounds, and of telling what is left of the text. -/
theorem runDeeds_of_last (hr : Reached s continuation n r) (hturn : turn s (n + 1) r = .last notes r') :
    ∃ deeds, Tallied s deeds (r'.hold (s.text.slice r'.index s.text.size)) ∧
      runDeeds s continuation =
        deeds ++ flushDeeds s (r'.hold (s.text.slice r'.index s.text.size)) := by
  obtain ⟨deeds, htallied, hrun⟩ := tallied_reached hr
  refine ⟨_, (tallied_turn_last htallied hturn).congr rfl, ?_⟩
  rw [hrun, fuel_of_reached hr, deedsFrom, hturn]
  exact (List.append_assoc ..).symm

/-- A text that cannot be told has no deeds. -/
theorem flushDeeds_of_error {f : Fault} (h : (flush s r).result = .error f) : flushDeeds s r = [] := by
  have hblock : ∀ {sub x f}, s.delegate.ask sub r.buffer (r.resumption sub) = some x →
      x.result = .error f → blockOf s r sub r.buffer = none := by
    intro sub x f hask hx
    unfold blockOf
    rw [hask]
    show (if _ then none else x.result.toOption.bind _) = none
    rw [hx]
    exact ite_self _
  unfold flush at h
  unfold flushDeeds
  simp only at h
  split at h
  · rename_i sub hsub
    rw [show (s.top r).subLanguage = some sub from hsub]
    refine (congrArg (fun b => (Option.toList b).map Deed.hands) ?_ :
      _ = (Option.toList none).map Deed.hands)
    unfold tellBlock at h
    split at h
    · cases h
    · cases sub with
      | single name =>
        simp only at h
        split at h
        · cases h
        · rename_i x hask
          exact hblock (show s.delegate.ask (.single name) _ _ = some x from hask)
            (Attempt.result_of_bind_pure_error h)
      | list names => exact hblock rfl (Attempt.result_of_bind_pure_error h)
      | any => exact hblock rfl (Attempt.result_of_bind_pure_error h)
  · cases h

/-- **Each text that a run hands on begins where the last one of its name has ended**, whether the run
    is completed or ended by a fault. -/
theorem continued_runDeeds (s : Scene) (continuation : Option (List Nat)) :
    Continued (runDeeds s continuation) := by
  have hends := ends_scanAll s continuation
  generalize scanAll s continuation = scanned at hends
  cases hends with
  | @broken n r f more notes hr hturn =>
    obtain ⟨deeds, htallied, hrun⟩ := tallied_reached hr
    rw [hrun, fuel_of_reached hr, deedsFrom, hturn]
    exact htallied.continued.append rfl
  | @completed n r r' more notes hr hturn =>
    obtain ⟨deeds, htallied, hrun⟩ := runDeeds_of_last hr hturn
    rw [hrun]
    cases hflushed : (flush s (r'.hold (s.text.slice r'.index s.text.size))).result with
    | ok r1 => exact ((tallied_flush htallied).1 r1 hflushed).continued
    | error f =>
      rw [flushDeeds_of_error hflushed]
      exact htallied.continued.append rfl

/-- **What a run is worth**: a run that is completed is worth what its deeds add, and the nested runs
    that it has told are what its texts have come to. -/
theorem tallied_scanAll (hdone : (scanAll s continuation).fault = none) :
    (scanAll s continuation).relevance = worth s (runDeeds s continuation) ∧
      (scanAll s continuation).events.filterMap nested? =
        (blocksOf (runDeeds s continuation)).map Block.told := by
  have hends := ends_scanAll s continuation
  generalize scanAll s continuation = scanned at hends hdone ⊢
  cases hends with
  | broken notes hr hturn => cases hdone
  | @completed n r r' more notes hr hturn =>
    obtain ⟨deeds, htallied, hrun⟩ := runDeeds_of_last hr hturn
    unfold complete at hdone ⊢
    simp only at hdone ⊢
    split at hdone
    · rename_i more r1 hr1
      have htallied := (tallied_flush htallied).1 r1 (by rw [hr1])
      rw [hrun]
      refine ⟨htallied.relevance, ?_⟩
      rw [List.reverse_cons, List.filterMap_append, List.filterMap_reverse]
      exact (List.append_nil _).trans htallied.spliced
    · cases hdone

end Highlight.Scan
