import Highlight.Proofs.Highlighting.HandedText
import Highlight.Proofs.Scan.Blocks
import Highlight.Proofs.Scan.OpenModes

/-!
# Blocks that go on in the next one

The texts that a run hands to one language are one text in pieces, as long as the modes that hand them
on name the language alike.

* `outcome_of_answered` -- a block of a registered language, and the outcome behind it;
* `blocks_go_on_by_name` -- **where the second of two blocks in one language goes on**;
* `other_name_starts_afresh` -- the same language by another name.
-/

namespace Highlight.Highlighter

open Highlight.Grammar (Language)
open Highlight.Scan (Answered Block Deed blocksOf lastTop runDeeds)

variable {h : Highlighter} {name canonical code : String} {ignoreIllegals : Bool} {arena inner : Arena}
  {depth : Nat} {b b' : Block} {s : Scan.Scene} {before between after : List Deed}

/-! ## 1. One block -/

/-- **A block that was handed to a language by name is what a run in the language has come to**, and
    the modes that are open at its end can be those of the language. -/
theorem outcome_of_answered (hb : Built h)
    (hanswered : Answered (h.sceneOf (h.delegateTo (h.runAt depth)) arena code ignoreIllegals) b)
    (hsub : b.sub = .single name) (hinner : h.language? name = some inner) :
    ∃ o, ((h.runAt depth).at ⟨name, b.text, true, b.resumed⟩).result = .ok o ∧
      b.answer = o.toNested ∧ inner.isValidStack o.top = true := by
  obtain ⟨_, x, hask, hx⟩ := hanswered
  rw [hsub] at hask
  obtain ⟨_, _, rfl⟩ := Option.map_eq_some_iff.mp hask
  obtain ⟨o, ho, hanswer⟩ := Scan.Attempt.result_bind_eq_ok hx
  refine ⟨o, ho, (Except.ok.inj hanswer).symm, ?_⟩
  obtain _ | depth := depth
  · cases ho
  obtain ⟨language, hc⟩ := compiled_of_language? hb hinner
  rw [runAt_succ hinner] at ho
  exact (closed_outcome hc h _ b.text true b.resumed ho).1

/-- A name under which a language is known finds it. -/
theorem language?_of_canonicalName (hb : Built h) (hname : h.canonicalName name = some canonical) :
    ∃ inner, h.language? name = some inner ∧ inner.name = canonical := by
  rcases language?_of_built hb name with ⟨_, hnone⟩ | ⟨inner, _, hinner, hown, _⟩
  · cases hnone.symm.trans hname
  · exact ⟨inner, hinner, Option.some.inj (hown.symm.trans hname)⟩

/-! ## 2. Two blocks -/

/-- **Where the second of two blocks goes on** that follow each other in one language, each handed on
    under a name of it: if the names are the same, the second run begins in just the modes in which
    the first one has ended. If they are not, it begins where the last block before both has ended
    that was handed on under the second name. -/
theorem blocks_go_on_by_name (hb : Built h) (depth : Nat) (arena : Arena) (code : String)
    (ignoreIllegals : Bool) (continuation : Option (List Nat)) {x y : String}
    (hdeeds : runDeeds (h.sceneOf (h.delegateTo (h.runAt depth)) arena code ignoreIllegals)
      continuation = before ++ .hands b :: (between ++ .hands b' :: after))
    (hx : b.sub = .single x) (hy : b'.sub = .single y)
    (hxname : h.canonicalName x = some canonical) (hyname : h.canonicalName y = some canonical)
    (hbetween : ∀ c ∈ blocksOf between, ∀ z, c.sub = .single z → h.canonicalName z ≠ some canonical) :
    ∃ inner o o', h.language? y = some inner ∧ inner.name = canonical ∧
      b.text ≠ "" ∧ ((h.runAt depth).at ⟨x, b.text, true, b.resumed⟩).result = .ok o ∧
      b'.text ≠ "" ∧ ((h.runAt depth).at ⟨y, b'.text, true, b'.resumed⟩).result = .ok o' ∧
      b.answer = o.toNested ∧ b'.answer = o'.toNested ∧
      (x = y → b'.resumed = some o.top ∧ ∀ delegate,
        let s := h.sceneOf delegate inner b'.text true
        s.stack (Scan.initial inner b'.resumed).frames = o.top) ∧
      (x ≠ y → b'.resumed = lastTop y before) := by
  obtain ⟨inner, hinner, hown⟩ := language?_of_canonicalName hb hyname
  have hinnerx : h.language? x = some inner :=
    (language?_congr (hxname.trans hyname.symm)).trans hinner
  have hall := Scan.answered_runDeeds
    (h.sceneOf (h.delegateTo (h.runAt depth)) arena code ignoreIllegals) continuation
  rw [hdeeds] at hall
  have hfirst : Answered (h.sceneOf (h.delegateTo (h.runAt depth)) arena code ignoreIllegals) b :=
    hall b (by simp [blocksOf, Deed.block?])
  have hsecond : Answered (h.sceneOf (h.delegateTo (h.runAt depth)) arena code ignoreIllegals) b' :=
    hall b' (by simp [blocksOf, Deed.block?])
  obtain ⟨o, ho, hanswer, hvalid⟩ := outcome_of_answered hb hfirst hx hinnerx
  obtain ⟨o', ho', hanswer', _⟩ := outcome_of_answered hb hsecond hy hinner
  have hresumed := Scan.resumed_of_deeds hdeeds hx hy fun c hc hsub => hbetween c hc y hsub hyname
  refine ⟨inner, o, o', hinner, hown, hfirst.full, ho, hsecond.full, ho', hanswer, hanswer',
    fun heq => ?_, fun hne => hresumed.trans (if_neg hne)⟩
  have hgoes : b'.resumed = some o.top := by
    rw [hresumed, if_pos heq, hanswer]
    rfl
  refine ⟨hgoes, fun delegate => ?_⟩
  show (h.sceneOf delegate inner b'.text true).stack (Scan.initial inner b'.resumed).frames = o.top
  rw [hgoes]
  exact (Scan.stack_initial (h.sceneOf delegate inner b'.text true) (some o.top)).trans
    (if_pos hvalid)

/-- Whether a run hands on two texts, and closes a mode behind each of them; they pass a test. -/
def handsTwo (s : Scan.Scene) (test : Block → Block → Bool) : Bool :=
  match runDeeds s none with
  | [.hands b, .closes _, .hands b', .closes _] => test b b'
  | _ => false

theorem exists_of_handsTwo {test : Block → Block → Bool} (htest : handsTwo s test = true) :
    ∃ b b' id id', runDeeds s none =
      [] ++ .hands b :: ([.closes id] ++ .hands b' :: [.closes id']) ∧ test b b' = true := by
  unfold handsTwo at htest
  split at htest
  · rename_i b id b' id' hdeeds
    exact ⟨b, b', id, id', hdeeds, htest⟩
  · cases htest

/-- A text in quotes goes on from one block to the next. -/
theorem quoted_block_goes_on : ∃ (h : Highlighter) (arena : Arena) (b b' : Block) (o : Outcome),
    withBlocks wholeLanguage = .ok h ∧ h.language? "outer" = some arena ∧
    b ∈ blocksOf (runDeeds
      (h.sceneOf (h.delegateTo (h.runAt 1)) arena "<\"a><b\">" false) none) ∧
    ((h.runAt 1).at ⟨"inner", "\"a", true, none⟩).result = .ok o ∧
    b'.text = "b\"" ∧ b'.resumed = some o.top := by
  have hcheck : passes (withBlocks wholeLanguage) (fun h => (h.language? "outer").any fun arena =>
      h.canonicalName "inner" == some "inner" &&
      handsTwo (h.sceneOf (h.delegateTo (h.runAt 1)) arena "<\"a><b\">" false) fun b b' =>
        b.sub == .single "inner" && b'.sub == .single "inner" && b.text == "\"a" &&
          b'.text == "b\"" && b.resumed == none) = true := by decide +kernel
  obtain ⟨h, hh, hcheck⟩ := exists_of_passes hcheck
  obtain ⟨arena, harena, hcheck⟩ := (Option.any_eq_true _ _).mp hcheck
  obtain ⟨hname, hcheck⟩ := Bool.and_eq_true_iff.mp hcheck
  obtain ⟨b, b', id, id', hdeeds, htest⟩ := exists_of_handsTwo hcheck
  simp only [Bool.and_eq_true, beq_iff_eq] at hname htest
  obtain ⟨⟨⟨⟨hx, hy⟩, htext⟩, htext'⟩, hfresh⟩ := htest
  obtain ⟨inner, o, o', _, _, _, ho, _, _, _, _, hgoes, _⟩ :=
    blocks_go_on_by_name (built_withBlocks hh) 1 arena _ false none hdeeds hx hy hname hname
      fun c hc => nomatch hc
  rw [htext, hfresh] at ho
  exact ⟨h, arena, b, b', o, hh, harena, by rw [hdeeds]; exact List.mem_cons_self, ho, htext',
    (hgoes rfl).1⟩

/-- A language that hands text on whole to one language by two names. -/
def twoNamesLanguage : Language where
  mode := {
    contains := some [
      .mode ⟨[("angles", 0)], {
        beginPattern := some (.single "<")
        endPattern := some (.single ">")
        excludeBegin := some true
        excludeEnd := some true
        subLanguage := some (.single "inner") }⟩,
      .mode ⟨[("squares", 0)], {
        beginPattern := some (.single "\\[")
        endPattern := some (.single "\\]")
        excludeBegin := some true
        excludeEnd := some true
        subLanguage := some (.single "INNER") }⟩] }

/-- **Under another name a block starts afresh**: a text in quotes that is open at the end of a block
    does not go on in the next one, whose mode writes the name of the language in capitals. -/
theorem other_name_starts_afresh : ∃ h arena b b' id id', withBlocks twoNamesLanguage = .ok h ∧
    h.language? "outer" = some arena ∧ h.canonicalName "INNER" = h.canonicalName "inner" ∧
    h.canonicalName "inner" = some "inner" ∧ b.sub = .single "inner" ∧ b'.sub = .single "INNER" ∧
    runDeeds (h.sceneOf (h.delegateTo (h.runAt 1)) arena "<\"a>[b\"]" false) none =
      [.hands b, .closes id, .hands b', .closes id'] ∧
    b.answer.top = [0, 1] ∧ b'.resumed = none := by
  have hcheck : passes (withBlocks twoNamesLanguage) (fun h => (h.language? "outer").any fun arena =>
      h.canonicalName "INNER" == some "inner" && h.canonicalName "inner" == some "inner" &&
      handsTwo (h.sceneOf (h.delegateTo (h.runAt 1)) arena "<\"a>[b\"]" false) fun b b' =>
        b.sub == .single "inner" && b'.sub == .single "INNER" && b.answer.top == [0, 1] &&
          b'.resumed == none) = true := by decide +kernel
  obtain ⟨h, hh, hcheck⟩ := exists_of_passes hcheck
  obtain ⟨arena, harena, hcheck⟩ := (Option.any_eq_true _ _).mp hcheck
  obtain ⟨hname, hcheck⟩ := Bool.and_eq_true_iff.mp hcheck
  obtain ⟨b, b', id, id', hdeeds, htest⟩ := exists_of_handsTwo hcheck
  simp only [Bool.and_eq_true, beq_iff_eq] at hname htest
  obtain ⟨⟨⟨hx, hy⟩, htop⟩, hfresh⟩ := htest
  exact ⟨h, arena, b, b', id, id', hh, harena, hname.1.trans hname.2.symm, hname.2, hx, hy, hdeeds,
    htop, hfresh⟩

end Highlight.Highlighter
