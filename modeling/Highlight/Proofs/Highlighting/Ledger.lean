import Highlight.Proofs.Highlighting.Delegates
import Highlight.Proofs.Scan.Ledger

/-!
# What an outcome is worth

The relevance of a completed run has three sources: modes that ends close, words of keyword tables, and
nested runs. Each of them counts once.

* `completed_runArena` -- what a completed outcome says of its run;
* `relevance_is_sum_of_deeds` -- **what a completed run is worth**;
* `relevance_of_words_and_blocks` -- a run with all three sources.
-/

namespace Highlight.Highlighter

open Highlight.Grammar (Language)
open Highlight.Scan (blocksOf closedBy hitsOf nested? runDeeds)

variable {h : Highlighter} {name : String} {arena : Arena} {o : Outcome}

/-- A completed outcome says what its run has come to. -/
theorem completed_runArena {delegate : Scan.Delegate} {code : String} {ignoreIllegals : Bool}
    {continuation : Option (List Nat)}
    (ho : (h.runArena delegate arena code ignoreIllegals continuation).result = .ok o)
    (hdone : o.ending = .completed) :
    let scanned := Scan.scanAll (h.sceneOf delegate arena code ignoreIllegals) continuation
    scanned.fault = none ∧ o.relevance = scanned.relevance ∧ o.events = scanned.events := by
  intro scanned
  obtain ⟨_, ⟨hfault, _, hevents⟩ | ⟨f, _, _, _, hending, _⟩⟩ := runArena_ok ho
  · refine ⟨hfault, ?_, hevents⟩
    simp only [runArena, conclude] at ho
    split at ho
    · rename_i f hf
      cases hf.symm.trans hfault
    · cases ho
      rfl
  · exact absurd hdone hending

/-- **What a completed run is worth.** Its relevance is that of the modes that ends have closed, but for
    those that are skipped or hand their text on; of each word, that of as many of its first hits as
    count, wherever in the run they were found; and that of the nested runs that it has told, but for
    those in modes that are worth nothing. -/
theorem relevance_is_sum_of_deeds (harena : h.language? name = some arena) (depth : Nat)
    (code : String) (ignoreIllegals : Bool) (continuation : Option (List Nat))
    (ho : (h.runAt (depth + 1) name code ignoreIllegals continuation).result = .ok o)
    (hdone : o.ending = .completed) :
    let s := h.sceneOf (h.delegateTo (h.runAt depth)) arena code ignoreIllegals
    let deeds := runDeeds s continuation
    o.relevance =
      ((closedBy deeds).map fun id =>
        if (arena.mode id).skip || (arena.mode id).subLanguage.isSome then 0
        else (arena.mode id).relevance).sum +
      (∑ word ∈ ((hitsOf deeds).map (·.word)).toFinset,
        (((hitsOf deeds).filter (·.word == word)).take h.options.maxKeywordHits |>.map
          (·.relevance)).sum) +
      ((blocksOf deeds).map fun block =>
        if 0 < (arena.mode block.mode).relevance then block.answer.relevance else 0).sum ∧
    o.events.filterMap nested? =
      (blocksOf deeds).map fun block => (block.answer.language, block.answer.events) := by
  rw [runAt_succ harena] at ho
  obtain ⟨hfault, hrelevance, hevents⟩ := completed_runArena ho hdone
  obtain ⟨hworth, hnested⟩ := Scan.tallied_scanAll hfault
  exact ⟨hrelevance.trans hworth, hevents ▸ hnested⟩

/-- A language with a word and two kinds of brackets, the text between the latter of which belongs to
    another language. -/
def countedLanguage : Language where
  mode := {
    keywords := some (.words "let")
    contains := some [
      .mode ⟨[("plain", 0)], {
        beginPattern := some (.single "\\[")
        endPattern := some (.single "\\]")
        relevance := some 3 }⟩,
      .mode ⟨[("block", 0)], {
        beginPattern := some (.single "<")
        endPattern := some (.single ">")
        relevance := some 5
        excludeBegin := some true
        excludeEnd := some true
        subLanguage := some (.single "inner") }⟩] }

/-- A word counts once in each run; the block is worth its own word, and not what its mode is worth;
    the bracket that is left open is worth nothing. -/
theorem relevance_of_words_and_blocks : ∃ (h : Highlighter) (arena : Arena) (o : Outcome),
    h.language? "outer" = some arena ∧
    (h.runAt 2 "outer" "let let [a] <in> [b" false none).result = .ok o ∧ o.ending = .completed ∧
    let deeds := runDeeds (h.sceneOf (h.delegateTo (h.runAt 1)) arena "let let [a] <in> [b" false) none
    hitsOf deeds = [⟨"let", 1⟩, ⟨"let", 1⟩] ∧ (closedBy deeds).length = 2 ∧
    (blocksOf deeds).map (·.answer.relevance) = [4] ∧ o.relevance = 3 + 1 + 4 := by
  have hcheck : passes (do
      (← (new { maxKeywordHits := 1 }).register "inner" (.constant { mode := {
        keywords := some (.words "in|4") } })).register "outer" (.constant countedLanguage))
      (fun h => (h.language? "outer").any fun arena =>
        passes (h.runAt 2 "outer" "let let [a] <in> [b" false none).result fun o =>
          let deeds := runDeeds
            (h.sceneOf (h.delegateTo (h.runAt 1)) arena "let let [a] <in> [b" false) none
          o.ending == .completed && hitsOf deeds == [⟨"let", 1⟩, ⟨"let", 1⟩] &&
            ((closedBy deeds).map fun id =>
              if (arena.mode id).skip || (arena.mode id).subLanguage.isSome then 0
              else (arena.mode id).relevance) == [3, 0] &&
            (blocksOf deeds).map (·.answer.relevance) == [4] &&
            ((blocksOf deeds).map fun block =>
              if 0 < (arena.mode block.mode).relevance then block.answer.relevance else 0) == [4] &&
            h.options.maxKeywordHits == 1) = true := by decide +kernel
  obtain ⟨h, _, hcheck⟩ := exists_of_passes hcheck
  obtain ⟨arena, harena, hcheck⟩ := (Option.any_eq_true _ _).mp hcheck
  obtain ⟨o, ho, hcheck⟩ := exists_of_passes hcheck
  simp only [Bool.and_eq_true, beq_iff_eq] at hcheck
  obtain ⟨⟨⟨⟨⟨hdone, hhits⟩, hclosed⟩, hblocks⟩, hhanded⟩, hmax⟩ := hcheck
  obtain ⟨hworth, _⟩ := relevance_is_sum_of_deeds harena 1 _ false none ho hdone
  refine ⟨h, arena, o, harena, ho, hdone, hhits, ?_, hblocks, ?_⟩
  · rw [← List.length_map]
    exact congrArg List.length hclosed
  · rw [hworth, hclosed, hhits, hhanded, hmax]
    rfl

end Highlight.Highlighter
