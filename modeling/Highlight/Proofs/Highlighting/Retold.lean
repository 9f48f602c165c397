import Highlight.Proofs.Highlighting.KeptText
import Highlight.Proofs.Scan.Retold

/-!
# Delimiters that are read again

A delimiter that is read again is told once, where it has been read again, unless its mode tells it or
holds it back in the first place. Which flags go together is not looked at for delimiters of one part.

* `told_once_unless_retold` -- **a run tells the text, each of its pieces once, but for the delimiters
  that are told again**;
* `excluded_end_told_twice` -- an end that is read again and left outside.
-/

namespace Highlight.Highlighter

open Highlight.Arena (compileLanguage)
open Highlight.Grammar (Language)
open Highlight.Scan (PlainParts Reached Retells RetellsIn TilesParts lookUp turn)
open Highlight.Token (textsOf)

variable {h : Highlighter} {name : String} {arena : Arena}

/-- **A delimiter that is read again is told once, unless its mode tells it too.** What a round adds to
    the text that is told or held back is the text up to where it leads, which is the start of a
    delimiter that is left to be read again. Only where the mode of that delimiter is skipped, leaves
    it outside or labels it under one label, the round adds the delimiter as well, and goes on before
    it. So a completed run has told the text if and only if no round tells anything again. -/
theorem told_once_unless_retold {n : String} {language : Language}
    (hc : compileLanguage n language = .ok arena) (hext : language.extensions = [])
    (hparts : PlainParts arena) (htiles : TilesParts arena) (hhands : HandsLossless h arena)
    (harena : h.language? name = some arena) (depth : Nat) (code : String) (ignoreIllegals : Bool)
    (continuation : Option (List Nat)) :
    let s := h.sceneOf (h.delegateTo (h.runAt depth)) arena code ignoreIllegals
    (∀ steps r m first notes r', Reached s continuation steps r → lookUp s r = .ok (some m, first) →
      turn s (steps + 1) r = .next notes r' →
      (¬ Retells s m r →
        r'.told ++ r'.buffer = r.told ++ r.buffer ++ s.text.slice r.index r'.index) ∧
      (Retells s m r → r'.index = m.span.start ∧
        r'.told ++ r'.buffer = r.told ++ r.buffer ++ s.text.slice r.index m.span.stop)) ∧
    ∀ o, (h.runAt (depth + 1) name code ignoreIllegals continuation).result = .ok o →
      o.ending = .completed →
      (textsOf o.events = code ↔ ∀ steps, ¬ RetellsIn s continuation steps) := by
  intro s
  have hkeeps := hhands.keeps depth code ignoreIllegals
  have hundisturbed := Arena.undisturbed_mode hc hext
  refine ⟨fun steps r m first notes r' _ hl hturn => ?_, fun o ho hdone => ?_⟩
  · obtain ⟨m', first', hl', hstep, _⟩ := Scan.turn_next hturn
    cases hl.symm.trans hl'
    obtain ⟨hfrom, _, hplain, hagain⟩ :=
      Scan.told_of_handled hkeeps hparts hundisturbed htiles hl hstep
    refine ⟨hplain, fun hretells => ⟨(hagain hretells).1, ?_⟩⟩
    refine (hagain hretells).2.trans ((String.append_assoc ..).trans (congrArg _ ?_))
    exact Text.slice_append _ hfrom (Arena.finds_next hl).ordered
  · rw [runAt_succ harena] at ho
    obtain ⟨_, ⟨hfault, _, hevents⟩ | ⟨f, _, _, _, hending, _⟩⟩ := runArena_ok ho
    · have hiff := Scan.told_iff_never_retells hkeeps hparts hundisturbed htiles hfault
      rw [hevents]
      rwa [show s.text.toStr = code from Text.toStr_ofString code] at hiff
    · exact absurd hdone hending

/-- A language with text between angle brackets, whose end is left outside and is read again. -/
def outsideLanguage : Language where
  mode := {
    contains := some [.mode ⟨[("x", 0)], {
      scope := some (.single "x")
      beginPattern := some (.single "<")
      endPattern := some (.single ">")
      returnEnd := some true
      excludeEnd := some true }⟩] }

/-- A highlighter with this language. -/
def withOutside : Except Fault Highlighter := (new {}).register "outside" (.constant outsideLanguage)

/-- A mode whose delimiters have no labels and that hands no text on. -/
def isUnmarked (m : Arena.ArenaMode) : Bool :=
  m.beginScope.isNone && m.endScope.isNone && m.subLanguage.isNone

/-- It keeps its text together, and hands none on. -/
theorem conditions_of_unmarked (hunmarked : arena.modes.all isUnmarked = true) :
    PlainParts arena ∧ TilesParts arena ∧ HandsLossless h arena := by
  have hmode := Arena.mode_all rfl hunmarked
  simp only [isUnmarked, Bool.and_eq_true, Option.isNone_iff_eq_none] at hmode
  have hunlabelled : Scan.Unlabelled arena := fun id => (hmode id).1
  refine ⟨hunlabelled.plainParts, hunlabelled.tilesParts, fun id sub b hsub => ?_,
    fun id b inner hsub => ?_⟩
  · cases (hmode id).2.symm.trans hsub
  · cases (hmode id).2.symm.trans hsub

/-- An end that is not read yet is told once; one that is left outside and read again is not. -/
theorem outside_end_told_again : ∃ (h : Highlighter) (arena : Arena) (o : Outcome),
    h.language? "outside" = some arena ∧
    (h.runAt 1 "outside" "<a" false none).result = .ok o ∧ o.ending = .completed ∧
    textsOf o.events = "<a" ∧
    (∀ steps, ¬ RetellsIn (h.sceneOf (h.delegateTo (h.runAt 0)) arena "<a" false) none steps) ∧
    ∃ steps, RetellsIn (h.sceneOf (h.delegateTo (h.runAt 0)) arena "<a>b" false) none steps := by
  have hcheck : passes withOutside (fun h =>
      (h.registered.entries.all fun e => e.2.arena.modes.all isUnmarked) &&
        (h.language? "outside").isSome &&
        passes (h.runAt 1 "outside" "<a" false none).result (fun o =>
          o.ending == .completed && textsOf o.events == "<a") &&
        passes (h.runAt 1 "outside" "<a>b" false none).result fun o =>
          o.ending == .completed && textsOf o.events != "<a>b") = true := by decide +kernel
  obtain ⟨h, hh, hcheck⟩ := exists_of_passes hcheck
  simp only [Bool.and_eq_true] at hcheck
  obtain ⟨⟨⟨hunmarked, hsome⟩, hopen⟩, hended⟩ := hcheck
  obtain ⟨arena, harena⟩ := Option.isSome_iff_exists.mp hsome
  have hall : AllRegistered h fun arena => ∃ n, compileLanguage n outsideLanguage = .ok arena :=
    allRegistered_register (allRegistered_new _ _) (fun arena ha => ⟨_, ha⟩) hh
  have hunmarkeds : AllRegistered h fun arena => arena.modes.all isUnmarked = true := fun e he =>
    List.all_eq_true.mp hunmarked e he
  obtain ⟨n, hc⟩ := hall.language? harena
  obtain ⟨hparts, htiles, hhands⟩ := conditions_of_unmarked (h := h) (hunmarkeds.language? harena)
  obtain ⟨o, ho, hout⟩ := exists_of_passes hopen
  obtain ⟨o', ho', hout'⟩ := exists_of_passes hended
  simp only [Bool.and_eq_true, beq_iff_eq, bne_iff_ne] at hout hout'
  have honce := (told_once_unless_retold hc rfl hparts htiles hhands harena 0 "<a" false none).2
    o ho hout.1
  have htwice := (told_once_unless_retold hc rfl hparts htiles hhands harena 0 "<a>b" false none).2
    o' ho' hout'.1
  refine ⟨h, arena, o, harena, ho, hout.1, hout.2, honce.mp hout.2, ?_⟩
  by_contra hnever
  exact hout'.2 (htwice.mpr fun steps hretells => hnever ⟨steps, hretells⟩)

/-- **An end that is left outside and read again is told twice**: where it is held back for the text
    behind its mode, and where it is read again. -/
theorem excluded_end_told_twice : ∃ (h : Highlighter) (o : Outcome), withOutside = .ok h ∧
    (h.highlight "outside" "<a>b" false none).result = .ok o ∧ o.ending = .completed ∧
    textsOf o.events = "<a>>b" := by
  have hcheck : passes withOutside (fun h =>
      passes (h.highlight "outside" "<a>b" false none).result fun o =>
        o.ending == .completed && textsOf o.events == "<a>>b") = true := by decide +kernel
  obtain ⟨h, hh, hcheck⟩ := exists_of_passes hcheck
  obtain ⟨o, ho, hout⟩ := exists_of_passes hcheck
  simp only [Bool.and_eq_true, beq_iff_eq] at hout
  exact ⟨h, o, hh, ho, hout.1, hout.2⟩

end Highlight.Highlighter
