import Highlight.Proofs.Arena.Folded
import Highlight.Proofs.Highlighting.Likeness
import Highlight.Proofs.Registry.Built

/-!
# Letter case

In a language that is blind to letter case, two texts that differ in the case of letters of ASCII only
come to the same.

* `caseless` -- what an observer looks at who does not see letter case;
* `Arena.Hookless` -- languages without hooks;
* `sameArena_caseless` -- such a language is the same to that observer whatever the case;
* `SameButCase` -- outcomes that differ in the case of letters only;
* `letter_case_is_not_seen` -- every call comes to such outcomes.
-/

namespace Highlight.Arena

/-- No mode of a language calls a hook. -/
def Hookless (arena : Arena) : Prop :=
  ∀ id, (arena.mode id).onBegin = none ∧ (arena.mode id).onEnd = none

theorem hookless_of_all {arena : Arena}
    (hall : arena.modes.all (fun m => m.onBegin.isNone && m.onEnd.isNone) = true) :
    arena.Hookless := by
  intro id
  have hmode := Bool.and_eq_true_iff.mp (mode_all rfl hall id)
  exact ⟨Option.isNone_iff_eq_none.mp hmode.1, Option.isNone_iff_eq_none.mp hmode.2⟩

theorem caseInsensitive_of_compileLanguage {name : String} {l : Grammar.Language} {arena : Arena}
    (hc : compileLanguage name l = .ok arena) : arena.caseInsensitive = l.caseInsensitive := by
  obtain ⟨_, _, hc⟩ := exists_of_bind hc
  cases hc
  rfl

end Highlight.Arena

namespace Highlight.Highlighter

open Highlight.Arena (compileLanguage EngineBlind FoldedMode)
open Highlight.Grammar (Language)
open Highlight.Scan (Leeway)
open Highlight.Scan.Leeway
open Highlight.Text (SameLetters)
open Highlight.Token (Guise TokenTree)

variable {h : Highlighter} {name : String} {language : Language} {arena : Arena}

/-! ## 1. Whoever does not see letter case -/

/-- Everything counts but the case of letters of ASCII. -/
def caseless : Leeway where
  letter := Char.toLower
  label := id
  size c := Text.utf8Size_congr (Text.toLower_toLower c)
  dot c := Text.eq_iff_of_not_isAlpha (by decide) (Text.toLower_toLower c)
  scored := True
  pardons _ := False

/-- A mode whose patterns ignore case is the same whatever the case of a text. -/
theorem sameMode_caseless (hblind : EngineBlind arena) {id : Nat}
    (hm : FoldedMode (arena.mode id)) (hhooks : arena.Hookless) :
    caseless.SameMode (arena.mode id) (arena.mode id) where
  same := ⟨_, _, rfl⟩
  relevance _ := rfl
  keywords := by
    cases hk : (arena.mode id).keywords with
    | none => exact .none
    | some k =>
      have hfolds := hm.tables k hk
      refine .some ⟨fun ht => Arena.identifiers_congr hblind hm ht hk, fun hw => ?_, fun hw => ?_⟩
      · rw [hfolds]
        exact Arena.spell_congr hw
      · rw [Arena.find?_congr hfolds hw]
        cases k.table.find? _ with
        | none => exact .none
        | some e => exact .some ⟨rfl, fun _ => rfl⟩
  next ht i first := Arena.next_congr hblind hm ht i first
  ends ht re hre i := by rw [Arena.ends_congr hblind hm ht hre]
  onBegin hook hhook := by cases (hhooks id).1.symm.trans hhook
  onEnd hook hhook := by cases (hhooks id).2.symm.trans hhook

/-- **A language that is blind to letter case is the same whatever the case of a text.** -/
theorem sameArena_caseless (hc : compileLanguage name language = .ok arena)
    (hcase : language.caseInsensitive = true) (hblind : EngineBlind arena)
    (hhooks : arena.Hookless) : caseless.SameArena arena arena where
  name := rfl
  root := rfl
  size := rfl
  modes id := sameMode_caseless hblind (Arena.foldedMode_of_compileLanguage hc hcase id) hhooks
  aliases _ := rfl

/-! ## 2. Outcomes -/

/-- **Two outcomes differ in the case of letters only.** Their trees have the same shape and the same
    labels over the same bytes; and they agree in what they are worth, in the modes that are open at
    the end, and in how they have ended: where something forbidden stands and which mode forbids it,
    or which fault the run has met. -/
structure SameButCase (o o' : Outcome) : Prop where
  language : o'.language = o.language
  relevance : o'.relevance = o.relevance
  top : o'.top = o.top
  illegal : o'.illegalBy?.map (fun p => (p.index, p.mode)) =
    o.illegalBy?.map fun p => (p.index, p.mode)
  fault : Option.Rel caseless.SameFault o.fault? o'.fault?
  shape : (TokenTree.ofEvents o'.events).root.recast Char.toLower id =
    (TokenTree.ofEvents o.events).root.recast Char.toLower id
  places : (TokenTree.ofEvents o'.events).root.placed 0 = (TokenTree.ofEvents o.events).root.placed 0

variable {code code' : String}

theorem utf8ByteSize_congr (hcode : SameLetters code.toList code'.toList) :
    code'.utf8ByteSize = code.utf8ByteSize := by
  have hsize : ∀ c : Char, c.toLower.utf8Size = c.utf8Size := caseless.size
  rw [← Token.byteSize_recastString hsize code', ← Token.byteSize_recastString hsize code]
  unfold Token.recastString
  rw [show code'.toList.map Char.toLower = _ from hcode]

/-- What is forbidden stands at the same place, and is forbidden by the same mode. -/
theorem illegalBy_congr (hcode : SameLetters code.toList code'.toList) {f f' : Fault}
    (hf : caseless.SameFault f f') :
    (IllegalBy.ofFault f' code').index = (IllegalBy.ofFault f code).index ∧
      (IllegalBy.ofFault f' code').mode = (IllegalBy.ofFault f code).mode := by
  refine ⟨?_, ?_⟩
  · show min f'.position.offset code'.utf8ByteSize = min f.position.offset code.utf8ByteSize
    rw [hf.position, utf8ByteSize_congr hcode]
  · obtain ⟨cause, position⟩ := f
    obtain ⟨cause', position'⟩ := f'
    cases (show caseless.SameCause cause cause' from hf.cause) <;> rfl

theorem sameButCase_of_sameOutcome (hcode : SameLetters code.toList code'.toList) {o o' : Outcome}
    (ho : caseless.SameOutcome code code' o o') : SameButCase o o' := by
  have hshape : (TokenTree.ofEvents o'.events).root.recast Char.toLower id =
      (TokenTree.ofEvents o.events).root.recast Char.toLower id := Guise.recast_root ho.events
  obtain ⟨hlanguage, hending, hrelevance, _, htop⟩ := ho
  refine ⟨hlanguage, hrelevance trivial, htop, ?_, ?_, hshape, ?_⟩
  · unfold Outcome.illegalBy?
    generalize o.ending = e at hending ⊢
    generalize o'.ending = e' at hending ⊢
    cases hending with
    | completed => rfl
    | failed _ => rfl
    | illegal hf =>
      obtain ⟨hindex, hmode⟩ := illegalBy_congr hcode hf
      simp only [Option.map_some, hindex, hmode]
  · unfold Outcome.fault?
    generalize o.ending = e at hending ⊢
    generalize o'.ending = e' at hending ⊢
    cases hending with
    | completed => exact .none
    | failed hf => exact .some hf
    | illegal _ => exact .none
  · rw [← Token.placed_recast caseless.size 0 (TokenTree.ofEvents o.events).root,
      ← Token.placed_recast caseless.size 0 (TokenTree.ofEvents o'.events).root]
    exact congrArg _ hshape

/-! ## 3. Calls -/

/-- **Languages that are blind to letter case do not see it.** In such a language without hooks, whose
    modes hand no text on, texts that differ in the case of letters of ASCII only come to outcomes
    that differ in that only, or to faults that do: for every text, every mode to begin in, and all
    options, if the engine does not see letter case where it is told to ignore it. -/
theorem letter_case_is_not_seen (hb : Built h) (hl : h.language? name = some arena)
    (hcase : arena.caseInsensitive = true) (hhooks : arena.Hookless)
    (hsub : arena.HandsNothingOn) (hblind : EngineBlind arena)
    (hcode : SameLetters code.toList code'.toList) (ignoreIllegals : Bool)
    (continuation : Option (List Nat)) :
    caseless.SameResult SameButCase
      (h.highlight name code ignoreIllegals continuation).result
      (h.highlight name code' ignoreIllegals continuation).result := by
  obtain ⟨language, hc⟩ : ∃ language, compileLanguage arena.name language = .ok arena := by
    rcases language?_of_built hb name with ⟨hnone, _⟩ | ⟨arena', language, hl', _, hc⟩
    · cases hnone.symm.trans hl
    · cases hl'.symm.trans hl
      exact ⟨language, hc⟩
  have hinsensitive : language.caseInsensitive = true :=
    (Arena.caseInsensitive_of_compileLanguage hc).symm.trans hcase
  obtain ⟨d, hd⟩ := exists_runArena hl code
  obtain ⟨d', hd'⟩ := exists_runArena hl code'
  rw [hd, hd']
  have hs : caseless.SameScene (h.sceneOf d arena code ignoreIllegals)
      (h.sceneOf d' arena code' ignoreIllegals) := {
    arena := sameArena_caseless hc hinsensitive hblind hhooks
    text := hcode
    floor := rfl
    ratio := rfl
    hits := fun _ => rfl
    guard := .inl rfl
    illegals := .inl rfl
    delegate := fun id sub hid => by cases hid.symm.trans (hsub id) }
  have hagrees := agrees_mono (Leeway.agrees_runArena hs rfl (fun _ hf => hf) continuation)
    fun _ _ => sameButCase_of_sameOutcome hcode
  rcases hagrees with ⟨_, _, hpardon⟩ | ⟨_, hresult⟩
  · cases hpardon
  · exact hresult

/-- A language that is blind to letter case, with keywords, and blocks that forbid a word. -/
def caselessLanguage : Language where
  caseInsensitive := true
  mode := {
    keywords := some (.words "let kiss")
    contains := some [.mode ⟨[("block", 0)], {
      scope := some (.single "block")
      beginPattern := some (.single "begin\\b")
      endPattern := some (.single "\\bend")
      keywords := some (.words "for")
      illegal := some (.single "goto") }⟩] }

/-- A block and its keywords in one case and in another. -/
theorem blocks_in_either_case : ∃ h arena x y,
    (new {}).register "l" (.constant caselessLanguage) = .ok h ∧
    h.language? "l" = some arena ∧ arena.caseInsensitive = true ∧ arena.Hookless ∧
    arena.HandsNothingOn ∧ EngineBlind arena ∧
    (h.highlight "l" "LET x Begin For enD" false none).result = .ok x ∧
    (h.highlight "l" "let X bEGIN foR End" false none).result = .ok y ∧
    (TokenTree.ofEvents x.events).toHtml "" =
      "<span class=\"keyword\">LET</span> x " ++
        "<span class=\"block\">Begin <span class=\"keyword\">For</span> enD</span>" ∧
    SameButCase x y := by
  have hcheck : passes ((new {}).register "l" (.constant caselessLanguage)) (fun h =>
      (h.language? "l").any (fun arena => arena.caseInsensitive &&
        arena.modes.all (fun m => m.onBegin.isNone && m.onEnd.isNone) &&
        arena.modes.all (·.subLanguage.isNone) &&
        arena.modes.all fun m => (Arena.handedOver m).all Arena.comesToCaseless) &&
      passes (h.highlight "l" "LET x Begin For enD" false none).result fun x =>
        (TokenTree.ofEvents x.events).toHtml "" ==
          "<span class=\"keyword\">LET</span> x " ++
            "<span class=\"block\">Begin <span class=\"keyword\">For</span> enD</span>") = true := by
    decide +kernel
  obtain ⟨h, hh, hcheck⟩ := exists_of_passes hcheck
  obtain ⟨hlanguage, hrun⟩ := Bool.and_eq_true_iff.mp hcheck
  obtain ⟨arena, hl, harena⟩ := (Option.any_eq_true _ _).mp hlanguage
  simp only [Bool.and_eq_true] at harena
  obtain ⟨⟨⟨hcase, hhooks⟩, hplain⟩, hcaseless⟩ := harena
  obtain ⟨x, hx, hhtml⟩ := exists_of_passes hrun
  have hhooks := Arena.hookless_of_all hhooks
  have hsub := Arena.handsNothingOn_of_all hplain
  have hblind := Arena.engineBlind_of_all hcaseless
  have hcode : SameLetters "LET x Begin For enD".toList "let X bEGIN foR End".toList := by
    decide +kernel
  have hresult := letter_case_is_not_seen (.register (.new {}) hh) hl hcase hhooks hsub hblind
    hcode false none
  rw [hx] at hresult
  generalize hy : (h.highlight "l" "let X bEGIN foR End" false none).result = y at hresult
  cases hresult with
  | ok hsame =>
    exact ⟨h, arena, x, _, hh, hl, hcase, hhooks, hsub, hblind, hx, hy, by simpa using hhtml, hsame⟩

end Highlight.Highlighter
