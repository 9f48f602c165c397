import Highlight.Proofs.Highlighting.Outcomes
import Highlight.Proofs.Scan.PlacedText

/-!
# Every character in its scopes, in the tree

* `isSimple`, `of_isSimple` -- languages in which text is where it belongs;
* `tokens_in_their_scopes` -- the tree of a completed run.
-/

namespace Highlight.Highlighter

open Highlight.Arena (ArenaMode ScopeEmit compileLanguage)
open Highlight.Grammar (Language)
open Highlight.Scan (Reached Regular Run Separate TilesParts Turn Under initial lookUp places turn)
open Highlight.Token (TokenTree)
open List (Forall₂)

variable {name : String} {language : Language} {arena : Arena}

/-! ## 1. Languages with single delimiters -/

/-- That a delimiter has no labels by group. -/
def isWhole : Option ScopeEmit → Bool
  | some (.parts _) => false
  | _ => true

/-- A mode with delimiters in one part, and flags that do not contradict each other; it tells its own
    text, and starts no mode. -/
def isSimple (m : ArenaMode) : Bool :=
  isWhole m.beginScope && isWhole m.endScope && !m.skip && m.subLanguage.isNone && m.starts.isNone &&
    !(m.returnBegin && m.excludeBegin) && (!m.returnEnd || !m.excludeEnd && m.endScope.isNone) &&
    (!m.excludeEnd || m.endScope.isNone)

/-- What a language of simple modes is like. -/
theorem of_isSimple {arena : Arena} (hsimple : arena.modes.all isSimple = true) :
    Regular arena ∧ TilesParts arena ∧ Separate arena := by
  have hmode := Arena.mode_all (p := isSimple) rfl hsimple
  simp only [isSimple, Bool.and_eq_true, Bool.or_eq_true, Bool.not_eq_true', Bool.and_eq_false_iff,
    Option.isNone_iff_eq_none] at hmode
  have hbegin : ∀ id labels, (arena.mode id).beginScope ≠ some (.parts labels) := by
    intro id labels hlabels
    have hwhole := (hmode id).1.1.1.1.1.1.1
    rw [hlabels] at hwhole
    cases hwhole
  have hend : ∀ id labels, (arena.mode id).endScope ≠ some (.parts labels) := by
    intro id labels hlabels
    have hwhole := (hmode id).1.1.1.1.1.1.2
    rw [hlabels] at hwhole
    cases hwhole
  refine ⟨⟨fun id hr => ?_, fun id hr => ?_, fun id next _ => hbegin next, fun id _ => hend id,
    fun id _ => hbegin id⟩, ?_, ⟨fun id => ?_, fun id => ?_, fun id he => ?_, fun id next hn => ?_⟩⟩
  · obtain ⟨⟨⟨⟨⟨_, hskip⟩, _⟩, _⟩, hexclude⟩, _⟩ := (hmode id).1
    refine ⟨hskip, hexclude.resolve_left ?_⟩
    rw [hr]
    exact Bool.noConfusion
  · obtain ⟨⟨⟨⟨⟨_, hskip⟩, _⟩, _⟩, _⟩, hreturn⟩ := (hmode id).1
    refine ⟨hskip, hreturn.resolve_left ?_⟩
    rw [hr]
    exact Bool.noConfusion
  · intro id text i first m k _
    exact ⟨fun next labels _ _ hl => absurd hl (hbegin next labels),
      fun labels _ _ hl => absurd hl (hend id labels)⟩
  · exact (hmode id).1.1.1.1.1.2
  · exact (hmode id).1.1.1.1.2
  · refine (hmode id).2.resolve_left ?_
    rw [he]
    exact Bool.noConfusion
  · rw [(hmode id).1.1.1.2] at hn
    cases hn

/-! ## 2. Trees -/

/-- **Every character is in its scopes.** The tree of a completed run has the characters of the text in
    order, each under the scopes of the modes that it belongs to, from the outside in, and perhaps one
    label of its own inside them. -/
theorem tokens_in_their_scopes (hc : compileLanguage name language = .ok arena)
    (hext : language.extensions = []) (hregular : Regular arena) (htiles : TilesParts arena)
    (hseparate : Separate arena) (h : Highlighter) (delegate : Scan.Delegate) (code : String)
    (ignoreIllegals : Bool) (continuation : Option (List Nat)) {o : Outcome}
    (ho : (h.runArena delegate arena code ignoreIllegals continuation).result = .ok o)
    (hdone : o.ending = .completed) :
    ((TokenTree.ofEvents o.events).root.leaves []).map (·.1) = code.toList ∧
    Forall₂ (Under arena) ((TokenTree.ofEvents o.events).root.leaves [])
      (places (h.sceneOf delegate arena code ignoreIllegals) continuation) := by
  have hscene : compileLanguage name language =
      .ok (h.sceneOf delegate arena code ignoreIllegals).arena := hc
  have hundisturbed := Arena.undisturbed_mode hc hext
  have hkeeps : Scan.Keeps (h.sceneOf delegate arena code ignoreIllegals) := by
    intro id sub text n hsub _
    have hnone : (arena.mode id).subLanguage = none := hseparate.subLanguage id
    cases hnone.symm.trans hsub
  rw [TokenTree.leaves_ofEvents (closed_outcome hc h delegate code ignoreIllegals continuation ho).2]
  obtain ⟨_, ⟨hfault, _, hevents⟩ | ⟨_, _, _, _, hending, _⟩⟩ := runArena_ok ho
  · rw [hevents]
    refine ⟨?_, Scan.placed_scanAll hseparate hregular hundisturbed hscene htiles continuation hfault⟩
    rw [Token.map_fst_eventsLeaves,
      (Scan.kept_scanAll hkeeps hregular hundisturbed htiles continuation).1 hfault]
    exact congrArg String.toList (Text.toStr_ofString code)
  · exact absurd hdone hending

/-- A language of blocks that leave out how they begin, and of texts in quotes, which leave out how
    they end, with a keyword. -/
def blockLanguage : Language where
  mode := {
    contains := some [.mode ⟨[("block", 0)], {
      scope := some (.single "block")
      beginPattern := some (.single "\\[")
      endPattern := some (.single "\\]")
      excludeBegin := some true
      keywords := some (.words "if")
      contains := some [.mode ⟨[("text", 0)], {
        scope := some (.single "string")
        beginPattern := some (.single "\"")
        endPattern := some (.single "\"")
        beginScope := some (.single "quote")
        excludeEnd := some true }⟩] }⟩] }

/-- In the language of blocks every character is in its scopes. -/
theorem block_in_its_scopes : ∃ arena o, compileLanguage "block" blockLanguage = .ok arena ∧
    ((new {}).runArena ((new {}).delegateTo ((new {}).runAt 0)) arena "[if \"a\"]b" false none).result =
      .ok o ∧ o.ending = .completed ∧
    Forall₂ (Under arena) ((TokenTree.ofEvents o.events).root.leaves [])
      (places ((new {}).sceneOf ((new {}).delegateTo ((new {}).runAt 0)) arena "[if \"a\"]b" false)
        none) := by
  have hcheck : passes (compileLanguage "block" blockLanguage) (fun arena =>
      arena.modes.all isSimple &&
        passes ((new {}).runArena ((new {}).delegateTo ((new {}).runAt 0)) arena "[if \"a\"]b" false
          none).result fun o => o.ending == .completed) = true := by decide +kernel
  obtain ⟨arena, hc, hcheck⟩ := exists_of_passes hcheck
  simp only [Bool.and_eq_true] at hcheck
  obtain ⟨hsimple, hrun⟩ := hcheck
  obtain ⟨o, ho, hdone⟩ := exists_of_passes hrun
  obtain ⟨hregular, htiles, hseparate⟩ := of_isSimple hsimple
  have hdone' : o.ending = .completed := by simpa using hdone
  exact ⟨arena, o, hc, ho, hdone', (tokens_in_their_scopes hc rfl hregular htiles hseparate (new {})
    _ _ false none ho hdone').2⟩

/-- A language with a label for its root, and brackets whose end is read again. -/
def returnedLanguage : Language where
  mode := {
    scope := some (.single "r")
    contains := some [.mode ⟨[("brackets", 0)], {
      scope := some (.single "x")
      beginPattern := some (.single "<")
      endPattern := some (.single ">")
      returnEnd := some true }⟩] }

/-- The scene of a run over a text in brackets whose end is read again. -/
def returnedScene (arena : Arena) : Scan.Scene :=
  (new {}).sceneOf ((new {}).delegateTo ((new {}).runAt 0)) arena "<a>" false

/-- The run that goes on after a round. -/
def goesOn? : Turn → Option Run
  | .next _ r => some r
  | _ => none

theorem turn_of_goesOn? {t : Turn} {r : Run} (h : goesOn? t = some r) : ∃ notes, t = .next notes r := by
  cases t with
  | next notes r' => exact ⟨notes, by rw [Option.some.inj h]⟩
  | last notes r' => cases h
  | broken notes f => cases h

/-- **An end that is read again stands outside**: it is not under the scope of the mode that it
    closes, and nothing is under that of the root, though both are open when it is found. -/
theorem returned_end_stands_outside : ∃ arena o,
    compileLanguage "returned" returnedLanguage = .ok arena ∧
    Regular arena ∧ TilesParts arena ∧ Separate arena ∧
    ((new {}).runArena ((new {}).delegateTo ((new {}).runAt 0)) arena "<a>" false none).result = .ok o ∧
    o.ending = .completed ∧
    (∃ n r m first, Reached (returnedScene arena) none n r ∧
      (returnedScene arena).stack r.frames = [0, 1] ∧
      (arena.mode 0).scope = some "r" ∧ (arena.mode 1).scope = some "x" ∧
      (arena.mode 1).excludeEnd = false ∧
      lookUp (returnedScene arena) r = .ok (some m, first) ∧ m.kind = .ends ∧
      m.span.start = 2 ∧ m.span.stop = 3) ∧
    (TokenTree.ofEvents o.events).root.leaves [] = [('<', ["x"]), ('a', ["x"]), ('>', [])] := by
  have hcheck : passes (compileLanguage "returned" returnedLanguage) (fun arena =>
      arena.modes.all isSimple &&
      passes ((new {}).runArena ((new {}).delegateTo ((new {}).runAt 0)) arena "<a>" false none).result
        (fun o => o.ending == .completed && (TokenTree.ofEvents o.events).root.leaves [] ==
          [('<', ["x"]), ('a', ["x"]), ('>', [])]) &&
      (goesOn? (turn (returnedScene arena) 1 (initial arena none))).any (fun r =>
        (returnedScene arena).stack r.frames == [0, 1] &&
          (lookUp (returnedScene arena) r).toOption.any fun found =>
            found.1.any fun m => m.kind == .ends && m.span.start == 2 && m.span.stop == 3) &&
      (arena.mode 0).scope == some "r" && (arena.mode 1).scope == some "x" &&
      !(arena.mode 1).excludeEnd) = true := by decide +kernel
  obtain ⟨arena, hc, hcheck⟩ := exists_of_passes hcheck
  simp only [Bool.and_eq_true, beq_iff_eq, Bool.not_eq_true', Option.any_eq_true] at hcheck
  obtain ⟨⟨⟨⟨⟨hsimple, hrun⟩, ⟨r, hturn, hstack, ⟨_, first⟩, hl, m, rfl, ⟨hkind, hstart⟩, hstop⟩⟩,
    hroot⟩, hscope⟩, hexclude⟩ := hcheck
  obtain ⟨o, ho, hout⟩ := exists_of_passes hrun
  simp only [Bool.and_eq_true, beq_iff_eq] at hout
  obtain ⟨hregular, htiles, hseparate⟩ := of_isSimple hsimple
  obtain ⟨notes, hnext⟩ := turn_of_goesOn? hturn
  have hfound : lookUp (returnedScene arena) r = .ok (some m, first) := by
    cases hx : lookUp (returnedScene arena) r with
    | ok found => simpa [hx, Except.toOption] using hl
    | error cause => simp [hx, Except.toOption] at hl
  exact ⟨arena, o, hc, hregular, htiles, hseparate, ho, hout.1,
    ⟨1, r, m, first, .next .start hnext, hstack, hroot, hscope, hexclude, hfound, hkind, hstart, hstop⟩,
    hout.2⟩

end Highlight.Highlighter
