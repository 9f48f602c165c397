import Highlight.Proofs.Highlighting.Delegation
import Highlight.Proofs.Highlighting.Ledger
import Highlight.Proofs.Highlighting.SafeMode
import Highlight.Proofs.Scan.HandedText

/-!
# Text that is handed on is highlighted directly

The text of a mode that hands it on whole is highlighted as if one had asked for just that text, in
the language that the mode names, from the modes on in which the last text of that name has ended.

* `Direct`, `direct_of_runAt` -- what a run comes to by itself;
* `Spliced`, `spliced_of_handed` -- what a text that is handed on becomes in the run around it;
* `block_is_direct_highlight` -- **each time that such a mode is entered, its text is highlighted
  directly and whole**;
* `quoted_text_goes_on` -- a text in quotes that goes on from one block to the next.
-/

namespace Highlight.Highlighter

open Highlight.Arena (RuleMatch)
open Highlight.Grammar (Language)
open Highlight.Scan (Deed Entered Handed HandsWhole Leaves Run Scene Stays Tallied lastTop runDeeds
  worth)
open Highlight.Token (Event TokenTree)

variable {h : Highlighter} {name sub text : String} {arena inner : Arena} {o direct : Outcome}
  {depth id n : Nat} {resumed : Option (List Nat)} {s : Scene} {before handed : List Deed}
  {told : List Event}

/-! ## 1. Direct outcomes -/

/-- **What a run comes to by itself**, and not inside another. It comes to the same at every depth
    from one on, and at the one that is foreseen for its text, where that is enough. -/
structure Direct (h : Highlighter) (depth : Nat) (c : Call) (direct : Outcome) : Prop where
  deep : ∀ d, depth ≤ d → ((h.runAt d).at c).result = .ok direct
  foreseen : Live (h.highlight c.name c.code c.ignoreIllegals c.continuation) →
    (h.highlight c.name c.code c.ignoreIllegals c.continuation).result = .ok direct
  enough : h.ReadOnce → Live (h.highlight c.name c.code c.ignoreIllegals c.continuation)

/-- What a run comes to at some depth it comes to by itself. -/
theorem direct_of_runAt {c : Call} (ho : ((h.runAt depth).at c).result = .ok direct) :
    Direct h depth c direct := by
  have hlive : Live ((h.runAt depth).at c) := live_of_ok ho
  have hdeep : ∀ d, depth ≤ d → ((h.runAt d).at c).result = .ok direct := fun d hle => by
    rw [answer_runAt hle hlive]
    exact ho
  refine ⟨hdeep, fun hforeseen => ?_, fun hreads => (bounded_iff_live hreads).mp ⟨depth, hlive⟩⟩
  rcases Nat.le_total depth (h.depthFor c.code) with hle | hle
  · exact hdeep _ hle
  · exact (congrArg Scan.Attempt.result (answer_runAt hle hforeseen)).symm.trans ho

/-- The outcome of a run in a registered language bears the language's own name, and leaves no scope
    open. -/
theorem finished_of_runAt (hb : Built h)
    (ho : (h.runAt depth sub text true resumed).result = .ok direct) :
    ∃ canonical, h.canonicalName sub = some canonical ∧ direct.language = some canonical ∧
      (TokenTree.ofEvents direct.events).finish = TokenTree.ofEvents direct.events := by
  obtain _ | depth := depth
  · cases ho
  rcases language?_of_built hb sub with ⟨hnone, _⟩ | ⟨inner, language, hinner, hname, hc⟩
  · simp only [runAt, runIn, hnone] at ho
    cases ho
  · rw [runAt_succ hinner] at ho
    obtain ⟨_, hclosed⟩ := closed_outcome hc h _ text true resumed ho
    have hlabels : (TokenTree.ofEvents direct.events).labels = [] :=
      TokenTree.labels_applyAll .empty direct.events hclosed
    refine ⟨inner.name, hname, language_of_runArena ho, ?_⟩
    rw [TokenTree.finish, List.map_eq_nil_iff.mp hlabels]
    rfl

/-! ## 2. Direct outcomes as nodes -/

/-- **A text is spliced in as it is highlighted directly**: as one node, labelled with the language's
    own name, the children of which are those of the root of the direct outcome. It adds what the
    direct outcome is worth, if the mode is worth something. -/
structure Spliced (h : Highlighter) (depth : Nat) (s : Scene) (id : Nat) (sub text : String)
    (before handed : List Deed) (told : List Event) (direct : Outcome) : Prop where
  directly : Direct h depth ⟨sub, text, true, lastTop sub before⟩ direct
  deed : handed = [.hands ⟨id, .single sub, text, lastTop sub before, direct.toNested⟩]
  node : ∃ canonical, h.canonicalName sub = some canonical ∧
    told = [.nested (some canonical) direct.events] ∧
    ∀ t : TokenTree, t.applyAll told = t.push
      (.scope (some (TokenTree.languageLabel canonical)) (TokenTree.ofEvents direct.events).children)
  adds : worth s (before ++ handed) =
    worth s before + if 0 < (s.arena.mode id).relevance then direct.relevance else 0

/-- **What a highlighter hands on is spliced in**, unless there is no text. -/
theorem spliced_of_handed (hb : Built h)
    (hhanded : Handed { s with delegate := h.delegateTo (h.runAt depth) } id sub text
      (lastTop sub before) handed told) :
    (text = "" ∧ handed = [] ∧ told = []) ∨
      (text ≠ "" ∧ ∃ direct, Spliced h depth s id sub text before handed told direct) := by
  cases hhanded with
  | nothing hempty => exact .inl ⟨hempty, rfl, rfl⟩
  | block hfull hask hx =>
    obtain ⟨inner, hinner, rfl⟩ := Option.map_eq_some_iff.mp hask
    obtain ⟨direct, hdirect, hanswer⟩ := Scan.Attempt.result_bind_eq_ok hx
    cases hanswer
    obtain ⟨canonical, hname, hlanguage, hfinish⟩ := finished_of_runAt hb hdirect
    have hdirectly : Direct h depth ⟨sub, text, true, lastTop sub before⟩ direct :=
      direct_of_runAt hdirect
    refine .inr ⟨hfull, direct, hdirectly, rfl, ⟨canonical, hname, ?_, fun t => ?_⟩,
      Scan.worth_hands s before _⟩
    · show [Event.nested direct.language direct.events] = _
      rw [hlanguage]
    · show t.push (.scope (direct.language.map TokenTree.languageLabel)
        (TokenTree.ofEvents direct.events).finish.children) = _
      rw [hlanguage, hfinish]
      rfl

/-- A delegate knows the languages that are registered. -/
theorem knows_delegateTo {run : Runner} (hinner : h.language? sub = some inner) :
    (h.delegateTo run).Knows sub := fun _ _ => by
  show ((h.language? sub).map _).isSome = true
  rw [hinner]
  rfl

/-! ## 3. Each time that such a mode is entered -/

/-- **Each time that a mode is entered that hands its text on whole, the text is highlighted directly**
    and spliced in once, all of it, from the beginning of the mode to its end, or to the end of the
    text, if no end closes the mode. The run that continues it is the last one before it under the
    same name. Meanwhile, whatever is turned down or passed over, the run tells nothing else. -/
theorem block_is_direct_highlight (hb : Built h) (harena : h.language? name = some arena)
    (depth : Nat) (code : String) (ignoreIllegals : Bool) (continuation : Option (List Nat))
    (ho : (h.runAt (depth + 1) name code ignoreIllegals continuation).result = .ok o)
    (hdone : o.ending = .completed) (hmode : HandsWhole (arena.mode id) sub)
    (hinner : h.language? sub = some inner) {r opened : Run} {m : RuleMatch}
    (hentered : Entered (h.sceneOf (h.delegateTo (h.runAt depth)) arena code ignoreIllegals)
      continuation id n r m opened) :
    let s := h.sceneOf (h.delegateTo (h.runAt depth)) arena code ignoreIllegals
    ∃ k last stop before handed after told more,
      Stays s continuation id n opened k last ∧ Leaves s continuation id k last stop after ∧
      m.span.stop ≤ stop ∧ stop ≤ s.text.size ∧ Tallied s before opened ∧
      runDeeds s continuation = before ++ handed ++ after ∧
      o.relevance = worth s (before ++ handed ++ after) ∧
      o.events = opened.events.reverse ++ told ++ more ∧
      ((s.text.slice m.span.stop stop = "" ∧ handed = [] ∧ told = []) ∨
        (s.text.slice m.span.stop stop ≠ "" ∧ ∃ direct,
          Spliced h depth s id sub (s.text.slice m.span.stop stop) before handed told direct)) := by
  intro s
  rw [runAt_succ harena] at ho
  obtain ⟨hfault, hrelevance, hevents⟩ := completed_runArena ho hdone
  obtain ⟨language, hc⟩ : ∃ language, Arena.compileLanguage arena.name language = .ok arena := by
    rcases language?_of_built hb name with ⟨hnone, _⟩ | ⟨arena', language, harena', _, hc⟩
    · cases hnone.symm.trans harena
    · cases harena'.symm.trans harena
      exact ⟨language, hc⟩
  obtain ⟨hworth, _⟩ := Scan.tallied_scanAll hfault
  obtain ⟨k, last, stop, after, hstays, hleaves, hfrom, hto, before, handed, told, more, hhanded,
    hdeeds, htallied, htold⟩ := Scan.handed_of_entered (s := s) hc hmode (knows_delegateTo hinner)
      hentered hfault
  refine ⟨k, last, stop, before, handed, after, told, more, hstays, hleaves, hfrom, hto, htallied,
    hdeeds, ?_, hevents.trans htold, spliced_of_handed (s := s) hb hhanded⟩
  rw [← hdeeds]
  exact hrelevance.trans hworth

/-- A language that hands the text between angle brackets on whole. -/
def wholeLanguage : Language where
  mode := {
    contains := some [.mode ⟨[("block", 0)], {
      beginPattern := some (.single "<")
      endPattern := some (.single ">")
      relevance := some 2
      excludeBegin := some true
      excludeEnd := some true
      subLanguage := some (.single "inner") }⟩] }

/-- A highlighter in which a language hands text on whole to that of texts in quotes. -/
def withBlocks (outer : Language) : Except Fault Highlighter := do
  (← (new {}).register "inner" (.constant quotedLanguage)).register "outer" (.constant outer)

theorem built_withBlocks {outer : Language} (hh : withBlocks outer = .ok h) : Built h := by
  simp only [withBlocks, bind, Except.bind] at hh
  split at hh
  · cases hh
  · rename_i h1 hh1
    exact .register (.register (.new {}) hh1) hh

/-- A text in quotes that is not closed in a block goes on in the next one. -/
theorem quoted_text_goes_on : ∃ (h : Highlighter) (arena : Arena) (before after : List Deed)
    (direct : Outcome), withBlocks wholeLanguage = .ok h ∧ h.language? "outer" = some arena ∧
    Direct h 1 ⟨"inner", "b\"", true, some [0, 1]⟩ direct ∧
    runDeeds (h.sceneOf (h.delegateTo (h.runAt 1)) arena "<\"a><b\">" false) none =
      before ++ [.hands ⟨1, .single "inner", "b\"", some [0, 1], direct.toNested⟩] ++ after := by
  have hcheck : passes (withBlocks wholeLanguage) (fun h => (h.language? "outer").any fun arena =>
      (h.language? "inner").isSome && passes (h.runAt 2 "outer" "<\"a><b\">" false none).result fun o =>
        let s := h.sceneOf (h.delegateTo (h.runAt 1)) arena "<\"a><b\">" false
        o.ending == .completed && s.text.slice 5 7 == "b\"" && Scan.entersIn s 2 fun id m opened =>
          id == 1 && decide (HandsWhole (arena.mode id) "inner") &&
            opened.blocks.get? "inner" == some [0, 1] && m.span.stop == 5 &&
            ((Scan.lookUp s opened).toOption.any fun found =>
              found.1.any fun m' => m'.span.start == 7) &&
            (Scan.afterRounds? s none 4).any fun r => s.topId r.frames == 0) = true := by decide +kernel
  obtain ⟨h, hh, hcheck⟩ := exists_of_passes hcheck
  obtain ⟨arena, harena, hcheck⟩ := (Option.any_eq_true _ _).mp hcheck
  obtain ⟨hknown, hcheck⟩ := Bool.and_eq_true_iff.mp hcheck
  obtain ⟨inner, hinner⟩ := Option.isSome_iff_exists.mp hknown
  obtain ⟨o, ho, hcheck⟩ := exists_of_passes hcheck
  simp only [Bool.and_eq_true, beq_iff_eq] at hcheck
  obtain ⟨⟨hdone, hslice⟩, hcheck⟩ := hcheck
  obtain ⟨id, r, m, opened, hentered, hcheck⟩ := Scan.exists_of_entersIn hcheck
  simp only [Bool.and_eq_true, beq_iff_eq, decide_eq_true_eq] at hcheck
  obtain ⟨⟨⟨⟨⟨rfl, hmode⟩, hresumed⟩, hstart⟩, hfound⟩, hnext⟩ := hcheck
  obtain ⟨⟨found, first⟩, hl, hstop⟩ := exists_of_any hfound
  obtain ⟨m', rfl, hstop⟩ := (Option.any_eq_true _ _).mp hstop
  obtain ⟨r', hr', htop⟩ := (Option.any_eq_true _ _).mp hnext
  obtain ⟨k, last, stop, before, handed, after, told, more, hstays, hleaves, _, _, htallied, hdeeds,
    _, _, hspliced⟩ := block_is_direct_highlight (built_withBlocks hh) harena 1 _ false none ho hdone
      hmode hinner hentered
  -- One round later the run is in the root again, so it has left the block before that.
  have hopened := hentered.reached.next hentered.next.choose_spec
  have hleft := Scan.stop_of_left hopened hstays hleaves hl (Scan.reached_of_afterRounds? hr')
    (by rw [beq_iff_eq.mp htop]; decide)
  obtain rfl : stop = 7 := hleft.trans (beq_iff_eq.mp hstop)
  have hlast : lastTop "inner" before = some [0, 1] := (htallied.last "inner").symm.trans hresumed
  rw [hstart, hslice] at hspliced
  obtain ⟨hempty, _⟩ | ⟨_, direct, hdirect⟩ := hspliced
  · exact absurd hempty (by decide)
  · have hdirectly := hdirect.directly
    have hdeed := hdirect.deed
    rw [hlast] at hdirectly hdeed
    exact ⟨h, arena, before, after, direct, hh, harena, hdirectly, by rw [hdeeds, hdeed]⟩

end Highlight.Highlighter
