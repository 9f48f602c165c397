import Highlight.Proofs.Arena.Lockstep
import Highlight.Proofs.Dictionaries
import Highlight.Proofs.Highlighting.Answers
import Highlight.Proofs.Highlighting.Likeness

/-!
# Scores

What modes and keywords are worth, and how often a keyword counts, decides what a run is worth, and
nothing else. The one place where a score is read as something else is the list of words that a mode
begins with: these are put into a pattern as they are written, with their scores.

* `unscored`, `sameArena_unscored` -- what an observer looks at who does not ask for scores;
* `RescoredLanguages` -- highlighters whose languages are the same but for scores;
* `SameButScore` -- outcomes that differ in what they are worth only;
* `unscored_runAt` -- runs inside runs;
* `scores_only_score` -- every call comes to the same but for its score;
* `SameBegins`, `score_read_as_word` -- words to begin with that have other scores, and what comes of
  it.
-/

namespace Highlight.Arena

/-- Every mode of a language that hands its text on hands it to one language, by its name. -/
def HandsOnByName (arena : Arena) : Prop :=
  ∀ id, ∀ sub ∈ (arena.mode id).subLanguage, ∃ name, sub = .single name

/-- Whether the text is handed to one language, by its name. -/
def isByName : Grammar.SubLanguage → Bool
  | .single _ => true
  | _ => false

theorem handsOnByName_of_all {arena : Arena}
    (hall : arena.modes.all (·.subLanguage.all isByName) = true) : arena.HandsOnByName := by
  intro id sub hsub
  have hnamed := mode_all rfl hall id
  rw [Option.mem_def.mp hsub] at hnamed
  cases sub with
  | single name => exact ⟨name, rfl⟩
  | list names => cases hnamed
  | any => cases hnamed

/-- Compiled languages that are the same but for scores have the same modes but for scores. -/
theorem RescoredArena.mode {arena arena' : Arena} (h : RescoredArena arena arena') (id : Nat) :
    RescoredMode (arena.mode id) (arena'.mode id) ∨ arena'.mode id = arena.mode id := by
  have hsize : arena'.modes.size = arena.modes.size := by simpa using h.modes.length_eq.symm
  by_cases hid : id < arena.modes.size
  · have hmodes := (List.forall₂_iff_get.mp h.modes).2 id (by simpa using hid)
      (by simpa [hsize] using hid)
    refine .inl ?_
    simpa [Arena.mode, Array.getD, hid, hsize] using hmodes
  · refine .inr ?_
    simp [Arena.mode, Array.getD, hid, hsize]

end Highlight.Arena

namespace Highlight.Highlighter

open Highlight.Arena (RescoredArena RescoredBy RescoredMode RescoredLanguage SameTables
  compileLanguage rescored_compileLanguage)
open Highlight.Grammar (Language SubLanguage)
open Highlight.Scan (Attempt Leeway)
open Highlight.Scan.Leeway
open Highlight.Token (Sink TokenTree)

variable {h h' : Highlighter} {arena arena' : Arena} {words : String → String → Prop}

/-! ## 1. Whoever does not ask for scores -/

/-- Everything counts but scores. -/
def unscored : Leeway := .exact False fun _ => False

theorem sameMode_unscored {m m' : Arena.ArenaMode} (h : RescoredMode m m') :
    unscored.SameMode m m' := by
  obtain ⟨⟨relevance, keywords, rfl⟩, hkeywords⟩ := h
  refine sameMode_of_plain (fun _ => rfl) (fun hscored => hscored.elim) ?_
  generalize m.keywords = k at hkeywords ⊢
  cases (show Option.Rel SameTables k keywords from hkeywords) with
  | none => exact .none
  | some hk =>
    refine .some (sameKeywords_of_plain (fun _ => rfl) hk.regex hk.caseInsensitive fun word => ?_)
    have hfinds := hk.finds word
    revert hfinds
    generalize Keyword.Table.find? _ word = e
    generalize Keyword.Table.find? _ word = e'
    intro hfinds
    cases hfinds with
    | none => exact .none
    | some he => exact .some ⟨he, fun hscored => hscored.elim⟩

/-- **Languages that are the same but for scores are the same to whoever does not ask for them.** -/
theorem sameArena_unscored (h : RescoredArena arena arena') : unscored.SameArena arena arena' where
  name := h.name
  root := h.root
  size := by simpa using h.modes.length_eq.symm
  modes id := by
    rcases h.mode id with hmode | hmode
    · exact sameMode_unscored hmode
    · rw [hmode]
      exact .of_plain (fun _ => rfl) _
  aliases scope := by
    unfold Arena.scopeAlias
    rw [h.aliases]
    rfl

/-! ## 2. Highlighters -/

/-- Under one name stand languages that were the same but for scores before they were compiled. -/
def RescoredEntry (words : String → String → Prop) (e e' : String × Registration) : Prop :=
  e'.1 = e.1 ∧ ∃ l l' : Language, RescoredLanguage words l l' ∧
    compileLanguage e.1 l = .ok e.2.arena ∧ compileLanguage e.1 l' = .ok e'.2.arena

/-- **Two highlighters are the same but for scores**: those of their languages, and how often a
    keyword counts. `words` says what becomes of the words that a mode begins with. -/
structure RescoredLanguages (words : String → String → Prop) (h h' : Highlighter) : Prop where
  registered : List.Forall₂ (RescoredEntry words) h.registered.entries h'.registered.entries
  aliases : h'.aliases = h.aliases
  options : h'.options = { h.options with maxKeywordHits := h'.options.maxKeywordHits }

/-- **A name stands for languages that are the same but for scores.** -/
theorem RescoredLanguages.language? (hr : RescoredLanguages Eq h h') (name : String) :
    Option.Rel RescoredArena (h.language? name) (h'.language? name) := by
  have hfound : ∀ name, Option.Rel (fun r r' => RescoredEntry Eq (name, r) (name, r'))
      (h.registered.get? name) (h'.registered.get? name) :=
    fun name => rel_valueOf? (fun _ _ he => he.1) hr.registered name
  have hcontains : h'.registered.contains = h.registered.contains :=
    funext fun name => isSome_of_rel (hfound name)
  rw [language?_eq_map, language?_eq_map, canonicalName_congr hcontains hr.aliases]
  cases h.canonicalName name with
  | none => exact .none
  | some canonical =>
    refine rel_map (f := (·.arena)) (g := (·.arena)) (hfound canonical) fun r r' he => ?_
    obtain ⟨_, l, l', hl, hc, hc'⟩ := he
    exact rescored_compileLanguage hl hc hc'

theorem rescoredLanguages_new (words : String → String → Prop) (options : Options) (n : Nat) :
    RescoredLanguages words (new options) (new { options with maxKeywordHits := n }) :=
  ⟨.nil, rfl, rfl⟩

/-- **Registering languages that are the same but for scores** keeps highlighters so. -/
theorem RescoredLanguages.register (hr : RescoredLanguages words h h') {name : String}
    {l l' : Language} (hl : RescoredLanguage words l l') {later later' : List Language}
    {g g' : Highlighter} (hg : h.register name ⟨l, later⟩ = .ok g)
    (hg' : h'.register name ⟨l', later'⟩ = .ok g') : RescoredLanguages words g g' := by
  obtain ⟨arena, hc, hg⟩ := exists_of_bind hg
  obtain ⟨arena', hc', hg'⟩ := exists_of_bind hg'
  cases hg
  cases hg'
  refine ⟨forall₂_insertEntry (fun _ _ he => he.1) hr.registered ⟨rfl, l, l', hl, hc, hc'⟩, ?_,
    hr.options⟩
  have haliases : arena'.aliases = arena.aliases := by
    rw [(Arena.header_of_compileLanguage hc).1, (Arena.header_of_compileLanguage hc').1, hl.same]
  show List.foldl _ h'.aliases arena'.aliases = List.foldl _ h.aliases arena.aliases
  rw [haliases, hr.aliases]

/-- Two outcomes, and what is written for them, differ in what they are worth only. -/
structure SameButScore (h h' : Highlighter) (code : String) (o o' : Outcome) : Prop where
  eq : o' = { o with relevance := o'.relevance }
  written : ∀ sink : Sink, o'.write sink h'.options code = o.write sink h.options code

theorem SameOutcome.sameButScore (hr : RescoredLanguages Eq h h') {code : String} {o o' : Outcome}
    (ho : unscored.SameOutcome code code o o') : SameButScore h h' code o o' := by
  have heq : o' = { o with relevance := o'.relevance } := by
    obtain ⟨hlanguage, hending, _, hevents, htop⟩ := ho
    have hending := hending.eq fun _ => rfl
    have hevents := Token.Guise.SameEvents.eq (fun _ => rfl) (fun _ => rfl) hevents
    cases o
    cases o'
    simp_all
  refine ⟨heq, fun sink => ?_⟩
  rw [heq, hr.options]
  rfl

/-! ## 3. Runs -/

/-- What is handed on comes to the same but for its score. -/
theorem sameDelegate_unscored (hr : RescoredLanguages Eq h h') {run run' : Runner}
    (hrun : ∀ name code ignoreIllegals continuation, unscored.Agrees (unscored.SameOutcome code code)
      (run name code ignoreIllegals continuation) (run' name code ignoreIllegals continuation))
    (name : String) :
    unscored.SameDelegate (h.delegateTo run) (h'.delegateTo run') (.single name) where
  labels _ := rfl
  single name' _ _ u hu stack := by
    obtain rfl := hu.eq fun _ => rfl
    refine rel_map (hr.language? name') fun _ _ _ => ?_
    refine agrees_bind (hrun name' u true stack) fun o o' ho => agrees_pure ?_
    exact ⟨ho.language, Token.Guise.SameEvents.eq (fun _ => rfl) (fun _ => rfl) ho.events, ho.top,
      fun hscored => hscored.elim⟩
  best hnone := absurd rfl (hnone name)

/-- **Every run comes to the same but for its score**, however deep. -/
theorem unscored_runAt (hr : RescoredLanguages Eq h h')
    (hsub : h.AllRegistered Arena.HandsOnByName) : ∀ (depth : Nat) (name code : String)
      (ignores : Bool) (continuation : Option (List Nat)),
      unscored.Agrees (unscored.SameOutcome code code)
        (h.runAt depth name code ignores continuation)
        (h'.runAt depth name code ignores continuation)
  | 0, _, _, _, _ => agrees_fail (.refl _)
  | depth + 1, name, code, ignores, continuation => by
      show unscored.Agrees _ (h.runIn _ name code ignores continuation)
        (h'.runIn _ name code ignores continuation)
      unfold runIn
      have hlanguage := hr.language? name
      generalize hl : h.language? name = a at hlanguage ⊢
      generalize h'.language? name = a' at hlanguage ⊢
      cases hlanguage with
      | none => exact agrees_fail (.refl _)
      | some harena =>
        refine Leeway.agrees_runArena ?_ (by rw [hr.options]) (fun _ hf => hf) continuation
        exact {
          arena := sameArena_unscored harena
          text := rfl
          floor := by rw [sceneOf, hr.options]; rfl
          ratio := by rw [sceneOf, hr.options]; rfl
          hits := fun hscored => hscored.elim
          guard := .inl (by rw [sceneOf, hr.options]; rfl)
          illegals := .inl rfl
          delegate := fun id sub hid => by
            obtain ⟨name, rfl⟩ := hsub.language? hl id sub hid
            exact sameDelegate_unscored hr (unscored_runAt hr hsub depth) name }

/-! ## 4. Calls -/

/-- **Scores only score.** Two highlighters that are the same but for what modes and keywords are
    worth and how often a keyword counts, and whose modes hand text on by name only, answer every
    call alike, with the same notes, or the same fault, or outcomes that differ in what they are
    worth only. The words that modes begin with have to be the same, with their scores. -/
theorem scores_only_score (hr : RescoredLanguages Eq h h')
    (hsub : h.AllRegistered Arena.HandsOnByName) (name code : String) (ignoreIllegals : Bool)
    (continuation : Option (List Nat)) :
    let x := h.highlight name code ignoreIllegals continuation
    let y := h'.highlight name code ignoreIllegals continuation
    y.notes = x.notes ∧ Attempt.SameResult (SameButScore h h' code) x.result y.result := by
  have hdepth : h'.depthFor code = h.depthFor code := by
    unfold depthFor Dictionary.size
    rw [← hr.registered.length_eq]
  unfold highlight
  rw [hdepth]
  exact sameResult_of_agrees (fun _ => rfl) (fun _ hf => hf)
    (unscored_runAt hr hsub _ name code ignoreIllegals continuation) fun _ _ ho =>
      SameOutcome.sameButScore hr ho

/-- A language with one keyword that hands the text of blocks on. -/
def scoredBlocks (word : String) (worth : Nat) : Language where
  mode := {
    keywords := some (.list [word])
    contains := some [.mode ⟨[("block", 0)], {
      scope := some (.single "block")
      beginPattern := some (.single "<")
      endPattern := some (.single ">")
      relevance := some worth
      subLanguage := some (.single "words") }⟩] }

/-- A language with one keyword. -/
def scoredWords (word : String) : Language where
  mode := { keywords := some (.list [word]) }

theorem rescored_of_list {w w' : String} (h : Keyword.SameToken w w') :
    Keyword.Rescored (.list [w]) (.list [w']) :=
  ⟨rfl, .cons ⟨rfl, h⟩ .nil⟩

theorem rescored_scoredWords {w w' : String} (h : Keyword.SameToken w w') :
    RescoredLanguage words (scoredWords w) (scoredWords w') where
  same := rfl
  repository _ := .none
  extensions := .nil
  mode := RescoredBy.rescored ⟨rfl, .some (rescored_of_list h), .none, .none, .none, .none⟩

theorem rescored_scoredBlocks {w w' : String} (h : Keyword.SameToken w w') (worth worth' : Nat) :
    RescoredLanguage words (scoredBlocks w worth) (scoredBlocks w' worth') where
  same := rfl
  repository _ := .none
  extensions := .nil
  mode := RescoredBy.rescored ⟨rfl, .some (rescored_of_list h), .none,
    .some (.cons (.mode ⟨rfl, RescoredBy.rescored ⟨rfl, .none, .none, .none, .none, .none⟩⟩) .nil),
    .none, .none⟩

/-- Keywords with other scores, a block that is worth more, and keywords that count once only: the
    same tree, and another score. -/
theorem rescored_blocks : ∃ h h' x y,
    RescoredLanguages Eq h h' ∧ h.AllRegistered Arena.HandsOnByName ∧
    (h.highlight "block" "let <set set> let" true none).result = .ok x ∧
    (h'.highlight "block" "let <set set> let" true none).result = .ok y ∧
    x.relevance = 4 ∧ y.relevance = 13 ∧ SameButScore h h' "let <set set> let" x y := by
  have hcheck : passes ((new {}).register "words" (.constant (scoredWords "set"))) (fun h1 =>
      passes (h1.register "block" (.constant (scoredBlocks "let" 1))) fun h =>
        h.registered.entries.all (fun e => e.2.arena.modes.all (·.subLanguage.all Arena.isByName)) &&
        passes (h.highlight "block" "let <set set> let" true none).result fun x =>
          x.relevance == 4) = true := by decide +kernel
  have hcheck' : passes ((new { maxKeywordHits := 1 }).register "words"
      (.constant (scoredWords "set|3"))) (fun h1 =>
      passes (h1.register "block" (.constant (scoredBlocks "let|10" 4))) fun h =>
        passes (h.highlight "block" "let <set set> let" true none).result fun x =>
          x.relevance == 13) = true := by decide +kernel
  obtain ⟨h1, hh1, hcheck⟩ := exists_of_passes hcheck
  obtain ⟨h, hh, hcheck⟩ := exists_of_passes hcheck
  obtain ⟨hsub, hrun⟩ := Bool.and_eq_true_iff.mp hcheck
  obtain ⟨x, hx, hworth⟩ := exists_of_passes hrun
  obtain ⟨h1', hh1', hcheck'⟩ := exists_of_passes hcheck'
  obtain ⟨h', hh', hrun'⟩ := exists_of_passes hcheck'
  obtain ⟨y, hy, hworth'⟩ := exists_of_passes hrun'
  have hr : RescoredLanguages Eq h h' :=
    ((rescoredLanguages_new Eq {} 1).register (rescored_scoredWords (by decide +kernel))
      hh1 hh1').register (rescored_scoredBlocks (by decide +kernel) 1 4) hh hh'
  have hnamed : h.AllRegistered Arena.HandsOnByName := fun e he =>
    Arena.handsOnByName_of_all (List.all_eq_true.mp hsub e he)
  obtain ⟨_, hresult⟩ := scores_only_score hr hnamed "block" "let <set set> let" true none
  rw [hx, hy] at hresult
  cases hresult with
  | ok hsame => exact ⟨h, h', x, y, hr, hnamed, hx, hy, by simpa using hworth, by simpa using hworth',
      hsame⟩

/-! ## 5. Words that modes begin with -/

/-- The words that two modes begin with are the same but for their scores. -/
def SameBegins (text text' : String) : Prop :=
  List.Forall₂ Keyword.SameToken (Text.words text) (Text.words text')

/-- A language of classes, which begin with one of some words. -/
def classLanguage (begins : String) : Language where
  mode := {
    contains := some [.mode ⟨[("class", 0)], {
      scope := some (.single "class")
      beginKeywords := some begins
      endPattern := some (.single ";") }⟩] }

theorem rescored_classLanguage {begins begins' : String} (h : SameBegins begins begins') :
    RescoredLanguage SameBegins (classLanguage begins) (classLanguage begins') where
  same := rfl
  repository _ := .none
  extensions := .nil
  mode := RescoredBy.rescored ⟨rfl, .none, .none,
    .some (.cons (.mode ⟨rfl, RescoredBy.rescored ⟨rfl, .none, .some h, .none, .none, .none⟩⟩) .nil),
    .none, .none⟩

/-- **The score of a word that a mode begins with is read as a word.** The same word is worth one in
    the first language and two in the second; in the second, a two begins a class. -/
theorem score_read_as_word : ∃ h h' x y,
    RescoredLanguages SameBegins h h' ∧ h.AllRegistered Arena.HandsOnByName ∧
    (h.highlight "l" "2;" true none).result = .ok x ∧
    (h'.highlight "l" "2;" true none).result = .ok y ∧
    (TokenTree.ofEvents x.events).toHtml "" = "2;" ∧
    (TokenTree.ofEvents y.events).toHtml "" = "<span class=\"class\">2;</span>" := by
  have hcheck : passes ((new {}).register "l" (.constant (classLanguage "class|1"))) (fun h =>
      h.registered.entries.all (fun e => e.2.arena.modes.all (·.subLanguage.all Arena.isByName)) &&
      passes (h.highlight "l" "2;" true none).result fun x =>
        (TokenTree.ofEvents x.events).toHtml "" == "2;") = true := by decide +kernel
  have hcheck' : passes ((new {}).register "l" (.constant (classLanguage "class|2"))) (fun h =>
      passes (h.highlight "l" "2;" true none).result fun x =>
        (TokenTree.ofEvents x.events).toHtml "" == "<span class=\"class\">2;</span>") = true := by
    decide +kernel
  obtain ⟨h, hh, hcheck⟩ := exists_of_passes hcheck
  obtain ⟨hsub, hrun⟩ := Bool.and_eq_true_iff.mp hcheck
  obtain ⟨x, hx, hhtml⟩ := exists_of_passes hrun
  obtain ⟨h', hh', hrun'⟩ := exists_of_passes hcheck'
  obtain ⟨y, hy, hhtml'⟩ := exists_of_passes hrun'
  have hbegins : SameBegins "class|1" "class|2" := by
    have hwords : Text.words "class|1" = ["class|1"] ∧ Text.words "class|2" = ["class|2"] ∧
      Keyword.SameToken "class|1" "class|2" := by decide +kernel
    unfold SameBegins
    rw [hwords.1, hwords.2.1]
    exact .cons hwords.2.2 .nil
  refine ⟨h, h', x, y, ?_, fun e he => ?_, hx, hy, by simpa using hhtml, by simpa using hhtml'⟩
  · exact (rescoredLanguages_new _ {} 7).register (rescored_classLanguage hbegins) hh hh'
  · exact Arena.handsOnByName_of_all (List.all_eq_true.mp hsub e he)

end Highlight.Highlighter
