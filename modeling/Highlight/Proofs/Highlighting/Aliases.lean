import Highlight.Proofs.Highlighting.Likeness
import Highlight.Proofs.Scan.Trimmed

/-!
# Other names for labels

A language can say what its labels are called in the output. That is all it changes.

* `Renamed` -- outcomes that are the same but for what the labels of their trees are called;
* `compileLanguage_aliases` -- compiling does not look at the names of labels;
* `relabelling` -- what an observer looks at who knows the labels by their other names;
* `aliases_only_rename` -- every call comes to the same but for the labels.
-/

namespace Highlight.Highlighter

open Highlight.Arena (compileLanguage)
open Highlight.Grammar (Language)
open Highlight.Scan (Attempt Leeway)
open Highlight.Scan.Leeway
open Highlight.Token (Guise TokenTree)

variable {h h' : Highlighter} {name : String} {language : Language} {arena : Arena}

/-- **Two outcomes are the same but for their labels**: where the tree of the first has a label, that
    of the second has what `rename` calls it. -/
structure Renamed (rename : String → String) (o o' : Outcome) : Prop where
  language : o'.language = o.language
  ending : o'.ending = o.ending
  relevance : o'.relevance = o.relevance
  top : o'.top = o.top
  root : (TokenTree.ofEvents o'.events).root = (TokenTree.ofEvents o.events).root.recast id rename

theorem compileMode_aliases (language : Language) (aliases : Dictionary String String) :
    ∀ room : Nat, Arena.compileMode { language with classNameAliases := aliases } room =
      Arena.compileMode language room
  | 0 => rfl
  | room + 1 => by
      funext raw parent key
      unfold Arena.compileMode
      rw [compileMode_aliases language aliases room]
      rfl

/-- **Compiling does not look at the names of labels.** -/
theorem compileLanguage_aliases (hc : compileLanguage name language = .ok arena)
    (aliases : Dictionary String String) :
    compileLanguage name { language with classNameAliases := aliases } =
      .ok { arena with classNameAliases := aliases } := by
  have hmodes : Arena.compileModes name { language with classNameAliases := aliases } =
      Arena.compileModes name language := by
    unfold Arena.compileModes
    rw [compileMode_aliases]
  simp only [compileLanguage, bind, Except.bind, hmodes] at hc ⊢
  split at hc
  · cases hc
  · cases hc
    rfl

/-- Labels are looked at by the names that `arena` calls them; all else counts. -/
def relabelling (arena : Arena) : Leeway :=
  { Guise.labelled arena.scopeAlias with scored := True, pardons := fun _ => False }

/-- A language is the same under other names for its labels. -/
theorem sameArena_relabelling (arena : Arena) :
    (relabelling arena).SameArena { arena with classNameAliases := .empty } arena where
  name := rfl
  root := rfl
  size := rfl
  modes _ := .of_plain (fun _ => rfl) _
  aliases _ := rfl

/-- **The names of labels change nothing but the labels.** -/
theorem renamed_runArena (hsub : arena.HandsNothingOn)
    (hoptions : h'.options = h.options) (d d' : Scan.Delegate) (code : String) (ignores : Bool)
    (continuation : Option (List Nat)) :
    let x := h.runArena d { arena with classNameAliases := .empty } code ignores continuation
    let y := h'.runArena d' arena code ignores continuation
    y.notes = x.notes ∧ Attempt.SameResult (Renamed arena.scopeAlias) x.result y.result := by
  have hs : (relabelling arena).SameScene
      (h.sceneOf d { arena with classNameAliases := .empty } code ignores)
      (h'.sceneOf d' arena code ignores) := {
    arena := sameArena_relabelling arena
    text := rfl
    floor := by rw [sceneOf, hoptions]; rfl
    ratio := by rw [sceneOf, hoptions]; rfl
    hits := fun _ => by rw [sceneOf, hoptions]; rfl
    guard := .inl (by rw [sceneOf, hoptions]; rfl)
    illegals := .inl rfl
    delegate := fun id sub hid => by cases hid.symm.trans (hsub id) }
  refine sameResult_of_agrees (fun _ => rfl) (fun _ hf => hf)
    (Leeway.agrees_runArena hs (by rw [hoptions]) (fun _ hf => hf) continuation) fun o o' ho => ?_
  refine ⟨ho.language, ho.ending.eq fun _ => rfl, ho.relevance trivial, ho.top, ?_⟩
  rw [← Token.Node.recast_id (TokenTree.ofEvents o'.events).root]
  exact Guise.recast_root ho.events

/-- **The names of labels are a pure renaming.** A language whose modes hand no text on can be
    registered without the names that it has for its labels, and then every call comes to the same,
    whatever the options, the text, and the modes it begins in: the trees have the same shape and
    text, each label gives way to its own name, once, and all else is equal. -/
theorem aliases_only_rename {later : List Language}
    (hr : h.register name ⟨language, later⟩ = .ok h')
    (hsub : ∀ arena ∈ h'.language? name, arena.HandsNothingOn) :
    ∃ bare, h.register name ⟨{ language with classNameAliases := .empty }, later⟩ = .ok bare ∧
      ∀ code ignoreIllegals continuation,
        let x := bare.highlight name code ignoreIllegals continuation
        let y := h'.highlight name code ignoreIllegals continuation
        y.notes = x.notes ∧ Attempt.SameResult
          (Renamed fun label => (language.classNameAliases.get? label).getD label)
          x.result y.result := by
  obtain ⟨arena, hc, hl, hoptions'⟩ := language?_register hr
  have hbare := compileLanguage_aliases hc .empty
  have haliases : arena.classNameAliases = language.classNameAliases :=
    (Arena.header_of_compileLanguage hc).2.2.2
  cases hb : h.register name ⟨{ language with classNameAliases := .empty }, later⟩ with
  | error f =>
    simp only [register, bind, Except.bind, hbare] at hb
    cases hb
  | ok bare =>
    obtain ⟨arena', hc', hl', hoptions⟩ := language?_register hb
    cases hbare.symm.trans hc'
    refine ⟨bare, rfl, fun code ignores continuation => ?_⟩
    obtain ⟨d, hd⟩ := exists_runArena hl' code
    obtain ⟨d', hd'⟩ := exists_runArena hl code
    rw [hd, hd']
    have h1 := renamed_runArena (hsub arena hl) (hoptions'.trans hoptions.symm) d d' code ignores
      continuation
    unfold Arena.scopeAlias at h1
    rw [haliases] at h1
    exact h1

/-- A language with keywords, one of them hidden, and texts in quotes, which gives other names to its
    labels: to those of its keywords names that begin with a low line or no longer do, and to the
    label of its texts the name of another label. -/
def renamingLanguage : Language where
  classNameAliases := .ofList [("keyword", "_kw"), ("_hidden", "shown"), ("str", "quote"),
    ("quote", "mark")]
  mode := {
    keywords := some (.categories (.ofList [("keyword", .words "let"), ("_hidden", .words "set")]))
    contains := some [.mode ⟨[("text", 0)], {
      scope := some (.single "str")
      beginPattern := some (.single "\"")
      endPattern := some (.single "\"")
      endScope := some (.single "quote") }⟩] }

/-- The labels of keywords, of a mode, and of its end give way to their names, also where a run begins
    in the mode; a hidden keyword stays hidden. -/
theorem renamed_labels : ∃ bare h x y,
    (new {}).register "l" (.constant renamingLanguage) = .ok h ∧
    (∀ arena ∈ h.language? "l", arena.HandsNothingOn) ∧
    (Highlighter.highlight bare "l" "a\" let set" true (some [0, 1])).result = .ok x ∧
    (h.highlight "l" "a\" let set" true (some [0, 1])).result = .ok y ∧
    Renamed (fun label => (renamingLanguage.classNameAliases.get? label).getD label) x y ∧
    (TokenTree.ofEvents y.events).toHtml "" =
      "<span class=\"quote\">a<span class=\"mark\">&quot;</span></span>" ++
        " <span class=\"_kw\">let</span> set" := by
  have hcheck : passes ((new {}).register "l" (.constant renamingLanguage)) (fun h =>
      (h.language? "l").all (fun arena => arena.modes.all (·.subLanguage.isNone)) &&
      passes (h.highlight "l" "a\" let set" true (some [0, 1])).result fun y =>
        (TokenTree.ofEvents y.events).toHtml "" ==
          "<span class=\"quote\">a<span class=\"mark\">&quot;</span></span>" ++
            " <span class=\"_kw\">let</span> set") = true := by decide +kernel
  obtain ⟨h, hh, hcheck⟩ := exists_of_passes hcheck
  obtain ⟨hplain, hrun⟩ := Bool.and_eq_true_iff.mp hcheck
  obtain ⟨y, hy, hhtml⟩ := exists_of_passes hrun
  have hsub : ∀ arena ∈ h.language? "l", arena.HandsNothingOn := fun arena harena =>
    Arena.handsNothingOn_of_all (Option.all_eq_true _ _ |>.mp hplain arena harena)
  obtain ⟨bare, _, hcalls⟩ := aliases_only_rename hh hsub
  obtain ⟨_, hresult⟩ := hcalls "a\" let set" true (some [0, 1])
  rw [hy] at hresult
  generalize hx : (bare.highlight "l" "a\" let set" true (some [0, 1])).result = x at hresult
  cases hresult with
  | ok hrenamed => exact ⟨bare, h, _, y, hh, hsub, hx, hy, hrenamed, by simpa using hhtml⟩

end Highlight.Highlighter
