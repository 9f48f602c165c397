import Highlight.Proofs.Highlighting.Delegates
import Highlight.Proofs.Highlighting.Detection
import Highlight.Proofs.Highlighting.SafeMode
import Highlight.Proofs.Registry.Registered
import Highlight.Proofs.Scan.ToldEvents
import Highlight.Proofs.Token.Markup

/-!
# What stands in the output

A text stands in the output as HTML content, whether it has been highlighted or not. Names do not:
what labels are called goes into the output as it is written.

* `Arena.shownNames` -- what the nodes of a language can be called;
* `NamesOnly`, `namesOnly_runAt` -- outcomes whose nodes are called as languages have it;
* `namesOnly_highlightAuto` -- so are both outcomes of a detection;
* `Writes`, `spansOf_of_writes` -- what is written, and where its tags come from;
* `only_spans_are_written` -- where no name has characters of tags, there are no tags but spans;
* `quoted_label_ends_attribute` -- a name with a quotation mark gets out of its attribute.
-/

namespace Highlight

/-- **What the nodes of a language can be called**: the labels that it names, as they are called in
    the output, and its own name where it is nested. -/
def Arena.shownNames (a : Arena) : List String :=
  Token.TokenTree.languageLabel a.name :: a.labels.map a.scopeAlias

namespace Highlighter

open Highlight.Html (IsBare OnlySpans SpansOf)
open Highlight.Scan (Attempt Tellable)
open Highlight.Token (Event Sink TokenTree)

variable {h : Highlighter} {P : String → Prop} {o : Outcome} {arena : Arena} {code : String}

/-! ## 1. Names in outcomes -/

/-- **An outcome names nodes only in some way**, its own included when it is nested. -/
structure NamesOnly (P : String → Prop) (o : Outcome) : Prop where
  language : ∀ l, o.language = some l → P (TokenTree.languageLabel l)
  events : ∀ e ∈ o.events, e.Within P

theorem namesOnly_plain (code : String) : NamesOnly P (.plain code) where
  language _ hl := by cases hl
  events := List.forall_mem_cons.mpr ⟨.text code, List.forall_mem_singleton.mpr .finish⟩

/-- A run names nodes as its language does, and those of nested runs as their outcomes do. -/
theorem namesOnly_runArena {delegate : Scan.Delegate} {ignoreIllegals : Bool}
    {continuation : Option (List Nat)} (hnames : ∀ l ∈ arena.shownNames, P l)
    (hnested : ∀ sub t n, delegate.Answers sub t n → (Event.nested n.language n.events).Within P)
    (ho : (h.runArena delegate arena code ignoreIllegals continuation).result = .ok o) :
    NamesOnly P o := by
  obtain ⟨hlanguage, hlabels⟩ := List.forall_mem_cons.mp hnames
  have htellable : Tellable (h.sceneOf delegate arena code ignoreIllegals) (Event.Within P) :=
    { text := .text
      closing := .closing
      finish := .finish
      opening := fun label hlabel => .opening (hlabels _ (List.mem_map_of_mem hlabel))
      nested := hnested }
  have hevents := Scan.events_scanAll htellable continuation
  refine ⟨fun l hl => ?_, ?_⟩
  · rw [language_of_runArena ho] at hl
    cases hl
    exact hlanguage
  · obtain ⟨-, ⟨-, -, heq⟩ | ⟨f, -, -, -, -, heq, -⟩⟩ := runArena_ok ho
    · rw [heq]
      exact hevents
    · rw [heq]
      exact List.forall_mem_append.mpr ⟨hevents, List.forall_mem_singleton.mpr .finish⟩

/-- **A run at any depth names nodes only as registered languages do.** -/
theorem namesOnly_runAt (hall : h.AllRegistered fun arena => ∀ l ∈ arena.shownNames, P l) :
    ∀ {depth : Nat} {name code : String} {ignoreIllegals : Bool}
      {continuation : Option (List Nat)} {o : Outcome},
      (h.runAt depth name code ignoreIllegals continuation).result = .ok o → NamesOnly P o := by
  intro depth
  induction depth with
  | zero =>
    intro name code ignoreIllegals continuation o ho
    cases ho
  | succ depth ih =>
    intro name code ignoreIllegals continuation o ho
    change (h.runIn (h.runAt depth) name code ignoreIllegals continuation).result = .ok o at ho
    unfold runIn at ho
    split at ho
    · cases ho
    · rename_i arena hl
      refine namesOnly_runArena (hall.language? hl) (fun sub t n ha => ?_) ho
      have hn : ∃ o, n = o.toNested ∧ NamesOnly P o := by
        rcases answers_delegateTo ha with ⟨_, _, _, o, -, -, hrun, hn⟩ |
          ⟨-, hn | ⟨_, -, -, o, hrun, -, hn⟩⟩
        · exact ⟨o, hn, ih hrun⟩
        · exact ⟨.plain t, hn, namesOnly_plain t⟩
        · exact ⟨o, hn, ih hrun⟩
      obtain ⟨o, rfl, ho⟩ := hn
      exact .nested ho.language ho.events

/-- **Both outcomes of a detection name nodes only as registered languages do.** -/
theorem namesOnly_highlightAuto
    (hall : h.AllRegistered fun arena => ∀ l ∈ arena.shownNames, P l)
    {candidates : Option (List String)} {d : Detection}
    (hd : (h.highlightAuto code candidates).result = .ok d) :
    NamesOnly P d.best ∧ ∀ o, d.secondBest = some o → NamesOnly P o := by
  have houtcome : ∀ o, o = d.best ∨ d.secondBest = some o → NamesOnly P o := fun o ho => by
    rcases plain_or_run hd ho with rfl | ⟨name, hrun⟩
    · exact namesOnly_plain code
    · exact namesOnly_runAt hall hrun
  exact ⟨houtcome _ (.inl rfl), fun o ho => houtcome o (.inr ho)⟩

/-! ## 2. Tags in the output -/

/-- **What a highlighter writes**: the output of a run, or of one of the outcomes of a detection. -/
inductive Writes (h : Highlighter) : String → Prop
  | highlight {name code : String} {ignoreIllegals : Bool} {continuation : Option (List Nat)}
      {o : Outcome} : (h.highlight name code ignoreIllegals continuation).result = .ok o →
      Writes h (o.write Sink.tree h.options code)
  | best {code : String} {candidates : Option (List String)} {d : Detection} :
      (h.highlightAuto code candidates).result = .ok d →
      Writes h (d.best.write Sink.tree h.options code)
  | second {code : String} {candidates : Option (List String)} {d : Detection} {o : Outcome} :
      (h.highlightAuto code candidates).result = .ok d → d.secondBest = some o →
      Writes h (o.write Sink.tree h.options code)

/-- A name that a registered language can show. -/
def Shows (h : Highlighter) (l : String) : Prop :=
  ∃ e ∈ h.registered.entries, l ∈ e.2.arena.shownNames

/-- What is written for an outcome. A run that was not completed is written as its text, whatever it
    names. -/
theorem spansOf_write (h : Highlighter) (ho : NamesOnly P o) (code : String) :
    SpansOf (fun cls => ∃ l, P l ∧ cls = Html.cssClass l h.options.classLead)
      (o.write Sink.tree h.options code) := by
  unfold Outcome.write
  split
  · exact Token.spansOf_toHtml (TokenTree.within_ofEvents ho.events)
  · exact Html.spansOf_of_isBare (Html.isBare_escape code)

/-- **The text brings no tags into the output.** There are only those of spans, and their classes
    are those of names that registered languages show. -/
theorem spansOf_of_writes {value : String} (hvalue : h.Writes value) :
    SpansOf (fun cls => ∃ l, h.Shows l ∧ cls = Html.cssClass l h.options.classLead) value := by
  have hall : h.AllRegistered fun arena => ∀ l ∈ arena.shownNames, h.Shows l :=
    fun e he l hl => ⟨e, he, hl⟩
  cases hvalue with
  | highlight ho => exact spansOf_write h (namesOnly_runAt hall ho) _
  | best hd => exact spansOf_write h (namesOnly_highlightAuto hall hd).1 _
  | second hd ho => exact spansOf_write h ((namesOnly_highlightAuto hall hd).2 _ ho) _

/-- **The output has no tags but those of spans**, whatever the text. The classes of these are those
    of names that registered languages show. If such names have no characters of tags, and what goes
    before class names has none, then these characters stand nowhere else in the output. -/
theorem only_spans_are_written {value : String} (hvalue : h.Writes value) :
    SpansOf (fun cls => ∃ l, h.Shows l ∧ cls = Html.cssClass l h.options.classLead) value ∧
      (IsBare h.options.classLead → (∀ l, h.Shows l → IsBare l) → OnlySpans value) := by
  have hspans := spansOf_of_writes hvalue
  refine ⟨hspans, fun hlead hnames => hspans.mono ?_⟩
  rintro cls ⟨l, hl, rfl⟩
  exact Html.isBare_cssClass (hnames l hl) hlead

/-- A highlighter with a language that shows every `<` under a label. -/
def withLabel (label : String) : Except Fault Highlighter :=
  (new {}).registerText "l" ("\x7b\"contains\": [\x7b\"scope\": \"" ++ label ++
    "\", \"match\": \"<\"\x7d]\x7d")

/-- Under a label without characters of tags, a text that looks like a tag is no tag. -/
theorem tag_in_text_is_no_tag : ∃ h o, withLabel "tag.name" = .ok h ∧
    (h.highlight "L" "<b>" false none).result = .ok o ∧
    o.write Sink.tree h.options "<b>" =
      "<span class=\"hljs-tag name_\">&lt;</span>b&gt;" ∧
    OnlySpans (o.write Sink.tree h.options "<b>") := by
  have hcheck : passes (withLabel "tag.name") (fun h =>
      decide (IsBare h.options.classLead) && h.registered.entries.all (fun e =>
        e.2.arena.shownNames.all fun l => decide (IsBare l)) &&
      passes (h.highlight "L" "<b>" false none).result fun o =>
        o.write Sink.tree h.options "<b>" ==
          "<span class=\"hljs-tag name_\">&lt;</span>b&gt;") = true := by decide +kernel
  obtain ⟨h, hh, hcheck⟩ := exists_of_passes hcheck
  simp only [Bool.and_eq_true, decide_eq_true_eq, List.all_eq_true] at hcheck
  obtain ⟨⟨hlead, hnames⟩, hrun⟩ := hcheck
  obtain ⟨o, ho, hwritten⟩ := exists_of_passes hrun
  exact ⟨h, o, hh, ho, eq_of_beq hwritten,
    (only_spans_are_written (.highlight ho)).2 hlead fun l ⟨e, he, hl⟩ => hnames e he l hl⟩

/-- **A label with a quotation mark gets out of its attribute**, and brings in another one. -/
theorem quoted_label_ends_attribute : ∃ h o, withLabel "x\\\" onclick=\\\"y" = .ok h ∧
    (h.highlight "l" "<" false none).result = .ok o ∧
    o.write Sink.tree h.options "<" = "<span class=\"hljs-x\" onclick=\"y\">&lt;</span>" ∧
    ¬OnlySpans (o.write Sink.tree h.options "<") := by
  have hcheck : passes (withLabel "x\\\" onclick=\\\"y") (fun h =>
      passes (h.highlight "l" "<" false none).result fun o =>
        o.write Sink.tree h.options "<" ==
          "<span class=\"hljs-x\" onclick=\"y\">&lt;</span>") = true := by decide +kernel
  obtain ⟨h, hh, hrun⟩ := exists_of_passes hcheck
  obtain ⟨o, ho, hwritten⟩ := exists_of_passes hrun
  refine ⟨h, o, hh, ho, eq_of_beq hwritten, ?_⟩
  rw [eq_of_beq hwritten]
  decide +kernel

end Highlighter

end Highlight
