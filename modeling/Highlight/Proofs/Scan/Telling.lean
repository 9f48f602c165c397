import Highlight.Proofs.Regex.Extent
import Highlight.Proofs.Scan.Attempts
import Highlight.Proofs.Text.Slices
import Highlight.Proofs.Token.Opened
import Highlight.Scan.Step

/-!
# What the telling of text does to a run

Text that is told leaves the open modes, the place in the text and the scopes that are open as they
are. It may come in pieces, under labels of its own or in a nested run, but nothing is lost.

* `Run.told`, `Run.opened` -- the text that a run has told, and the scopes it has open;
* `Tells` -- that a run tells a text and changes nothing else;
* `Piecewise` -- what holds of every piece of text that is told;
* `Piecewise.tellKeywords` -- text cut into keywords;
* `Piecewise.tellParts` -- the groups of a delimiter;
* `Delegate.ask`, `meets_tellBlock` -- text handed to another language;
* `meets_flush` -- the text that has been held back.
-/

namespace Highlight.Token

theorem textsOf_append (es fs : List Event) : textsOf (es ++ fs) = textsOf es ++ textsOf fs := by
  induction es with
  | nil => exact (String.empty_append ..).symm
  | cons e es ih =>
    show e.textOf ++ textsOf (es ++ fs) = e.textOf ++ textsOf es ++ textsOf fs
    rw [ih, String.append_assoc]

theorem textsOf_singleton (e : Event) : textsOf [e] = e.textOf := String.append_empty ..

end Highlight.Token

namespace Highlight.Scan

open Highlight.Arena (ArenaMode ModeKeywords RuleMatch)
open Highlight.Grammar (SubLanguage)
open Highlight.Regex (Span)
open Highlight.Token (Event openAfter textsOf)

variable {s : Scene} {r r' r1 r2 : Run} {t t1 t2 : String}

/-! ## 1. Text and scopes -/

/-- The text that a run has told. -/
def Run.told (r : Run) : String := textsOf r.events.reverse

/-- The scopes that a run has open, the innermost first. There is no answer once a scope has been
    closed with none open. -/
def Run.opened (r : Run) : Option (List String) := openAfter [] r.events.reverse

theorem Run.told_emit (r : Run) (e : Event) : (r.emit e).told = r.told ++ e.textOf := by
  show textsOf (e :: r.events).reverse = _
  rw [List.reverse_cons, Token.textsOf_append, Token.textsOf_singleton]
  rfl

theorem Run.opened_emit (r : Run) (e : Event) :
    (r.emit e).opened = r.opened.bind fun o => e.openAfter o := by
  show openAfter [] (e :: r.events).reverse = _
  rw [List.reverse_cons, Token.openAfter_append]
  unfold Run.opened
  congr 1
  funext o
  exact Token.openAfter_singleton o e

theorem Run.frames_openMode (r : Run) (arena : Arena) (mode : ArenaMode) :
    (r.openMode arena mode).frames = r.frames := by
  unfold Run.openMode
  cases mode.scope <;> rfl

/-- **A run tells a text.** The open modes, what is held back, the place in the text and the scopes
    that are open stay as they are. -/
structure Tells (r r' : Run) (t : String) : Prop where
  told : r'.told = r.told ++ t
  opened : r'.opened = r.opened
  frames : r'.frames = r.frames
  buffer : r'.buffer = r.buffer
  index : r'.index = r.index

theorem Tells.refl (r : Run) : Tells r r "" := ⟨(String.append_empty ..).symm, rfl, rfl, rfl, rfl⟩

theorem Tells.trans (h1 : Tells r r1 t1) (h2 : Tells r1 r2 t2) : Tells r r2 (t1 ++ t2) where
  told := by rw [h2.told, h1.told, String.append_assoc]
  opened := by rw [h2.opened, h1.opened]
  frames := by rw [h2.frames, h1.frames]
  buffer := by rw [h2.buffer, h1.buffer]
  index := by rw [h2.index, h1.index]

theorem tells_emitText (r : Run) (t : String) : Tells r (r.emitText t) t where
  told := r.told_emit (.text t)
  opened := by
    rw [Run.emitText, Run.opened_emit]
    cases r.opened <;> rfl
  frames := rfl
  buffer := rfl
  index := rfl

theorem tells_count (r : Run) (maxHits : Nat) (word : String) (relevance : Nat) :
    Tells r (r.count maxHits word relevance) "" :=
  ⟨(String.append_empty ..).symm, rfl, rfl, rfl, rfl⟩

theorem tells_emitLabelled (r : Run) (arena : Arena) (t label : String) :
    Tells r (r.emitLabelled arena t label) t := by
  unfold Run.emitLabelled
  split
  · rename_i h
    have ht : t = "" := by simpa using h
    rw [ht]
    exact Tells.refl r
  · refine ⟨?_, ?_, rfl, rfl, rfl⟩
    · rw [Run.told_emit, Run.emitText, Run.told_emit, Run.told_emit]
      show r.told ++ "" ++ t ++ "" = r.told ++ t
      rw [String.append_empty, String.append_empty]
    · rw [Run.opened_emit, Run.emitText, Run.opened_emit, Run.opened_emit]
      cases r.opened <;> rfl

/-- **What holds of every piece of text that a run tells**, and of pieces one after the other, and so
    of all text that is told piece by piece. `Own` says what labels pieces have of their own. -/
structure Piecewise (arena : Arena) (Own : String → Prop) (R : Run → Run → String → Prop) :
    Prop where
  refl : ∀ r, R r r ""
  trans : ∀ {r r1 r2 t1 t2}, R r r1 t1 → R r1 r2 t2 → R r r2 (t1 ++ t2)
  text : ∀ r t, R r (r.emitText t) t
  count : ∀ r maxHits word relevance, R r (Run.count r maxHits word relevance) ""
  labelled : ∀ r t label, Own label → R r (Run.emitLabelled r arena t label) t
  keywords : ∀ id k word entry, (arena.mode id).keywords = some k →
    k.table.find? word = some entry → isHidden entry.scope = false → Own entry.scope

theorem piecewise_tells (arena : Arena) : Piecewise arena (fun _ => True) Tells where
  refl := Tells.refl
  trans := Tells.trans
  text := tells_emitText
  count := tells_count
  labelled := fun r t label _ => tells_emitLabelled r arena t label
  keywords := fun _ _ _ _ _ _ _ => trivial

variable {Own : String → Prop} {R : Run → Run → String → Prop}

/-! ## 2. Keywords -/

/-- Spans that follow one another in a text, from an index on. -/
def InOrder (text : Text) (i : Nat) : List Span → Prop
  | [] => True
  | m :: ms => i ≤ m.start ∧ m.start ≤ m.stop ∧ m.stop ≤ text.size ∧ InOrder text m.stop ms

theorem InOrder.mono {text : Text} {i j : Nat} {ms : List Span} (h : InOrder text j ms)
    (hij : i ≤ j) : InOrder text i ms := by
  cases ms with
  | nil => trivial
  | cons m ms => exact ⟨Nat.le_trans hij h.1, h.2⟩

/-- The words of a text follow one another. -/
theorem inOrder_identifiersFrom (re : Regex) (text : Text) (fuel i : Nat) :
    InOrder text i (identifiersFrom re text fuel i) := by
  induction fuel generalizing i with
  | zero => trivial
  | succ fuel ih =>
    unfold identifiersFrom
    split
    · trivial
    · rename_i m hm
      obtain ⟨h1, h2, h3⟩ := Regex.span_search hm
      split
      · exact (ih _).mono (by omega)
      · exact ⟨h1, h2, h3, ih _⟩

/-- **What has been told of a text, and what is to be told yet, is the text up to where it has been
    looked at.** -/
structure ToldUpTo (R : Run → Run → String → Prop) (text : Text) (r : Run) (t : Telling) :
    Prop where
  tells : ∃ u, R r t.run u ∧ u ++ t.pending = text.slice 0 t.upTo
  upTo_le : t.upTo ≤ text.size

theorem toldUpTo_tellWord (hR : Piecewise s.arena Own R) {k : ModeKeywords} {text : Text}
    {t : Telling} {m : Span} (hk : ∀ word entry, k.table.find? word = some entry →
      isHidden entry.scope = false → Own entry.scope) (h : ToldUpTo R text r t)
    (h1 : t.upTo ≤ m.start) (h2 : m.start ≤ m.stop) (h3 : m.stop ≤ text.size) :
    ToldUpTo R text r (tellWord s k text t m) := by
  obtain ⟨u, hu, heq⟩ := h.tells
  have hpending : u ++ (t.pending ++ text.slice t.upTo m.start) = text.slice 0 m.start := by
    rw [← String.append_assoc, heq, Text.slice_append text (Nat.zero_le _) h1]
  have hword : u ++ (t.pending ++ text.slice t.upTo m.start) ++ text.slice m.start m.stop =
      text.slice 0 m.stop := by
    rw [hpending, Text.slice_append text (Nat.zero_le _) h2]
  unfold tellWord
  simp only
  split
  · refine ⟨⟨u, hu, ?_⟩, h3⟩
    rw [← String.append_assoc]
    exact hword
  · rename_i entry hentry
    have hcount := hR.trans (hR.trans hu
      (hR.text t.run (t.pending ++ text.slice t.upTo m.start)))
      (hR.count _ s.options.maxKeywordHits
        (Keyword.Table.spell k.table.caseInsensitive (text.slice m.start m.stop)) entry.relevance)
    rw [String.append_empty] at hcount
    split
    · exact ⟨⟨_, hcount, hword⟩, h3⟩
    · rename_i hshown
      have hown := hk _ entry hentry (by simpa using hshown)
      refine ⟨⟨_, hR.trans hcount (hR.labelled _ _ entry.scope hown), ?_⟩, h3⟩
      rw [String.append_empty]
      exact hword

theorem toldUpTo_foldl (hR : Piecewise s.arena Own R) {k : ModeKeywords} {text : Text}
    (hk : ∀ word entry, k.table.find? word = some entry → isHidden entry.scope = false →
      Own entry.scope) {ms : List Span} {t : Telling} (h : ToldUpTo R text r t)
    (hms : InOrder text t.upTo ms) : ToldUpTo R text r (ms.foldl (tellWord s k text) t) := by
  induction ms generalizing t with
  | nil => exact h
  | cons m ms ih =>
    obtain ⟨h1, h2, h3, hms⟩ := hms
    refine ih (toldUpTo_tellWord hR hk h h1 h2 h3) (hms.mono (Nat.le_of_eq ?_))
    unfold tellWord
    simp only
    split
    · rfl
    · split <;> rfl

/-- **Text that is cut into keywords is told piece by piece.** -/
theorem Piecewise.tellKeywords (hR : Piecewise s.arena Own R) (t : String) (r : Run) :
    R r (tellKeywords s t r) t := by
  unfold Scan.tellKeywords
  split
  · exact hR.text r t
  · rename_i k hkeywords
    simp only
    have hstart : ToldUpTo R (Text.ofString t) r ⟨r, "", 0⟩ := by
      refine ⟨⟨"", hR.refl r, ?_⟩, Nat.zero_le _⟩
      rw [Text.slice_self]
      rfl
    have hfold : ToldUpTo R (Text.ofString t) r
        ((identifiers k.regex (Text.ofString t)).foldl (tellWord s k (Text.ofString t))
          ⟨r, "", 0⟩) :=
      toldUpTo_foldl hR (fun word entry => hR.keywords _ k word entry hkeywords) hstart
        (inOrder_identifiersFrom k.regex (Text.ofString t) _ 0)
    generalize (identifiers k.regex (Text.ofString t)).foldl (tellWord s k (Text.ofString t))
      ⟨r, "", 0⟩ = last at hfold ⊢
    obtain ⟨u, hu, heq⟩ := hfold.tells
    have htells := hR.trans hu (hR.text last.run
      (last.pending ++ (Text.ofString t).slice last.upTo (Text.ofString t).size))
    rw [← String.append_assoc, heq, Text.slice_append _ (Nat.zero_le _) hfold.upTo_le,
      Text.slice_zero_size] at htells
    exact htells

theorem tells_tellKeywords (s : Scene) (t : String) (r : Run) :
    Tells r (tellKeywords s t r) t := (piecewise_tells s.arena).tellKeywords t r

/-! ## 3. The groups of a delimiter -/

/-- The text of one group of a delimiter. -/
def partText (s : Scene) (m : RuleMatch) (part : Nat) : String :=
  match m.groups[part]? with
  | some (some span) => s.text.slice span.start span.stop
  | _ => ""

/-- The texts of some groups of a delimiter. -/
def partsText (s : Scene) (m : RuleMatch) : List (Nat × Option String) → String
  | [] => ""
  | part :: parts => partText s m part.1 ++ partsText s m parts

theorem Piecewise.tellPart (hR : Piecewise s.arena Own R) (m : RuleMatch) (r : Run)
    (part : Nat × Option String) (hown : ∀ label, part.2 = some label → Own label) :
    R r (tellPart s m r part) (partText s m part.1) := by
  unfold Scan.tellPart partText
  cases m.groups[part.1]? with
  | none => exact hR.refl r
  | some group =>
    cases group with
    | none => exact hR.refl r
    | some span =>
      simp only
      split
      · rename_i label hlabel
        exact hR.labelled r _ label (hown label hlabel)
      · exact hR.tellKeywords _ r

/-- **The groups of a delimiter are told one after the other.** -/
theorem Piecewise.tellParts (hR : Piecewise s.arena Own R) (m : RuleMatch)
    (labels : Dictionary Nat (Option String)) (r : Run)
    (hown : ∀ part label, (part, some label) ∈ labels.entries → Own label) :
    R r (tellParts s m labels r) (partsText s m labels.entries) := by
  unfold Scan.tellParts
  generalize labels.entries = parts at hown
  induction parts generalizing r with
  | nil => exact hR.refl r
  | cons part parts ih =>
    refine hR.trans (hR.tellPart m r part fun label hlabel => ?_)
      (ih _ fun p label hmem => hown p label (List.mem_cons_of_mem part hmem))
    refine hown part.1 label ?_
    rw [← hlabel]
    exact List.mem_cons_self

theorem tells_tellParts (s : Scene) (m : RuleMatch) (labels : Dictionary Nat (Option String))
    (r : Run) : Tells r (tellParts s m labels r) (partsText s m labels.entries) :=
  (piecewise_tells s.arena).tellParts m labels r fun _ _ _ => trivial

/-! ## 4. Sub-languages -/

/-- What a delegate is asked for the text of a sub-language, where there is such a language. -/
def Delegate.ask (d : Delegate) (sub : SubLanguage) (text : String)
    (continuation : Option (List Nat)) : Option (Attempt Nested) :=
  match sub with
  | .single name => d.single name text continuation
  | .list names => some (d.best (if names.isEmpty then none else some names) text)
  | .any => some (d.best none text)

/-- What a delegate can answer. -/
def Delegate.Answers (d : Delegate) (sub : SubLanguage) (text : String) (n : Nested) : Prop :=
  ∃ continuation x, d.ask sub text continuation = some x ∧ x.result = .ok n

/-- How a delegate can fail. -/
def Delegate.Fails (d : Delegate) (sub : SubLanguage) (text : String) (f : Fault) : Prop :=
  ∃ continuation x, d.ask sub text continuation = some x ∧ x.result = .error f

theorem tells_splice (r : Run) (m : ArenaMode) (n : Nested) :
    Tells r (r.splice m n) (textsOf n.events) where
  told := Run.told_emit _ (.nested n.language n.events)
  opened := by
    unfold Run.splice
    rw [Run.opened_emit]
    show r.opened.bind _ = r.opened
    cases r.opened <;> rfl
  frames := rfl
  buffer := rfl
  index := rfl

/-- What can become of text that is told in one way or another: it is told as it is, or as the
    delegate answers. -/
def ToldBy (d : Delegate) (sub : Option SubLanguage) (text t : String) : Prop :=
  t = text ∨ ∃ l n, sub = some l ∧ d.Answers l text n ∧ t = textsOf n.events

/-- How telling a text can fail: the delegate has failed. -/
def FailsBy (d : Delegate) (sub : Option SubLanguage) (text : String) (f : Fault) : Prop :=
  ∃ l, sub = some l ∧ text ≠ "" ∧ d.Fails l text f

theorem meets_ask (d : Delegate) (sub : SubLanguage) (text : String)
    (continuation : Option (List Nat)) {x : Attempt Nested}
    (h : d.ask sub text continuation = some x) :
    x.Meets (d.Answers sub text) (d.Fails sub text) :=
  ⟨fun _ hn => ⟨continuation, x, h, hn⟩, fun _ hf => ⟨continuation, x, h, hf⟩⟩

/-- **Text in another language is told as it is or as the delegate answers.** -/
theorem meets_tellBlock (s : Scene) (sub : SubLanguage) (text : String) (r : Run) :
    (tellBlock s sub text r).Meets
      (fun r' => ∃ t, Tells r r' t ∧ ToldBy s.delegate (some sub) text t)
      (FailsBy s.delegate (some sub) text) := by
  unfold tellBlock
  split
  · rename_i h
    have ht : text = "" := by simpa using h
    exact Attempt.meets_pure ⟨"", Tells.refl r, .inl ht.symm⟩
  · rename_i h
    have hfails : ∀ f, s.delegate.Fails sub text f → FailsBy s.delegate (some sub) text f :=
      fun f hf => ⟨sub, rfl, by simpa using h, hf⟩
    have htold : ∀ {n : Nested} {r1 : Run} (m : ArenaMode), s.delegate.Answers sub text n →
        Tells r r1 "" →
        ∃ t, Tells r (r1.splice m n) t ∧ ToldBy s.delegate (some sub) text t := by
      intro n r1 m hn hr1
      refine ⟨_, hr1.trans (tells_splice r1 m n), .inr ⟨sub, n, rfl, hn, ?_⟩⟩
      exact String.empty_append ..
    cases sub with
    | single name =>
      simp only
      cases hx : s.delegate.single name text (r.blocks.get? name) with
      | none => exact Attempt.meets_pure ⟨text, tells_emitText r text, .inl rfl⟩
      | some x =>
        have hmeets := meets_ask s.delegate (.single name) text (r.blocks.get? name) hx
        refine Attempt.meets_bind (Attempt.meets_mono hmeets (fun _ => id) hfails) ?_
        intro n hn
        exact Attempt.meets_pure
          (htold _ hn ⟨(String.append_empty ..).symm, rfl, rfl, rfl, rfl⟩)
    | list names =>
      have hmeets := meets_ask s.delegate (.list names) text none rfl
      refine Attempt.meets_bind (Attempt.meets_mono hmeets (fun _ => id) hfails) ?_
      intro n hn
      exact Attempt.meets_pure (htold _ hn (Tells.refl r))
    | any =>
      have hmeets := meets_ask s.delegate .any text none rfl
      refine Attempt.meets_bind (Attempt.meets_mono hmeets (fun _ => id) hfails) ?_
      intro n hn
      exact Attempt.meets_pure (htold _ hn (Tells.refl r))

/-! ## 5. What has been held back -/

/-- **What has been held back is told as it is or as the delegate of the innermost mode answers**,
    and nothing is held back any more. -/
theorem meets_flush (s : Scene) (r : Run) :
    (flush s r).Meets
      (fun r' => ∃ t, Tells { r with buffer := "" } r' t ∧
        ToldBy s.delegate (s.top r).subLanguage r.buffer t)
      (FailsBy s.delegate (s.top r).subLanguage r.buffer) := by
  unfold flush
  simp only
  have htop : s.top { r with buffer := "" } = s.top r := rfl
  rw [htop]
  cases (s.top r).subLanguage with
  | none => exact Attempt.meets_pure ⟨r.buffer, tells_tellKeywords s r.buffer _, .inl rfl⟩
  | some sub => exact meets_tellBlock s sub r.buffer _

end Highlight.Scan
