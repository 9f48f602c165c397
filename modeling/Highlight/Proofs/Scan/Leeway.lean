import Highlight.Proofs.Scan.Attempts
import Highlight.Proofs.Token.Guises
import Highlight.Scan.Loop

/-!
# What two runs may differ in

Two runs over two texts can be the same in what an observer looks at. The observer says what counts
of a character, what the second run calls a label of the first, whether scores are looked at, and
after which faults of the first run nothing more is asked of the second.

* `Leeway` -- what an observer looks at;
* `Leeway.SameFault`, `Leeway.Agrees` -- faults that tell the same, and steps that come to the same;
* `agrees_bind` -- steps that come to the same, one after another, come to the same;
* `Leeway.SameMode`, `Leeway.SameArena`, `Leeway.SameScene` -- modes, languages, and all that does
  not change during a run;
* `Leeway.SameRun` -- the states of two runs.
-/

namespace Highlight.Scan

open Highlight.Arena (ArenaMode RuleKind ModeKeywords)
open Highlight.Grammar (Hook HookData HookNote SubLanguage)
open Highlight.Regex (Span)
open Highlight.Token (Event Guise)

/-! ## 1. Steps that come to the same -/

/-- What an observer of two runs looks at: what counts of a character and what a label is called,
    whether scores have to be the same, and which faults of the first run excuse the second from
    anything. -/
structure Leeway extends Guise where
  scored : Prop
  pardons : Fault → Prop

namespace Leeway

variable {L : Leeway}

/-- Every character counts, and labels keep their names. -/
def exact (scored : Prop) (pardons : Fault → Prop) : Leeway := { Guise.plain with scored, pardons }

/-- Two causes tell the same; what is forbidden is told up to what counts of its characters. -/
inductive SameCause (L : Leeway) : Cause → Cause → Prop
  | same (c : Cause) : SameCause L c c
  | illegal {lexeme lexeme' : String} (mode : String) : L.SameString lexeme lexeme' →
      SameCause L (.illegalLexeme lexeme mode) (.illegalLexeme lexeme' mode)

/-- Two faults tell the same, and concern the same place. -/
structure SameFault (L : Leeway) (f f' : Fault) : Prop where
  cause : L.SameCause f.cause f'.cause
  position : f'.position = f.position

theorem SameFault.refl (f : Fault) : L.SameFault f f := ⟨.same f.cause, rfl⟩

theorem SameCause.isIllegal {c c' : Cause} (h : L.SameCause c c') : c'.isIllegal = c.isIllegal := by
  cases h <;> rfl

theorem SameCause.isEndless {c c' : Cause} (h : L.SameCause c c') : c'.isEndless = c.isEndless := by
  cases h <;> rfl

theorem SameFault.eq (hletter : ∀ c, L.letter c = c) {f f' : Fault} (h : L.SameFault f f') :
    f' = f := by
  obtain ⟨cause, position⟩ := f
  obtain ⟨cause', position'⟩ := f'
  obtain ⟨hcause, rfl⟩ := h
  cases (show L.SameCause cause cause' from hcause) with
  | same => rfl
  | illegal mode hs => rw [hs.eq hletter]

variable {α β α' β' : Type} {P : α → β → Prop} {Q : α' → β' → Prop}

/-- Two results that are related, or two faults that tell the same. -/
inductive SameResult (L : Leeway) (P : α → β → Prop) : Except Fault α → Except Fault β → Prop
  | ok {a : α} {b : β} : P a b → SameResult L P (.ok a) (.ok b)
  | error {f f' : Fault} : L.SameFault f f' → SameResult L P (.error f) (.error f')

/-- The first step has ended in a fault that excuses the second. -/
def Pardoned (L : Leeway) (x : Attempt α) : Prop := ∃ f, x.result = .error f ∧ L.pardons f

/-- **Two steps come to the same**, with the same notes, unless the second is excused. -/
def Agrees (L : Leeway) (P : α → β → Prop) (x : Attempt α) (y : Attempt β) : Prop :=
  L.Pardoned x ∨ (y.notes = x.notes ∧ L.SameResult P x.result y.result)

section Steps

variable {x : Attempt α} {y : Attempt β}

theorem agrees_pure {a : α} {b : β} (h : P a b) : L.Agrees P (pure a) (pure b) := .inr ⟨rfl, .ok h⟩

theorem agrees_fail {f f' : Fault} (h : L.SameFault f f') :
    L.Agrees P (.fail f : Attempt α) (.fail f' : Attempt β) :=
  .inr ⟨rfl, .error h⟩

theorem agrees_of_pardons {f : Fault} (h : L.pardons f) : L.Agrees P (.fail f : Attempt α) y :=
  .inl ⟨f, rfl, h⟩

/-- **Steps that come to the same, one after another, come to the same.** -/
theorem agrees_bind {f : α → Attempt α'} {g : β → Attempt β'} (hx : L.Agrees P x y)
    (hf : ∀ a b, P a b → L.Agrees Q (f a) (g b)) : L.Agrees Q (x >>= f) (y >>= g) := by
  rcases hx with ⟨e, he, hpardon⟩ | ⟨hnotes, hresult⟩
  · exact .inl ⟨e, Attempt.result_bind_of_error he, hpardon⟩
  · show L.Agrees Q (x.andThen f) (y.andThen g)
    unfold Attempt.andThen
    generalize x.result = a at hresult ⊢
    generalize y.result = b at hresult ⊢
    cases hresult with
    | error he => exact .inr ⟨hnotes, .error he⟩
    | @ok a b hab =>
      rcases hf a b hab with hpardon | ⟨hmore, hresult⟩
      · exact .inl hpardon
      · refine .inr ⟨?_, hresult⟩
        show y.notes ++ (g b).notes = x.notes ++ (f a).notes
        rw [hnotes, hmore]

/-- A step whose every result the other has too, unless it is excused. -/
theorem agrees_of_ok {x y : Attempt α} (hok : ∀ a, x.result = .ok a → y = x)
    (hpardon : ∀ f, x.result = .error f → L.pardons f) : L.Agrees Eq x y := by
  cases hx : x.result with
  | ok a =>
    rw [hok a hx]
    exact .inr ⟨rfl, by rw [hx]; exact .ok rfl⟩
  | error f => exact .inl ⟨f, hx, hpardon f hx⟩

/-- Results that are changed alike, after the same notes. -/
theorem agrees_map (notes : List HookNote) {g : α → α'} {g' : β → β'} (hx : L.Agrees P x y)
    (hg : ∀ a b, P a b → Q (g a) (g' b)) :
    L.Agrees Q ⟨notes ++ x.notes, x.result.map g⟩ ⟨notes ++ y.notes, y.result.map g'⟩ := by
  rcases hx with ⟨f, hf, hpardon⟩ | ⟨hnotes, hresult⟩
  · exact .inl ⟨f, by rw [hf]; rfl, hpardon⟩
  · refine .inr ⟨by rw [hnotes], ?_⟩
    generalize x.result = a at hresult ⊢
    generalize y.result = b at hresult ⊢
    cases hresult with
    | ok hab => exact .ok (hg _ _ hab)
    | error hf => exact .error hf

theorem agrees_mono {P' : α → β → Prop} (hx : L.Agrees P x y) (h : ∀ a b, P a b → P' a b) :
    L.Agrees P' x y := by
  rcases hx with hpardon | ⟨hnotes, hresult⟩
  · exact .inl hpardon
  · refine .inr ⟨hnotes, ?_⟩
    generalize x.result = a at hresult ⊢
    generalize y.result = b at hresult ⊢
    cases hresult with
    | ok hab => exact .ok (h _ _ hab)
    | error hf => exact .error hf

end Steps

/-! ## 2. What does not change during a run -/

/-- The same is known of a word, but perhaps for its score. -/
structure SameEntry (L : Leeway) (e e' : Keyword.Entry) : Prop where
  scope : e'.scope = e.scope
  relevance : L.scored → e'.relevance = e.relevance

/-- **The same keywords**: texts of which the same counts have the same words in them, which are
    spelled and known alike. -/
structure SameKeywords (L : Leeway) (k k' : ModeKeywords) : Prop where
  words : ∀ {t t' : Text}, L.SameText t t' → identifiers k'.regex t' = identifiers k.regex t
  spells : ∀ {w w' : String}, L.SameString w w' →
    Keyword.Table.spell k'.table.caseInsensitive w' = Keyword.Table.spell k.table.caseInsensitive w
  finds : ∀ {w w' : String}, L.SameString w w' →
    Option.Rel L.SameEntry (k.table.find? w) (k'.table.find? w')

/-- A hook answers alike on texts of which the same counts. -/
def SameHook (L : Leeway) (hook : Hook) : Prop :=
  ∀ {t t' : Text}, L.SameText t t' → ∀ (i : Nat) (groups : List (Option Span)) (data : HookData),
    hook.call ⟨t', i, groups⟩ data = hook.call ⟨t, i, groups⟩ data

/-- **The same mode**, but perhaps for its scores: on texts of which the same counts it finds the
    same. -/
structure SameMode (L : Leeway) (mode mode' : ArenaMode) : Prop where
  same : ∃ relevance keywords, mode' = { mode with relevance, keywords }
  relevance : L.scored → mode'.relevance = mode.relevance
  keywords : Option.Rel L.SameKeywords mode.keywords mode'.keywords
  next : ∀ {t t' : Text}, L.SameText t t' → ∀ i first : Nat,
    mode.rules.next t' i first = mode.rules.next t i first
  ends : ∀ {t t' : Text}, L.SameText t t' → ∀ re ∈ mode.endRegex, ∀ i : Nat,
    (re.matchAt t' i).isSome = (re.matchAt t i).isSome
  onBegin : ∀ hook ∈ mode.onBegin, L.SameHook hook
  onEnd : ∀ hook ∈ mode.onEnd, L.SameHook hook

/-- **The same language**, but perhaps for its scores, and for what it calls its labels. -/
structure SameArena (L : Leeway) (arena arena' : Arena) : Prop where
  name : arena'.name = arena.name
  root : arena'.root = arena.root
  size : arena'.modes.size = arena.modes.size
  modes : ∀ id : Nat, L.SameMode (arena.mode id) (arena'.mode id)
  aliases : ∀ scope : String, arena'.scopeAlias scope = L.label (arena.scopeAlias scope)

/-- What nested runs come to is the same, but perhaps for its score. -/
structure SameNested (L : Leeway) (n n' : Nested) : Prop where
  language : n'.language = n.language
  events : n'.events = n.events
  top : n'.top = n.top
  relevance : L.scored → n'.relevance = n.relevance

/-- **The texts of a sub-language are highlighted alike.** -/
structure SameDelegate (L : Leeway) (d d' : Delegate) (sub : SubLanguage) : Prop where
  labels : ∀ scope, L.label scope = scope
  single : ∀ name, sub = .single name → ∀ {u u' : String}, L.SameString u u' → ∀ stack,
    Option.Rel (L.Agrees L.SameNested) (d.single name u stack) (d'.single name u' stack)
  best : (∀ name, sub ≠ .single name) → ∀ {u u' : String}, L.SameString u u' → ∀ names,
    L.Agrees L.SameNested (d.best names u) (d'.best names u')

/-- **Texts of which the same counts are read in the same language.** Where the second run goes on
    past something that ends the first, the fault of the first excuses it. -/
structure SameScene (L : Leeway) (s s' : Scene) : Prop where
  arena : L.SameArena s.arena s'.arena
  text : L.SameText s.text s'.text
  floor : s'.options.loopIterationFloor = s.options.loopIterationFloor
  ratio : s'.options.loopIterationRatio = s.options.loopIterationRatio
  hits : L.scored → s'.options.maxKeywordHits = s.options.maxKeywordHits
  guard : s'.options.safeMode = s.options.safeMode ∨
    (s.options.safeMode = false ∧ ∀ i, L.pardons (s.fault (.zeroWidthMatch s.arena.name) i))
  illegals : s'.ignoreIllegals = s.ignoreIllegals ∨
    (s.ignoreIllegals = false ∧ ∀ f : Fault, f.cause.isIllegal = true → L.pardons f)
  delegate : ∀ id, ∀ sub ∈ (s.arena.mode id).subLanguage,
    L.SameDelegate s.delegate s'.delegate sub

/-! An observer to whom every character counts, and who knows labels by their names, is one to whom
    everything is the same as itself. -/

section Plain

variable (hletter : ∀ c, L.letter c = c)

include hletter

theorem sameHook_of_plain (hook : Hook) : L.SameHook hook := by
  intro t t' h i groups data
  rw [h.eq hletter]

theorem sameKeywords_of_plain {k k' : ModeKeywords} (hregex : k'.regex = k.regex)
    (hfolds : k'.table.caseInsensitive = k.table.caseInsensitive)
    (hfinds : ∀ w, Option.Rel L.SameEntry (k.table.find? w) (k'.table.find? w)) :
    L.SameKeywords k k' where
  words h := by rw [h.eq hletter, hregex]
  spells h := by rw [h.eq hletter, hfolds]
  finds {w w'} h := by
    rw [h.eq hletter]
    exact hfinds w

/-- Only the scores of a mode can differ. -/
theorem sameMode_of_plain {mode : ArenaMode} {relevance : Nat} {keywords : Option ModeKeywords}
    (hrelevance : L.scored → relevance = mode.relevance)
    (hkeywords : Option.Rel L.SameKeywords mode.keywords keywords) :
    L.SameMode mode { mode with relevance, keywords } where
  same := ⟨relevance, keywords, rfl⟩
  relevance := hrelevance
  keywords := hkeywords
  next h i first := by rw [h.eq hletter]
  ends h re _ i := by rw [h.eq hletter]
  onBegin hook _ := sameHook_of_plain hletter hook
  onEnd hook _ := sameHook_of_plain hletter hook

theorem SameMode.of_plain (mode : ArenaMode) : L.SameMode mode mode := by
  show L.SameMode mode { mode with relevance := mode.relevance, keywords := mode.keywords }
  refine sameMode_of_plain hletter (fun _ => rfl) ?_
  cases mode.keywords with
  | none => exact .none
  | some k =>
    refine .some (sameKeywords_of_plain hletter rfl rfl fun w => ?_)
    cases k.table.find? w with
    | none => exact .none
    | some e => exact .some ⟨rfl, fun _ => rfl⟩

theorem SameArena.of_plain (hlabel : ∀ scope, L.label scope = scope) (arena : Arena) :
    L.SameArena arena arena where
  name := rfl
  root := rfl
  size := rfl
  modes _ := .of_plain hletter _
  aliases _ := (hlabel _).symm

end Plain

section Scenes

variable {s s' : Scene} {mode mode' : ArenaMode}

theorem SameMode.subLanguage (h : L.SameMode mode mode') : mode'.subLanguage = mode.subLanguage := by
  obtain ⟨relevance, keywords, rfl⟩ := h.same
  rfl

theorem SameScene.topId (hs : L.SameScene s s') (frames : List Frame) :
    s'.topId frames = s.topId frames := by
  unfold Scene.topId
  rw [hs.arena.root]

theorem SameScene.stack (hs : L.SameScene s s') (frames : List Frame) :
    s'.stack frames = s.stack frames := by
  unfold Scene.stack
  rw [hs.arena.root]

theorem SameScene.position (hs : L.SameScene s s') (i : Nat) : s'.position i = s.position i := by
  unfold Scene.position
  rw [hs.text.byteOffset, hs.arena.name]

theorem SameScene.fault (hs : L.SameScene s s') (cause : Cause) (i : Nat) :
    s'.fault cause i = s.fault cause i := by
  unfold Scene.fault
  rw [hs.position]

theorem SameScene.slice (hs : L.SameScene s s') (i j : Nat) :
    L.SameString (s.text.slice i j) (s'.text.slice i j) :=
  hs.text.slice i j

end Scenes

/-! ## 3. The states of two runs -/

/-- **Two runs have come to the same**: they have told the same, and stand in the same modes at the
    same place. -/
structure SameRun (L : Leeway) (r r' : Run) : Prop where
  frames : r'.frames = r.frames
  buffer : L.SameString r.buffer r'.buffer
  events : L.SameEvents r.events r'.events
  relevance : L.scored → r'.relevance = r.relevance
  hits : r'.hits = r.hits
  blocks : r'.blocks = r.blocks
  index : r'.index = r.index
  firstRule : r'.firstRule = r.firstRule
  resumes : r'.resumes = r.resumes
  last : r'.last = r.last

namespace SameRun

variable {r r' : Run} {e e' : Event} {u u' : String} {arena arena' : Arena} {mode mode' : ArenaMode}

theorem top {s s' : Scene} (hs : L.SameScene s s') (h : L.SameRun r r') :
    L.SameMode (s.top r) (s'.top r') := by
  unfold Scene.top
  rw [h.frames, hs.topId]
  exact hs.arena.modes _

theorem emit (h : L.SameRun r r') (he : L.SameEvent e e') : L.SameRun (r.emit e) (r'.emit e') :=
  { h with events := .cons he h.events }

theorem emitText (h : L.SameRun r r') (hu : L.SameString u u') :
    L.SameRun (r.emitText u) (r'.emitText u') :=
  h.emit (.text hu)

theorem emitLabelled (h : L.SameRun r r') (ha : L.SameArena arena arena') (hu : L.SameString u u')
    (label : String) :
    L.SameRun (r.emitLabelled arena u label) (r'.emitLabelled arena' u' label) := by
  unfold Run.emitLabelled
  rw [hu.isEmpty, ha.aliases]
  split
  · exact h
  · exact ((h.emit (.opening _)).emitText hu).emit .closing

theorem withBuffer (h : L.SameRun r r') (hu : L.SameString u u') :
    L.SameRun { r with buffer := u } { r' with buffer := u' } :=
  { h with buffer := hu }

theorem hold (h : L.SameRun r r') (hu : L.SameString u u') : L.SameRun (r.hold u) (r'.hold u') :=
  { h with buffer := h.buffer.append hu }

theorem withFrames (h : L.SameRun r r') (frames : List Frame) :
    L.SameRun { r with frames } { r' with frames } :=
  { h with frames := rfl }

theorem moved (h : L.SameRun r r') (i : Nat) :
    L.SameRun { r with index := i } { r' with index := i } :=
  { h with index := rfl }

theorem withRelevance (h : L.SameRun r r') {n n' : Nat} (hn : L.scored → n' = n) :
    L.SameRun { r with relevance := n } { r' with relevance := n' } :=
  { h with relevance := hn }

theorem openMode (h : L.SameRun r r') (ha : L.SameArena arena arena') (hm : L.SameMode mode mode') :
    L.SameRun (r.openMode arena mode) (r'.openMode arena' mode') := by
  obtain ⟨relevance, keywords, rfl⟩ := hm.same
  unfold Run.openMode
  cases mode.scope with
  | none => exact h
  | some label =>
    simp only [ha.aliases]
    exact h.emit (.opening _)

theorem closeMode (h : L.SameRun r r') (hm : L.SameMode mode mode') :
    L.SameRun (r.closeMode mode) (r'.closeMode mode') := by
  obtain ⟨relevance, keywords, rfl⟩ := hm.same
  unfold Run.closeMode
  split
  · exact h.emit .closing
  · exact h

theorem count (h : L.SameRun r r') {maxHits maxHits' n n' : Nat}
    (hmax : L.scored → maxHits' = maxHits) (hn : L.scored → n' = n) (word : String) :
    L.SameRun (r.count maxHits word n) (r'.count maxHits' word n') := by
  refine { h with relevance := fun hscored => ?_, hits := ?_ }
  · simp only [Run.count, h.hits, h.relevance hscored, hmax hscored, hn hscored]
  · simp only [Run.count, h.hits]

end SameRun

end Leeway

end Highlight.Scan
