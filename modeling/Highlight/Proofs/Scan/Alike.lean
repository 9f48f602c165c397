import Highlight.Proofs.Arena.Hits
import Highlight.Proofs.Scan.Attempts
import Highlight.Proofs.Scan.Rounds
import Mathlib.Data.List.Forall2

/-!
# Runs that are alike

Two languages can be the same but for the numbers of their modes and for their rules. Runs in them
that have told the same, and stand in the same modes, then do the same with the same match; only
what they find next may differ.

* `Attempt.Agrees`, `agrees_bind` -- two steps that come to the same, unless the guard ends the first;
* `SameMode`, `SameArena`, `SameScene` -- what is the same but for numbers and rules;
* `Run.Alike` -- two runs that have told the same;
* `alike_tellKeywords`, `agrees_flush` -- telling text;
* `agrees_act`, `agrees_complete` -- handling a match, and the end of the text.
-/

namespace Highlight.Scan

open Highlight.Arena (ArenaMode RuleMatch RuleKind ScopeEmit SameKind SameMatch ModeKeywords)
open Highlight.Grammar (Hook HookData SubLanguage)
open Highlight.Regex (Span)
open Highlight.Token (Event)

/-! ## 1. Steps that come to the same -/

namespace Attempt

variable {α β α' β' : Type} {P : α → β → Prop} {Q : α' → β' → Prop} {x : Attempt α} {y : Attempt β}

/-- The guard has ended the step, or a run inside it. -/
def Guarded (x : Attempt α) : Prop := ∃ f, x.result = .error f ∧ f.cause.isInfiniteLoop = true

/-- Two results that are related, or one fault. -/
inductive SameResult (P : α → β → Prop) : Except Fault α → Except Fault β → Prop
  | ok {a : α} {b : β} : P a b → SameResult P (.ok a) (.ok b)
  | error (f : Fault) : SameResult P (.error f) (.error f)

/-- **Two steps come to the same**, notes and faults included, unless the guard ends the first. -/
def Agrees (P : α → β → Prop) (x : Attempt α) (y : Attempt β) : Prop :=
  x.Guarded ∨ (x.notes = y.notes ∧ SameResult P x.result y.result)

theorem agrees_pure {a : α} {b : β} (h : P a b) : Agrees P (pure a) (pure b) := .inr ⟨rfl, .ok h⟩

theorem agrees_fail (f : Fault) : Agrees P (fail f : Attempt α) (fail f : Attempt β) :=
  .inr ⟨rfl, .error f⟩

theorem guarded_bind {f : α → Attempt α'} (h : x.Guarded) : (x >>= f).Guarded := by
  obtain ⟨e, he, hloop⟩ := h
  exact ⟨e, result_bind_of_error he, hloop⟩

/-- **Steps that come to the same, one after another, come to the same.** -/
theorem agrees_bind {f : α → Attempt α'} {g : β → Attempt β'} (hx : Agrees P x y)
    (hf : ∀ a b, P a b → Agrees Q (f a) (g b)) : Agrees Q (x >>= f) (y >>= g) := by
  rcases hx with hguarded | ⟨hnotes, hresult⟩
  · exact .inl (guarded_bind hguarded)
  · unfold Agrees Guarded
    show (∃ e, (x.andThen f).result = .error e ∧ _) ∨ (x.andThen f).notes = (y.andThen g).notes ∧
      SameResult Q (x.andThen f).result (y.andThen g).result
    unfold andThen
    generalize x.result = a at hresult ⊢
    generalize y.result = b at hresult ⊢
    cases hresult with
    | error e => exact .inr ⟨hnotes, .error e⟩
    | @ok a b hab =>
      rcases hf a b hab with hguarded | ⟨hmore, hresult⟩
      · exact .inl hguarded
      · refine .inr ⟨?_, hresult⟩
        show x.notes ++ (f a).notes = y.notes ++ (g b).notes
        rw [hnotes, hmore]

theorem agrees_mono {P' : α → β → Prop} (hx : Agrees P x y) (h : ∀ a b, P a b → P' a b) :
    Agrees P' x y := by
  rcases hx with hguarded | ⟨hnotes, hresult⟩
  · exact .inl hguarded
  · refine .inr ⟨hnotes, ?_⟩
    generalize x.result = a at hresult ⊢
    generalize y.result = b at hresult ⊢
    cases hresult with
    | ok hab => exact .ok (h _ _ hab)
    | error f => exact .error f

end Attempt

open Attempt

/-! ## 2. What is the same -/

variable {R : Nat → Nat → Prop} {T : String → List Nat → List Nat → Prop}

/-- **The same mode**, up to the numbers of modes and its rules. -/
structure SameMode (R : Nat → Nat → Prop) (mode mode' : ArenaMode) : Prop where
  same : ∃ contains starts rules, mode' = { mode with contains, starts, rules }
  starts : Option.Rel R mode.starts mode'.starts

/-- **The same language**, up to the numbers of modes and their rules. -/
structure SameArena (R : Nat → Nat → Prop) (arena arena' : Arena) : Prop where
  name : arena'.name = arena.name
  aliases : arena'.classNameAliases = arena.classNameAliases
  root : R arena.root arena'.root
  modes : ∀ {i i' : Nat}, R i i' → SameMode R (arena.mode i) (arena'.mode i')

/-- What nested runs come to is the same, up to the numbers of modes at their end. -/
structure SameNested (T : List Nat → List Nat → Prop) (n n' : Nested) : Prop where
  language : n'.language = n.language
  relevance : n'.relevance = n.relevance
  events : n'.events = n.events
  top : T n.top n'.top

/-- Texts of sub-languages are highlighted in the same way. `T` relates the modes in which the runs
    of a language can end. -/
structure SameDelegate (T : String → List Nat → List Nat → Prop) (d d' : Delegate) : Prop where
  single : ∀ name text {c c' : Option (List Nat)}, Option.Rel (T name) c c' →
    Option.Rel (Agrees (SameNested (T name))) (d.single name text c) (d'.single name text c')
  best : ∀ names text,
    Agrees (SameNested fun _ _ => True) (d.best names text) (d'.best names text)

/-- **The same text is read in the same language**, up to the numbers of modes and their rules. -/
structure SameScene (R : Nat → Nat → Prop) (T : String → List Nat → List Nat → Prop)
    (s s' : Scene) : Prop where
  arena : SameArena R s.arena s'.arena
  options : s'.options = s.options
  text : s'.text = s.text
  ignoreIllegals : s'.ignoreIllegals = s.ignoreIllegals
  delegate : SameDelegate T s.delegate s'.delegate

/-- The same open mode. -/
structure SameFrame (R : Nat → Nat → Prop) (f f' : Frame) : Prop where
  mode : R f.mode f'.mode
  data : f'.data = f.data

/-- **Two runs have told the same and stand in the same modes**, wherever they are in the text. They
    keep `k` and `k'` for their next searches. -/
structure Run.Alike (R : Nat → Nat → Prop) (T : String → List Nat → List Nat → Prop) (k k' : Marks)
    (r r' : Run) : Prop where
  frames : List.Forall₂ (SameFrame R) r.frames r'.frames
  buffer : r'.buffer = r.buffer
  events : r'.events = r.events
  relevance : r'.relevance = r.relevance
  hits : r'.hits = r.hits
  blocks : ∀ name, Option.Rel (T name) (r.blocks.get? name) (r'.blocks.get? name)
  marks : r.marks = k
  marks' : r'.marks = k'

variable {s s' : Scene} {arena arena' : Arena} {mode mode' : ArenaMode} {k k' : Marks} {r r' : Run}
  {m m' : RuleMatch} {frames frames' : List Frame}

theorem SameArena.scopeAlias (ha : SameArena R arena arena') (label : String) :
    arena'.scopeAlias label = arena.scopeAlias label := by
  unfold Arena.scopeAlias
  rw [ha.aliases]

theorem SameScene.fault (hs : SameScene R T s s') (cause : Cause) (i : Nat) :
    s'.fault cause i = s.fault cause i := by
  unfold Scene.fault Scene.position
  rw [hs.text, hs.arena.name]

theorem SameScene.topId (hs : SameScene R T s s') (h : List.Forall₂ (SameFrame R) frames frames') :
    R (s.topId frames) (s'.topId frames') := by
  cases h with
  | nil => exact hs.arena.root
  | cons hf _ => exact hf.mode

theorem SameScene.top (hs : SameScene R T s s') (h : r.Alike R T k k' r') :
    SameMode R (s.top r) (s'.top r') :=
  hs.arena.modes (hs.topId h.frames)

/-! ## 3. Telling events -/

namespace Run.Alike

theorem emit (h : r.Alike R T k k' r') (e : Event) : (r.emit e).Alike R T k k' (r'.emit e) :=
  { h with events := congrArg (e :: ·) h.events }

theorem emitText (h : r.Alike R T k k' r') (t : String) :
    (r.emitText t).Alike R T k k' (r'.emitText t) :=
  h.emit _

theorem emitLabelled (h : r.Alike R T k k' r') (ha : SameArena R arena arena') (t label : String) :
    (r.emitLabelled arena t label).Alike R T k k' (r'.emitLabelled arena' t label) := by
  unfold Run.emitLabelled
  rw [ha.scopeAlias]
  split
  · exact h
  · exact ((h.emit _).emitText t).emit _

theorem withBuffer (h : r.Alike R T k k' r') (b : String) :
    Run.Alike R T k k' { r with buffer := b } { r' with buffer := b } :=
  { h with buffer := rfl }

theorem hold (h : r.Alike R T k k' r') (t : String) :
    (r.hold t).Alike R T k k' (r'.hold t) :=
  { h with buffer := congrArg (· ++ t) h.buffer }

/-- Runs that are alike are so anywhere in the text. -/
theorem moved (h : r.Alike R T k k' r') (i i' : Nat) :
    Run.Alike R T k k' { r with index := i } { r' with index := i' } :=
  { h with }

theorem openMode (h : r.Alike R T k k' r') (ha : SameArena R arena arena')
    (hm : SameMode R mode mode') :
    (r.openMode arena mode).Alike R T k k' (r'.openMode arena' mode') := by
  obtain ⟨contains, starts, rules, rfl⟩ := hm.same
  unfold Run.openMode
  cases mode.scope with
  | none => exact h
  | some label =>
    simp only [ha.scopeAlias]
    exact h.emit _

theorem closeMode (h : r.Alike R T k k' r') (hm : SameMode R mode mode') :
    (r.closeMode mode).Alike R T k k' (r'.closeMode mode') := by
  obtain ⟨contains, starts, rules, rfl⟩ := hm.same
  unfold Run.closeMode
  split
  · exact h.emit _
  · exact h

theorem count (h : r.Alike R T k k' r') (maxHits : Nat) (word : String) (relevance : Nat) :
    (r.count maxHits word relevance).Alike R T k k' (r'.count maxHits word relevance) := by
  refine { h with relevance := ?_, hits := ?_ }
  · simp only [Run.count, h.hits, h.relevance]
  · simp only [Run.count, h.hits]

end Run.Alike

/-! ## 4. Telling text -/

/-- The telling of a text has come as far in two runs. -/
structure Telling.Alike (R : Nat → Nat → Prop) (T : String → List Nat → List Nat → Prop)
    (k k' : Marks) (t t' : Telling) : Prop where
  run : t.run.Alike R T k k' t'.run
  pending : t'.pending = t.pending
  upTo : t'.upTo = t.upTo

theorem alike_tellWord (hs : SameScene R T s s') (words : ModeKeywords) (text : Text)
    {t t' : Telling} (h : t.Alike R T k k' t') (span : Span) :
    (tellWord s words text t span).Alike R T k k' (tellWord s' words text t' span) := by
  unfold tellWord
  rw [h.pending, h.upTo, hs.options]
  simp only
  split
  · exact ⟨h.run, rfl, rfl⟩
  · rename_i entry _
    have hcount := (h.run.emitText (t.pending ++ text.slice t.upTo span.start)).count
      s.options.maxKeywordHits
      (Keyword.Table.spell words.table.caseInsensitive (text.slice span.start span.stop))
      entry.relevance
    split
    · exact ⟨hcount, rfl, rfl⟩
    · exact ⟨hcount.emitLabelled hs.arena _ _, rfl, rfl⟩

theorem alike_tellKeywords (hs : SameScene R T s s') (h : r.Alike R T k k' r') (buffer : String) :
    (tellKeywords s buffer r).Alike R T k k' (tellKeywords s' buffer r') := by
  obtain ⟨contains, starts, rules, hm⟩ := (hs.top h).same
  unfold tellKeywords
  rw [hm]
  simp only
  split
  · exact h.emitText buffer
  · rename_i words _
    have htelling : ∀ (spans : List Span) (t t' : Telling), t.Alike R T k k' t' →
        (spans.foldl (tellWord s words (Text.ofString buffer)) t).Alike R T k k'
          (spans.foldl (tellWord s' words (Text.ofString buffer)) t') := by
      intro spans
      induction spans with
      | nil => exact fun _ _ ht => ht
      | cons span spans ih => exact fun t t' ht => ih _ _ (alike_tellWord hs words _ ht span)
    have ht := htelling (identifiers words.regex (Text.ofString buffer)) ⟨r, "", 0⟩ ⟨r', "", 0⟩
      ⟨h, rfl, rfl⟩
    rw [ht.pending, ht.upTo]
    exact ht.run.emitText _

theorem alike_splice (h : r.Alike R T k k' r') (hm : SameMode R mode mode') {n n' : Nested}
    {T' : List Nat → List Nat → Prop} (hn : SameNested T' n n') :
    (r.splice mode n).Alike R T k k' (r'.splice mode' n') := by
  obtain ⟨contains, starts, rules, rfl⟩ := hm.same
  unfold Run.splice
  rw [hn.language, hn.relevance, hn.events, h.relevance]
  refine Run.Alike.emit ?_ _
  exact { h with relevance := rfl }

theorem agrees_tellBlock (hs : SameScene R T s s') (h : r.Alike R T k k' r') (sub : SubLanguage)
    (buffer : String) :
    Agrees (Run.Alike R T k k') (tellBlock s sub buffer r) (tellBlock s' sub buffer r') := by
  have hm := hs.top h
  unfold tellBlock
  split
  · exact agrees_pure h
  · cases sub with
    | single name =>
      simp only
      have hsingle := hs.delegate.single name buffer (h.blocks name)
      cases hd : s.delegate.single name buffer (r.blocks.get? name) with
      | none =>
        rw [hd] at hsingle
        cases hd' : s'.delegate.single name buffer (r'.blocks.get? name) with
        | none => exact agrees_pure (h.emitText buffer)
        | some _ =>
          rw [hd'] at hsingle
          cases hsingle
      | some x =>
        rw [hd] at hsingle
        cases hd' : s'.delegate.single name buffer (r'.blocks.get? name) with
        | none =>
          rw [hd'] at hsingle
          cases hsingle
        | some x' =>
          rw [hd'] at hsingle
          cases hsingle with
          | some hx =>
            refine agrees_bind hx fun n n' hn => agrees_pure (alike_splice ?_ hm hn)
            refine { h with blocks := fun other => ?_ }
            simp only [Dictionary.get?_insert]
            split
            · rename_i hname
              subst hname
              exact .some hn.top
            · exact h.blocks other
    | list names =>
      exact agrees_bind (hs.delegate.best _ buffer) fun n n' hn => agrees_pure (alike_splice h hm hn)
    | any =>
      exact agrees_bind (hs.delegate.best _ buffer) fun n n' hn => agrees_pure (alike_splice h hm hn)

theorem agrees_flush (hs : SameScene R T s s') (h : r.Alike R T k k' r') :
    Agrees (Run.Alike R T k k') (flush s r) (flush s' r') := by
  have hempty := h.withBuffer ""
  obtain ⟨contains, starts, rules, hm⟩ := (hs.top hempty).same
  unfold flush
  rw [h.buffer]
  simp only
  rw [hm]
  simp only
  split
  · exact agrees_tellBlock hs hempty _ _
  · exact agrees_pure (alike_tellKeywords hs hempty _)

/-! ## 5. Modes open -/

theorem alike_tellPart (hs : SameScene R T s s') (hm : SameMatch R m m') (h : r.Alike R T k k' r')
    (part : Nat × Option String) :
    (tellPart s m r part).Alike R T k k' (tellPart s' m' r' part) := by
  unfold tellPart
  rw [hm.groups, hs.text]
  split
  · simp only
    split
    · exact h.emitLabelled hs.arena _ _
    · exact alike_tellKeywords hs h _
  · exact h

theorem alike_tellParts (hs : SameScene R T s s') (hm : SameMatch R m m') (h : r.Alike R T k k' r')
    (labels : Dictionary Nat (Option String)) :
    (tellParts s m labels r).Alike R T k k' (tellParts s' m' labels r') := by
  unfold tellParts
  induction labels.entries generalizing r r' with
  | nil => exact h
  | cons part parts ih => exact ih (alike_tellPart hs hm h part)

theorem alike_startMode (hs : SameScene R T s s') (hm : SameMatch R m m') (h : r.Alike R T k k' r')
    {id id' : Nat} (hid : R id id') (data : HookData) :
    (startMode s id m data r).Alike R T k k' (startMode s' id' m' data r') := by
  have hmode := hs.arena.modes hid
  have hopen := h.openMode hs.arena hmode
  obtain ⟨contains, starts, rules, hsame⟩ := hmode.same
  have hpush : ∀ {r r' : Run}, r.Alike R T k k' r' →
      Run.Alike R T k k' { r with frames := ⟨id, data⟩ :: r.frames }
        { r' with frames := ⟨id', data⟩ :: r'.frames } :=
    fun h => { h with frames := .cons ⟨hid, rfl⟩ h.frames }
  unfold startMode
  simp only
  refine hpush ?_
  rw [hsame] at hopen ⊢
  simp only
  split
  · rw [hopen.buffer]
    exact (hopen.withBuffer "").emitLabelled hs.arena _ _
  · exact (alike_tellParts hs hm hopen _).withBuffer ""
  · exact hopen

theorem agrees_holdBegin (hs : SameScene R T s s') (hmode : SameMode R mode mode')
    (h : r.Alike R T k k' r') (lexeme : String) :
    Agrees (Run.Alike R T k k') (holdBegin s mode lexeme r) (holdBegin s' mode' lexeme r') := by
  obtain ⟨contains, starts, rules, rfl⟩ := hmode.same
  unfold holdBegin
  split
  · exact agrees_pure (h.hold lexeme)
  · have hheld : Run.Alike R T k k' (if mode.excludeBegin then r.hold lexeme else r)
        (if mode.excludeBegin then r'.hold lexeme else r') := by
      split
      · exact h.hold lexeme
      · exact h
    refine agrees_bind (agrees_flush hs hheld) fun r1 r1' h1 => agrees_pure ?_
    split
    · exact h1
    · exact h1.withBuffer lexeme

theorem lexeme_eq (hs : SameScene R T s s') (hm : SameMatch R m m') :
    lexeme s' m' = lexeme s m := by
  unfold lexeme
  rw [hs.text, hm.span]

theorem agrees_askHook? (hs : SameScene R T s s') (hm : SameMatch R m m') (hook : Option Hook)
    (data : HookData) :
    Agrees Eq (askHook? s hook m data) (askHook? s' hook m' data) := by
  have heq : askHook? s' hook m' data = askHook? s hook m data := by
    unfold askHook? askHook
    simp only [hs.text, hm.span, hm.groups, hs.fault]
  rw [heq]
  refine .inr ⟨rfl, ?_⟩
  cases (askHook? s hook m data).result with
  | ok a => exact .ok rfl
  | error f => exact .error f

/-- **What becomes of two runs that meet a match**: both go on alike, at the same index, or both turn
    the match down. -/
inductive Followed (R : Nat → Nat → Prop) (T : String → List Nat → List Nat → Prop) (s s' : Scene)
    (m m' : RuleMatch) (r r' : Run) : Run → Run → Prop
  | on {r1 r1' : Run} : r1.Alike R T r.marks r'.marks r1' → m.span.start ≤ r1.index →
      r1'.index = r1.index → Followed R T s s' m m' r r' r1 r1'
  | down : Followed R T s s' m m' r r' (turnDown s m r) (turnDown s' m' r')

/-- A match ends where it begins, or behind that. -/
def Ordered (m : RuleMatch) : Prop := m.span.start ≤ m.span.stop

theorem agrees_beginStep (hs : SameScene R T s s') (hm : SameMatch R m m') (hordered : Ordered m)
    (h : r.Alike R T k k' r') {id id' : Nat} (hid : R id id') :
    Agrees (Followed R T s s' m m' r r') (beginStep s id m r) (beginStep s' id' m' r') := by
  obtain rfl := h.marks
  obtain rfl := h.marks'
  have hmode := hs.arena.modes hid
  obtain ⟨contains, starts, rules, hsame⟩ := hmode.same
  have hdot : (s'.arena.mode id').skipAfterDot = (s.arena.mode id).skipAfterDot := by rw [hsame]
  have hhook : (s'.arena.mode id').onBegin = (s.arena.mode id).onBegin := by rw [hsame]
  have hreturn : (s'.arena.mode id').returnBegin = (s.arena.mode id).returnBegin := by rw [hsame]
  unfold beginStep
  simp only [hm.span, hs.text, lexeme_eq hs hm, hdot, hhook, hreturn]
  split
  · exact agrees_pure (.down)
  · refine agrees_bind (agrees_askHook? hs hm _ _) ?_
    rintro ⟨counts, data⟩ _ rfl
    split
    · exact agrees_pure (.down)
    · refine agrees_bind (agrees_holdBegin hs hmode h _) fun r1 r1' h1 => agrees_pure ?_
      refine .on ((alike_startMode hs hm h1 hid data).moved _ _) ?_ rfl
      simp only
      split
      · exact Nat.le_refl _
      · exact hordered

/-! ## 6. Modes close -/

theorem closingWith_eq (ha : SameArena R arena arena')
    (h : List.Forall₂ (SameFrame R) frames frames') :
    closingWith arena' frames' = closingWith arena frames := by
  induction h with
  | nil => rfl
  | @cons f f' rest rest' hf hrest ih =>
    obtain ⟨contains, starts, rules, hsame⟩ := (ha.modes hf.mode).same
    have hempty : rest'.isEmpty = rest.isEmpty := by cases hrest <;> rfl
    unfold closingWith
    rw [hsame, hempty, ih]

theorem agrees_askEnd (hs : SameScene R T s s') (hm : SameMatch R m m')
    (hmode : SameMode R mode mode') (data : HookData) :
    Agrees Eq (askEnd s mode m data) (askEnd s' mode' m' data) := by
  obtain ⟨contains, starts, rules, rfl⟩ := hmode.same
  unfold askEnd endsAt
  rw [hm.span, hs.text]
  split
  · exact agrees_askHook? hs hm _ _
  · exact agrees_pure rfl

/-- The same modes close. -/
def SameCount (R : Nat → Nat → Prop) (c c' : Option Nat × List Frame) : Prop :=
  c'.1 = c.1 ∧ List.Forall₂ (SameFrame R) c.2 c'.2

theorem agrees_endOf (hs : SameScene R T s s') (hm : SameMatch R m m')
    (h : List.Forall₂ (SameFrame R) frames frames') :
    Agrees (SameCount R) (endOf s m frames) (endOf s' m' frames') := by
  induction h with
  | nil => exact agrees_pure ⟨rfl, .nil⟩
  | @cons f f' rest rest' hf hrest ih =>
    have hmode := hs.arena.modes hf.mode
    obtain ⟨contains, starts, rules, hsame⟩ := hmode.same
    unfold endOf
    rw [hf.data]
    refine agrees_bind (agrees_askEnd hs hm hmode _) ?_
    rintro ⟨counts, data⟩ _ rfl
    have hframe : SameFrame R { f with data } { f' with data } := ⟨hf.mode, rfl⟩
    rw [hsame]
    simp only
    split
    · refine agrees_pure ⟨?_, .cons hframe hrest⟩
      exact congrArg some (closingWith_eq hs.arena (.cons hframe hrest))
    · split
      · refine agrees_bind ih fun c c' hc => agrees_pure ⟨?_, .cons hframe hc.2⟩
        exact congrArg (Option.map (· + 1)) hc.1
      · exact agrees_pure ⟨rfl, .cons hframe hrest⟩

theorem agrees_holdEnd (hs : SameScene R T s s') (hm : SameMatch R m m')
    (hmode : SameMode R mode mode') (h : r.Alike R T k k' r') :
    Agrees (Run.Alike R T k k') (holdEnd s mode m r) (holdEnd s' mode' m' r') := by
  obtain ⟨contains, starts, rules, rfl⟩ := hmode.same
  unfold holdEnd
  rw [lexeme_eq hs hm]
  simp only
  split
  · exact agrees_bind (agrees_flush hs h) fun r1 r1' h1 =>
      agrees_pure (h1.emitLabelled hs.arena _ _)
  · exact agrees_bind (agrees_flush hs h) fun r1 r1' h1 =>
      agrees_pure ((alike_tellParts hs hm h1 _).withBuffer "")
  · split
    · exact agrees_pure (h.hold _)
    · have hheld : Run.Alike R T k k'
          (if mode.returnEnd || mode.excludeEnd then r else r.hold (lexeme s m))
          (if mode.returnEnd || mode.excludeEnd then r' else r'.hold (lexeme s m)) := by
        split
        · exact h
        · exact h.hold _
      refine agrees_bind (agrees_flush hs hheld) fun r1 r1' h1 => agrees_pure ?_
      split
      · exact h1.withBuffer _
      · exact h1

theorem alike_closeFrame (ha : SameArena R arena arena') {f f' : Frame} (hf : SameFrame R f f')
    (h : r.Alike R T k k' r') : (closeFrame arena f r).Alike R T k k' (closeFrame arena' f' r') := by
  have hmode := ha.modes hf.mode
  have hclose := h.closeMode hmode
  obtain ⟨contains, starts, rules, hsame⟩ := hmode.same
  unfold closeFrame
  rw [hsame] at hclose ⊢
  simp only
  split
  · exact hclose
  · exact { hclose with relevance := congrArg (· + _) hclose.relevance }

theorem alike_closeFrames (ha : SameArena R arena arena') :
    ∀ (n : Nat) {ended ended' : Option Nat} {r r' : Run}, Option.Rel R ended ended' →
      r.Alike R T k k' r' →
      Option.Rel R (closeFrames arena n ended r).1 (closeFrames arena' n ended' r').1 ∧
        (closeFrames arena n ended r).2.Alike R T k k' (closeFrames arena' n ended' r').2
  | 0, _, _, _, _, hended, h => ⟨hended, h⟩
  | n + 1, ended, ended', r, r', hended, h => by
      have hframes := h.frames
      unfold closeFrames
      generalize hf : r.frames = frames at hframes ⊢
      generalize hf' : r'.frames = frames' at hframes ⊢
      cases hframes with
      | nil => exact ⟨hended, h⟩
      | cons hframe hrest =>
        exact alike_closeFrames ha n (.some hframe.mode)
          (alike_closeFrame ha hframe { h with frames := hrest })

theorem agrees_endStep (hs : SameScene R T s s') (hm : SameMatch R m m') (hordered : Ordered m)
    (h : r.Alike R T k k' r') :
    Agrees (Followed R T s s' m m' r r') (endStep s m r) (endStep s' m' r') := by
  obtain rfl := h.marks
  obtain rfl := h.marks'
  unfold endStep
  refine agrees_bind (agrees_endOf hs hm h.frames) ?_
  rintro ⟨count, frames⟩ ⟨count', frames'⟩ ⟨hcount, hframes⟩
  cases (show count' = count from hcount)
  have hasked : Run.Alike R T r.marks r'.marks { r with frames } { r' with frames := frames' } :=
    { h with frames := hframes }
  simp only
  cases count with
  | none =>
    refine agrees_pure (.on ?_ (Nat.le_succ _) ?_)
    · unfold passChar
      rw [hm.span, hs.text]
      exact (hasked.hold _).moved _ _
    · unfold passChar
      rw [hm.span]
  | some n =>
    have hmode := hs.top hasked
    obtain ⟨contains, starts, rules, hsame⟩ := hmode.same
    refine agrees_bind (agrees_holdEnd hs hm hmode hasked) fun r1 r1' h1 => ?_
    obtain ⟨hended, hclosed⟩ := alike_closeFrames hs.arena n .none h1
    generalize closeFrames s.arena n none r1 = c at hended hclosed ⊢
    generalize closeFrames s'.arena n none r1' = c' at hended hclosed ⊢
    obtain ⟨ended, r2⟩ := c
    obtain ⟨ended', r2'⟩ := c'
    have hstarts : Option.Rel R (ended.bind fun id => (s.arena.mode id).starts)
        (ended'.bind fun id => (s'.arena.mode id).starts) := by
      cases hended with
      | none => exact .none
      | some hid => exact (hs.arena.modes hid).starts
    refine agrees_pure (.on (Run.Alike.moved ?_ _ _) ?_ ?_)
    · simp only
      generalize (ended.bind fun id => (s.arena.mode id).starts) = next at hstarts ⊢
      generalize (ended'.bind fun id => (s'.arena.mode id).starts) = next' at hstarts ⊢
      cases hstarts with
      | none => exact hclosed
      | some hid => exact alike_startMode hs hm hclosed hid .empty
    · simp only
      split
      · exact Nat.le_refl _
      · exact hordered
    · rw [hm.span]
      simp only
      rw [hsame]

/-! ## 7. A match, and the end of the text -/

/-- **Runs that are alike do the same with a match.** -/
theorem agrees_act (hs : SameScene R T s s') (hm : SameMatch R m m') (hordered : Ordered m)
    (h : r.Alike R T k k' r') :
    Agrees (Followed R T s s' m m' r r') (act s m r) (act s' m' r') := by
  obtain rfl := h.marks
  obtain rfl := h.marks'
  unfold act
  have hkind := hm.kind
  generalize m.kind = kind at hkind ⊢
  generalize m'.kind = kind' at hkind ⊢
  cases hkind with
  | begins hid => exact agrees_beginStep hs hm hordered h hid
  | ends => exact agrees_endStep hs hm hordered h
  | illegal =>
    simp only
    rw [hs.ignoreIllegals]
    split
    · have hempty : m'.isEmpty = m.isEmpty := by
        unfold RuleMatch.isEmpty
        rw [hm.span]
      unfold passIllegal passChar
      rw [hempty, hm.span, hs.text, lexeme_eq hs hm]
      split
      · exact agrees_pure (.on ((h.hold _).moved _ _) (Nat.le_succ _) rfl)
      · exact agrees_pure (.on ((h.hold _).moved _ _) hordered rfl)
    · have hlabel : (s'.top r').shownLabel = (s.top r).shownLabel := by
        obtain ⟨contains, starts, rules, hsame⟩ := (hs.top h).same
        rw [hsame]
        rfl
      rw [hs.fault, lexeme_eq hs hm, hm.span, hlabel]
      exact agrees_fail _

/-- Two runs come to the same, up to the numbers of the modes that are open in the end, unless the
    guard ends the first. -/
inductive SameScanned (R : Nat → Nat → Prop) : Scanned → Scanned → Prop
  | guarded {x y : Scanned} {f : Fault} : x.fault = some f → f.cause.isInfiniteLoop = true →
      SameScanned R x y
  | same {notes : List Grammar.HookNote} {frames frames' : List Frame} {events : List Event}
      {relevance : Nat} {fault : Option Fault} : List.Forall₂ (SameFrame R) frames frames' →
      SameScanned R ⟨notes, frames, events, relevance, fault⟩
        ⟨notes, frames', events, relevance, fault⟩

/-- **Runs that are alike once the rest of the text is held back come to the same.** -/
theorem same_complete (hs : SameScene R T s s') (notes : List Grammar.HookNote)
    (h : (r.hold (s.text.slice r.index s.text.size)).Alike R T k k'
      (r'.hold (s'.text.slice r'.index s'.text.size))) :
    SameScanned R (complete s notes r) (complete s' notes r') := by
  have hflush := agrees_flush hs h
  have hevents : r'.events = r.events := h.events
  unfold complete
  generalize flush s (r.hold (s.text.slice r.index s.text.size)) = x at hflush ⊢
  generalize flush s' (r'.hold (s'.text.slice r'.index s'.text.size)) = x' at hflush ⊢
  obtain ⟨more, result⟩ := x
  obtain ⟨more', result'⟩ := x'
  rcases hflush with ⟨f, hf, hloop⟩ | ⟨hmore, hresult⟩
  · cases (show result = .error f from hf)
    exact .guarded rfl hloop
  · cases (show more = more' from hmore)
    cases (show SameResult _ result result' from hresult) with
    | error f =>
      simp only [hevents]
      exact .same h.frames
    | ok h1 =>
      simp only [h1.events, h1.relevance]
      exact .same h1.frames

end Highlight.Scan
