import Highlight.Proofs.Scan.Alike
import Highlight.Proofs.Scan.Leeway

/-!
# Runs that come to the same

Two runs that an observer cannot tell apart stay so step by step: each function of a step keeps what
the observer looks at, whatever the leeway.

* `same_tellKeywords`, `agrees_flush` -- telling text;
* `same_startMode`, `agrees_beginStep`, `agrees_endStep` -- opening and closing modes;
* `agrees_step` -- one step;
* `SameScanned`, `same_scanAll` -- a whole run.
-/

namespace Highlight.Scan.Leeway

open Highlight.Arena (ArenaMode RuleMatch RuleKind ScopeEmit ModeKeywords)
open Highlight.Grammar (Hook HookData HookNote SubLanguage)
open Highlight.Regex (Span)
open Highlight.Token (Event)

variable {L : Leeway} {s s' : Scene} {arena arena' : Arena} {mode mode' : ArenaMode}
  {r r' : Run} {u u' : String}

/-! ## 1. Telling text -/

/-- The telling of a text has come as far in two runs. -/
structure SameTelling (L : Leeway) (t t' : Telling) : Prop where
  run : L.SameRun t.run t'.run
  pending : L.SameString t.pending t'.pending
  upTo : t'.upTo = t.upTo

theorem same_tellWord (hs : L.SameScene s s') {k k' : ModeKeywords} (hk : L.SameKeywords k k')
    {text text' : Text} (htext : L.SameText text text') {t t' : Telling} (h : L.SameTelling t t')
    (span : Span) :
    L.SameTelling (tellWord s k text t span) (tellWord s' k' text' t' span) := by
  have hword : L.SameString (text.slice span.start span.stop) (text'.slice span.start span.stop) :=
    htext.slice _ _
  have hpending : L.SameString (t.pending ++ text.slice t.upTo span.start)
      (t'.pending ++ text'.slice t'.upTo span.start) := by
    rw [h.upTo]
    exact h.pending.append (htext.slice _ _)
  have hfind := hk.finds hword
  unfold tellWord
  simp only
  generalize k.table.find? (text.slice span.start span.stop) = entry at hfind ⊢
  generalize k'.table.find? (text'.slice span.start span.stop) = entry' at hfind ⊢
  cases hfind with
  | none => exact ⟨h.run, hpending.append hword, rfl⟩
  | @some entry entry' hentry =>
    simp only
    rw [hentry.scope, hk.spells hword]
    have hcount := (h.run.emitText hpending).count hs.hits hentry.relevance
      (Keyword.Table.spell k.table.caseInsensitive (text.slice span.start span.stop))
    split
    · exact ⟨hcount, hword, rfl⟩
    · exact ⟨hcount.emitLabelled hs.arena hword _, .refl "", rfl⟩

theorem same_tellKeywords (hs : L.SameScene s s') (h : L.SameRun r r') (hu : L.SameString u u') :
    L.SameRun (tellKeywords s u r) (tellKeywords s' u' r') := by
  have hkeywords := (h.top hs).keywords
  unfold tellKeywords
  generalize (s.top r).keywords = k at hkeywords ⊢
  generalize (s'.top r').keywords = k' at hkeywords ⊢
  cases hkeywords with
  | none => exact h.emitText hu
  | @some k k' hk =>
    have htext := hu.ofString
    have htelling : ∀ (spans : List Span) (t t' : Telling), L.SameTelling t t' →
        L.SameTelling (spans.foldl (tellWord s k (Text.ofString u)) t)
          (spans.foldl (tellWord s' k' (Text.ofString u')) t') := by
      intro spans
      induction spans with
      | nil => exact fun _ _ ht => ht
      | cons span spans ih => exact fun t t' ht => ih _ _ (same_tellWord hs hk htext ht span)
    have ht := htelling (identifiers k.regex (Text.ofString u)) ⟨r, "", 0⟩ ⟨r', "", 0⟩
      ⟨h, .refl "", rfl⟩
    simp only
    rw [hk.words htext, ht.upTo, htext.size]
    exact ht.run.emitText (ht.pending.append (htext.slice _ _))

theorem same_splice (h : L.SameRun r r') (hm : L.SameMode mode mode')
    (hlabels : ∀ scope, L.label scope = scope) {n n' : Nested} (hn : L.SameNested n n') :
    L.SameRun (r.splice mode n) (r'.splice mode' n') := by
  unfold Run.splice
  rw [hn.language, hn.events]
  refine (h.withRelevance fun hscored => ?_).emit (.nested hlabels _ _)
  rw [hm.relevance hscored, h.relevance hscored, hn.relevance hscored]

theorem agrees_tellBlock (hs : L.SameScene s s') (h : L.SameRun r r') {sub : SubLanguage}
    (hsub : sub ∈ (s.top r).subLanguage) (hu : L.SameString u u') :
    L.Agrees L.SameRun (tellBlock s sub u r) (tellBlock s' sub u' r') := by
  have hm := h.top hs
  have hd := hs.delegate _ sub hsub
  have hbest : (∀ name, sub ≠ .single name) → ∀ names,
      L.Agrees L.SameRun (do let n ← s.delegate.best names u; return r.splice (s.top r) n)
        (do let n ← s'.delegate.best names u'; return r'.splice (s'.top r') n) := fun hne names =>
    agrees_bind (hd.best hne hu names) fun n n' hn => agrees_pure (same_splice h hm hd.labels hn)
  unfold tellBlock
  rw [hu.isEmpty]
  split
  · exact agrees_pure h
  · cases sub with
    | single name =>
      have hsingle := hd.single name rfl hu (r.blocks.get? name)
      simp only
      rw [h.blocks]
      generalize s.delegate.single name u (r.blocks.get? name) = x at hsingle ⊢
      generalize s'.delegate.single name u' (r.blocks.get? name) = x' at hsingle ⊢
      cases hsingle with
      | none => exact agrees_pure (h.emitText hu)
      | some hx =>
        refine agrees_bind hx fun n n' hn => agrees_pure (same_splice ?_ hm hd.labels hn)
        rw [hn.top]
        exact { h with blocks := rfl }
    | list names => exact hbest (fun _ hname => by cases hname) _
    | any => exact hbest (fun _ hname => by cases hname) none

theorem agrees_flush (hs : L.SameScene s s') (h : L.SameRun r r') :
    L.Agrees L.SameRun (flush s r) (flush s' r') := by
  have hempty := h.withBuffer (.refl "")
  have hsub := (hempty.top hs).subLanguage
  unfold flush
  simp only
  rw [hsub]
  split
  · rename_i sub hmode
    exact agrees_tellBlock hs hempty hmode h.buffer
  · exact agrees_pure (same_tellKeywords hs hempty h.buffer)

/-! ## 2. Modes open -/

theorem same_lexeme (hs : L.SameScene s s') (m : RuleMatch) :
    L.SameString (lexeme s m) (lexeme s' m) := hs.slice _ _

theorem same_passChar (hs : L.SameScene s s') (h : L.SameRun r r') (i : Nat) :
    L.SameRun (passChar s i r) (passChar s' i r') :=
  (h.hold (hs.slice _ _)).moved _

theorem same_turnDown (hs : L.SameScene s s') (h : L.SameRun r r') (m : RuleMatch) :
    L.SameRun (turnDown s m r) (turnDown s' m r') := by
  unfold turnDown
  rw [h.firstRule]
  split
  · exact same_passChar hs h _
  · exact { h with resumes := rfl, index := rfl, firstRule := rfl }

theorem agrees_askHook? (hs : L.SameScene s s') {hook : Option Hook}
    (hhook : ∀ h ∈ hook, L.SameHook h) (m : RuleMatch) (data : HookData) :
    L.Agrees Eq (askHook? s hook m data) (askHook? s' hook m data) := by
  cases hook with
  | none => exact agrees_pure rfl
  | some hook =>
    show L.Agrees Eq (askHook s hook m data) (askHook s' hook m data)
    unfold askHook
    rw [hhook hook rfl hs.text]
    simp only
    split
    · exact .inr ⟨rfl, .ok rfl⟩
    · exact .inr ⟨rfl, .ok rfl⟩
    · rw [hs.fault]
      exact .inr ⟨rfl, .error (.refl _)⟩

theorem same_tellParts (hs : L.SameScene s s') (h : L.SameRun r r') (m : RuleMatch)
    (labels : Dictionary Nat (Option String)) :
    L.SameRun (tellParts s m labels r) (tellParts s' m labels r') := by
  have hpart : ∀ {r r' : Run}, L.SameRun r r' → ∀ part,
      L.SameRun (tellPart s m r part) (tellPart s' m r' part) := by
    intro r r' h part
    unfold tellPart
    split
    · rename_i span _
      have htext := hs.slice span.start span.stop
      simp only
      split
      · exact h.emitLabelled hs.arena htext _
      · exact same_tellKeywords hs h htext
    · exact h
  unfold tellParts
  induction labels.entries generalizing r r' with
  | nil => exact h
  | cons part parts ih => exact ih (hpart h part)

theorem same_startMode (hs : L.SameScene s s') (h : L.SameRun r r') (id : Nat) (m : RuleMatch)
    (data : HookData) : L.SameRun (startMode s id m data r) (startMode s' id m data r') := by
  have hm := hs.arena.modes id
  have hopen := h.openMode hs.arena hm
  have hpush : ∀ {r r' : Run}, L.SameRun r r' →
      L.SameRun { r with frames := ⟨id, data⟩ :: r.frames }
        { r' with frames := ⟨id, data⟩ :: r'.frames } := fun h => by
    rw [h.frames]
    exact h.withFrames _
  unfold startMode
  simp only
  generalize r.openMode s.arena (s.arena.mode id) = r at hopen ⊢
  generalize r'.openMode s'.arena (s'.arena.mode id) = r' at hopen ⊢
  obtain ⟨relevance, keywords, hsame⟩ := hm.same
  rw [hsame]
  simp only
  split
  · exact hpush ((hopen.withBuffer (.refl "")).emitLabelled hs.arena hopen.buffer _)
  · exact hpush ((same_tellParts hs hopen m _).withBuffer (.refl ""))
  · exact hpush hopen

theorem agrees_holdBegin (hs : L.SameScene s s') (hm : L.SameMode mode mode') (h : L.SameRun r r')
    (hu : L.SameString u u') :
    L.Agrees L.SameRun (holdBegin s mode u r) (holdBegin s' mode' u' r') := by
  obtain ⟨relevance, keywords, rfl⟩ := hm.same
  unfold holdBegin
  simp only
  split
  · exact agrees_pure (h.hold hu)
  · have hheld : L.SameRun (if mode.excludeBegin then r.hold u else r)
        (if mode.excludeBegin then r'.hold u' else r') := by
      split
      · exact h.hold hu
      · exact h
    refine agrees_bind (agrees_flush hs hheld) fun r1 r1' h1 => agrees_pure ?_
    split
    · exact h1
    · exact h1.withBuffer hu

theorem afterDot_eq (hs : L.SameScene s s') (i : Nat) : afterDot s'.text i = afterDot s.text i := by
  unfold afterDot
  rw [hs.text.isDot]

theorem agrees_beginStep (hs : L.SameScene s s') (h : L.SameRun r r') (id : Nat) (m : RuleMatch) :
    L.Agrees L.SameRun (beginStep s id m r) (beginStep s' id m r') := by
  have hm := hs.arena.modes id
  obtain ⟨relevance, keywords, hsame⟩ := hm.same
  have hask := agrees_askHook? hs hm.onBegin m .empty
  unfold beginStep
  simp only [hsame, afterDot_eq hs]
  split
  · exact agrees_pure (same_turnDown hs h m)
  · refine agrees_bind hask ?_
    rintro ⟨counts, data⟩ _ rfl
    simp only
    split
    · exact agrees_pure (same_turnDown hs h m)
    · rw [← hsame]
      refine agrees_bind (agrees_holdBegin hs hm h (same_lexeme hs m)) fun r1 r1' h1 =>
        agrees_pure ((same_startMode hs h1 id m data).moved _)

/-! ## 3. Modes close -/

theorem closingWith_eq (ha : L.SameArena arena arena') (frames : List Frame) :
    closingWith arena' frames = closingWith arena frames := by
  induction frames with
  | nil => rfl
  | cons f rest ih =>
    obtain ⟨relevance, keywords, hsame⟩ := (ha.modes f.mode).same
    unfold closingWith
    rw [hsame, ih]

theorem agrees_askEnd (hs : L.SameScene s s') (hm : L.SameMode mode mode') (m : RuleMatch)
    (data : HookData) : L.Agrees Eq (askEnd s mode m data) (askEnd s' mode' m data) := by
  have hends : endsAt s' mode m.span.start = endsAt s mode m.span.start := by
    unfold endsAt
    cases hregex : mode.endRegex with
    | none => rfl
    | some re => exact hm.ends hs.text re hregex _
  have hask := agrees_askHook? hs hm.onEnd m data
  obtain ⟨relevance, keywords, rfl⟩ := hm.same
  unfold askEnd
  rw [show endsAt s' { mode with relevance, keywords } m.span.start = _ from hends]
  split
  · exact hask
  · exact agrees_pure rfl

theorem agrees_endOf (hs : L.SameScene s s') (m : RuleMatch) (frames : List Frame) :
    L.Agrees Eq (endOf s m frames) (endOf s' m frames) := by
  induction frames with
  | nil => exact agrees_pure rfl
  | cons f rest ih =>
    have hm := hs.arena.modes f.mode
    obtain ⟨relevance, keywords, hsame⟩ := hm.same
    unfold endOf
    refine agrees_bind (agrees_askEnd hs hm m f.data) ?_
    rintro ⟨counts, data⟩ _ rfl
    rw [hsame]
    simp only
    split
    · rw [closingWith_eq hs.arena]
      exact agrees_pure rfl
    · split
      · refine agrees_bind ih ?_
        rintro c _ rfl
        exact agrees_pure rfl
      · exact agrees_pure rfl

theorem agrees_holdEnd (hs : L.SameScene s s') (hm : L.SameMode mode mode') (h : L.SameRun r r')
    (m : RuleMatch) : L.Agrees L.SameRun (holdEnd s mode m r) (holdEnd s' mode' m r') := by
  have hlexeme := same_lexeme hs m
  obtain ⟨relevance, keywords, rfl⟩ := hm.same
  unfold holdEnd
  simp only
  split
  · exact agrees_bind (agrees_flush hs h) fun r1 r1' h1 =>
      agrees_pure (h1.emitLabelled hs.arena hlexeme _)
  · exact agrees_bind (agrees_flush hs h) fun r1 r1' h1 =>
      agrees_pure ((same_tellParts hs h1 m _).withBuffer (.refl ""))
  · split
    · exact agrees_pure (h.hold hlexeme)
    · have hheld : L.SameRun (if mode.returnEnd || mode.excludeEnd then r else r.hold (lexeme s m))
          (if mode.returnEnd || mode.excludeEnd then r' else r'.hold (lexeme s' m)) := by
        split
        · exact h
        · exact h.hold hlexeme
      refine agrees_bind (agrees_flush hs hheld) fun r1 r1' h1 => agrees_pure ?_
      split
      · exact h1.withBuffer hlexeme
      · exact h1

theorem same_closeFrame (ha : L.SameArena arena arena') (h : L.SameRun r r') (f : Frame) :
    L.SameRun (closeFrame arena f r) (closeFrame arena' f r') := by
  have hm := ha.modes f.mode
  have hclose := h.closeMode hm
  have hscore := hm.relevance
  obtain ⟨relevance, keywords, hsame⟩ := hm.same
  unfold closeFrame
  rw [hsame] at hclose hscore ⊢
  simp only
  split
  · exact hclose
  · refine hclose.withRelevance fun hscored => ?_
    rw [hclose.relevance hscored, show relevance = _ from hscore hscored]

theorem same_closeFrames (ha : L.SameArena arena arena') :
    ∀ (n : Nat) (ended : Option Nat) {r r' : Run}, L.SameRun r r' →
      (closeFrames arena' n ended r').1 = (closeFrames arena n ended r).1 ∧
        L.SameRun (closeFrames arena n ended r).2 (closeFrames arena' n ended r').2
  | 0, _, _, _, h => ⟨rfl, h⟩
  | n + 1, ended, r, r', h => by
      unfold closeFrames
      rw [h.frames]
      cases r.frames with
      | nil => exact ⟨rfl, h⟩
      | cons f rest =>
        exact same_closeFrames ha n (some f.mode) (same_closeFrame ha (h.withFrames rest) f)

theorem agrees_endStep (hs : L.SameScene s s') (h : L.SameRun r r') (m : RuleMatch) :
    L.Agrees L.SameRun (endStep s m r) (endStep s' m r') := by
  unfold endStep
  rw [h.frames]
  refine agrees_bind (agrees_endOf hs m r.frames) ?_
  rintro ⟨count, frames⟩ _ rfl
  have hasked := h.withFrames frames
  simp only
  cases count with
  | none => exact agrees_pure (same_passChar hs hasked _)
  | some n =>
    have hm := hasked.top hs
    obtain ⟨relevance, keywords, hsame⟩ := hm.same
    refine agrees_bind (agrees_holdEnd hs hm hasked m) fun r1 r1' h1 => ?_
    obtain ⟨hended, hclosed⟩ := same_closeFrames hs.arena n none h1
    have hstarts : ∀ ended : Option Nat, (ended.bind fun id => (s'.arena.mode id).starts) =
        ended.bind fun id => (s.arena.mode id).starts := by
      intro ended
      cases ended with
      | none => rfl
      | some id =>
        obtain ⟨_, _, hid⟩ := (hs.arena.modes id).same
        show (s'.arena.mode id).starts = (s.arena.mode id).starts
        rw [hid]
    rw [hended, hstarts, hsame]
    refine agrees_pure (SameRun.moved ?_ _)
    split
    · exact same_startMode hs hclosed _ m .empty
    · exact hclosed

/-! ## 4. One step -/

theorem same_passIllegal (hs : L.SameScene s s') (h : L.SameRun r r') (m : RuleMatch) :
    L.SameRun (passIllegal s m r) (passIllegal s' m r') := by
  unfold passIllegal
  split
  · exact same_passChar hs h _
  · exact (h.hold (same_lexeme hs m)).moved _

theorem agrees_act (hs : L.SameScene s s') (h : L.SameRun r r') (m : RuleMatch) :
    L.Agrees L.SameRun (act s m r) (act s' m r') := by
  unfold act
  cases m.kind with
  | begins id => exact agrees_beginStep hs h id m
  | ends => exact agrees_endStep hs h m
  | illegal =>
    simp only
    rcases hs.illegals with hsame | ⟨hstrict, hpardon⟩
    · have hlabel : (s'.top r').shownLabel = (s.top r).shownLabel := by
        obtain ⟨relevance, keywords, hmode⟩ := (h.top hs).same
        rw [hmode]
        rfl
      rw [hsame, hlabel]
      split
      · exact agrees_pure (same_passIllegal hs h m)
      · exact agrees_fail ⟨.illegal _ (same_lexeme hs m), hs.position _⟩
    · rw [hstrict]
      exact agrees_of_pardons (hpardon _ rfl)

/-- **An observer cannot tell the steps of two runs apart.** -/
theorem agrees_step (hs : L.SameScene s s') (h : L.SameRun r r') (m : RuleMatch) :
    L.Agrees L.SameRun (step s m r) (step s' m r') := by
  have hheld : L.SameRun (r.hold (s.text.slice r.index m.span.start))
      (r'.hold (s'.text.slice r'.index m.span.start)) := by
    rw [h.index]
    exact h.hold (hs.slice _ _)
  cases hempty : isEmptyMode m r.last with
  | false =>
    rw [step_of_not_empty hempty, step_of_not_empty (by rw [h.last, hempty])]
    have hmet : L.SameRun (r.meet s m) (r'.meet s' m) := { hheld with last := rfl }
    exact agrees_act hs hmet m
  | true =>
    rw [step_of_empty hempty, step_of_empty (by rw [h.last, hempty])]
    rcases hs.guard with hsame | ⟨hstrict, hpardon⟩
    · rw [hsame, hs.fault, hs.arena.name]
      split
      · exact agrees_pure (same_passChar hs hheld _)
      · exact agrees_fail (.refl _)
    · rw [hstrict]
      exact agrees_of_pardons (hpardon _)

/-! ## 5. Whole runs -/

/-- **Two runs come to the same**, unless a fault of the first excuses the second. -/
inductive SameScanned (L : Leeway) : Scanned → Scanned → Prop
  | pardoned {x y : Scanned} {f : Fault} : x.fault = some f → L.pardons f → SameScanned L x y
  | same {notes : List HookNote} {frames : List Frame} {events events' : List Event}
      {relevance relevance' : Nat} {fault fault' : Option Fault} :
      L.SameEvents events events' → (L.scored → relevance' = relevance) →
      Option.Rel L.SameFault fault fault' →
      SameScanned L ⟨notes, frames, events, relevance, fault⟩
        ⟨notes, frames, events', relevance', fault'⟩

/-- Two rounds come to the same, unless a fault of the first excuses the second. -/
inductive SameTurn (L : Leeway) : Turn → Turn → Prop
  | pardoned {notes : List HookNote} {f : Fault} {y : Turn} : L.pardons f →
      SameTurn L (.broken notes f) y
  | next (notes : List HookNote) {r r' : Run} : L.SameRun r r' →
      SameTurn L (.next notes r) (.next notes r')
  | last (notes : List HookNote) {r r' : Run} : L.SameRun r r' →
      SameTurn L (.last notes r) (.last notes r')
  | broken (notes : List HookNote) {f f' : Fault} : L.SameFault f f' →
      SameTurn L (.broken notes f) (.broken notes f')

theorem SameEvents.reverse {es es' : List Event} (h : L.SameEvents es es') :
    L.SameEvents es.reverse es'.reverse :=
  List.forall₂_reverse_iff.mpr h

theorem same_broken (notes : List HookNote) (frames : List Frame) {es es' : List Event}
    (h : L.SameEvents es es') {f f' : Fault} (hf : L.SameFault f f') :
    L.SameScanned (broken notes frames es f) (broken notes frames es' f') :=
  .same (SameEvents.reverse h) (fun _ => rfl) (.some hf)

theorem same_complete (hs : L.SameScene s s') (h : L.SameRun r r') (notes : List HookNote) :
    L.SameScanned (complete s notes r) (complete s' notes r') := by
  have hheld : L.SameRun (r.hold (s.text.slice r.index s.text.size))
      (r'.hold (s'.text.slice r'.index s'.text.size)) := by
    rw [h.index, hs.text.size]
    exact h.hold (hs.slice _ _)
  have hflush := agrees_flush hs hheld
  unfold complete
  generalize flush s (r.hold (s.text.slice r.index s.text.size)) = x at hflush ⊢
  generalize flush s' (r'.hold (s'.text.slice r'.index s'.text.size)) = x' at hflush ⊢
  obtain ⟨more, result⟩ := x
  obtain ⟨more', result'⟩ := x'
  rcases hflush with ⟨f, hf, hpardon⟩ | ⟨hmore, hresult⟩
  · cases (show result = .error f from hf)
    exact .pardoned rfl hpardon
  · cases (show more' = more from hmore)
    cases (show L.SameResult _ result result' from hresult) with
    | error hf =>
      simp only [h.frames]
      exact .same (SameEvents.reverse h.events) (fun _ => rfl) (.some hf)
    | ok h1 =>
      simp only [h1.frames]
      exact .same (SameEvents.reverse (.cons .finish h1.events)) h1.relevance .none

theorem lacksHeadway_eq (hs : L.SameScene s s') (steps i : Nat) :
    lacksHeadway s' steps i = lacksHeadway s steps i := by
  unfold lacksHeadway
  rw [hs.floor, hs.ratio, hs.text.byteOffset]

theorem maxSteps_eq (hs : L.SameScene s s') : maxSteps s' = maxSteps s := by
  unfold maxSteps
  rw [hs.floor, hs.ratio, hs.text.size, hs.text.byteOffset]

/-- **An observer cannot tell the rounds of two runs apart.** -/
theorem same_turn (hs : L.SameScene s s') (h : L.SameRun r r') (steps : Nat) :
    L.SameTurn (turn s steps r) (turn s' steps r') := by
  have hm := h.top hs
  obtain ⟨relevance, keywords, hsame⟩ := hm.same
  have hnext : (s'.top r').rules.next s'.text r'.index (if r'.resumes then r'.firstRule else 0) =
      (s.top r).rules.next s.text r.index (if r.resumes then r.firstRule else 0) := by
    rw [hsame, h.index, h.resumes, h.firstRule]
    exact hm.next hs.text _ _
  unfold turn
  rw [hnext]
  split
  · exact .broken [] (.refl _)
  · exact .last [] { h with resumes := rfl, firstRule := rfl }
  · rename_i m first _
    rw [lacksHeadway_eq hs, hs.fault]
    split
    · exact .broken [] (.refl _)
    · have hnow : L.SameRun { r with resumes := false, firstRule := first }
          { r' with resumes := false, firstRule := first } :=
        { h with resumes := rfl, firstRule := rfl }
      have hstep := agrees_step hs hnow m
      generalize step s m { r with resumes := false, firstRule := first } = x at hstep ⊢
      generalize step s' m { r' with resumes := false, firstRule := first } = x' at hstep ⊢
      obtain ⟨notes, result⟩ := x
      obtain ⟨notes', result'⟩ := x'
      rcases hstep with ⟨f, hf, hpardon⟩ | ⟨hnotes, hresult⟩
      · cases (show result = .error f from hf)
        exact .pardoned hpardon
      · cases (show notes' = notes from hnotes)
        cases (show L.SameResult _ result result' from hresult) with
        | error hf => exact .broken notes hf
        | ok h1 =>
          simp only [hs.text.size, h1.index]
          split
          · exact .last notes h1
          · exact .next notes h1

theorem same_scan (hs : L.SameScene s s') : ∀ (fuel steps : Nat) (notes : List HookNote)
    {r r' : Run}, L.SameRun r r' →
      L.SameScanned (scan s fuel steps notes r) (scan s' fuel steps notes r')
  | 0, steps, notes, r, r', h => by
      unfold scan
      rw [hs.fault, h.frames, h.index]
      exact same_broken _ _ h.events (.refl _)
  | fuel + 1, steps, notes, r, r', h => by
      have hturn := same_turn hs h (steps + 1)
      unfold scan
      generalize turn s (steps + 1) r = x at hturn ⊢
      generalize turn s' (steps + 1) r' = x' at hturn ⊢
      cases hturn with
      | pardoned hpardon => exact .pardoned rfl hpardon
      | next more h1 => exact same_scan hs fuel (steps + 1) _ h1
      | last more h1 => exact same_complete hs h1 _
      | broken more hf =>
        simp only [h.frames]
        exact same_broken _ _ h.events hf

theorem same_initial (ha : L.SameArena arena arena') (continuation : Option (List Nat)) :
    L.SameRun (initial arena continuation) (initial arena' continuation) := by
  have hstack : startStack arena' continuation = startStack arena continuation := by
    unfold startStack Arena.isValidStack
    rw [ha.root, ha.size]
  have hopen : ∀ (ids : List Nat) {r r' : Run}, L.SameRun r r' →
      L.SameRun (ids.foldl (fun r id => r.openMode arena (arena.mode id)) r)
        (ids.foldl (fun r id => r.openMode arena' (arena'.mode id)) r') := by
    intro ids
    induction ids with
    | nil => exact fun h => h
    | cons id ids ih => exact fun h => ih (h.openMode ha (ha.modes id))
  unfold initial startIn
  rw [hstack]
  refine hopen _ ?_
  exact ⟨rfl, .refl "", .nil, fun _ => rfl, rfl, rfl, rfl, rfl, rfl, rfl⟩

/-- **An observer cannot tell two whole runs apart**, whatever modes they begin in. -/
theorem same_scanAll (hs : L.SameScene s s') (continuation : Option (List Nat)) :
    L.SameScanned (scanAll s continuation) (scanAll s' continuation) := by
  unfold scanAll
  rw [maxSteps_eq hs]
  exact same_scan hs _ _ _ (same_initial hs.arena continuation)

end Highlight.Scan.Leeway
