import Highlight.Proofs.Highlighting.Outcomes
import Highlight.Proofs.Highlighting.Questions
import Highlight.Proofs.Scan.HeldText

/-!
# What a run asks

A run asks other runs about the text that its modes hold back for them, one piece after the other.

* `asks_detect` -- a detection asks about its whole text in one language after the other;
* `asking` -- a scene whose delegate puts questions to a runner;
* `MayAsk` -- what may be asked: a registered language, about a piece of the text;
* `asks_flush`, `asks_step`, `asks_turn`, `asks_scanAll` -- the parts of a run;
* `asks_runIn` -- a whole run in a language.
-/

namespace Highlight.Highlighter

open Highlight.Arena (ArenaMode RuleMatch)
open Highlight.Grammar (Hook HookData HookNote SubLanguage)
open Highlight.Scan

variable {h : Highlighter}

/-! ## 1. Detections -/

section Detection

variable {Q : Call → Prop} {code : String}

/-- What a detection makes of the outcome of one language and those of the others. -/
def withOthers (first : Attempt Outcome) (others : Attempt (List Outcome)) :
    Attempt (List Outcome) :=
  match first.result with
  | .ok o => ⟨first.notes ++ others.notes, others.result.map (o :: ·)⟩
  | .error f =>
    if f.cause.isIllegal then ⟨first.notes ++ others.notes, others.result⟩
    else ⟨first.notes, .error f⟩

theorem tryAll_cons (run : String → Attempt Outcome) (name : String) (names : List String) :
    tryAll run (name :: names) = withOthers (run name) (tryAll run names) := rfl

/-- A detection has no end where its first language has none, or the others, after a first one with
    an end. -/
theorem stuck_withOthers {first : Attempt Outcome} {others : Attempt (List Outcome)} {f : Fault} :
    Stuck first f → Stuck (withOthers first others) f := by
  intro hf
  obtain ⟨hresult, hcause⟩ := stuck_attempt.mp hf
  have hillegal : f.cause.isIllegal = false := by rw [hcause]; rfl
  refine stuck_attempt.mpr ⟨?_, hcause⟩
  simp only [withOthers, hresult, hillegal]
  rfl

theorem live_withOthers {first : Attempt Outcome} (hlive : Live first) :
    (∀ others f, Stuck (withOthers first others) f ↔ Stuck others f) ∨
      ∀ others others', withOthers first others = withOthers first others' ∧
        Live (withOthers first others) := by
  unfold withOthers
  cases hfirst : first.result with
  | ok o =>
    refine .inl fun others f => ?_
    rw [stuck_attempt, stuck_attempt]
    refine and_congr_left fun _ => ?_
    show others.result.map (o :: ·) = .error f ↔ _
    cases others.result with
    | ok os =>
      constructor
      · intro hf
        cases hf
      · intro hf
        cases hf
    | error e => exact Iff.rfl
  | error e =>
    simp only
    split
    · exact .inl fun others f => stuck_attempt.trans stuck_attempt.symm
    · refine .inr fun others others' => ⟨rfl, live_of_error rfl fun he => ?_⟩
      exact hlive e (stuck_attempt.mpr ⟨hfirst, he⟩)

theorem asks_tryAll {names : List String} (hq : ∀ name ∈ names, Q ⟨name, code, false, none⟩) :
    AsksFor Q (fun _ => True)
      fun R => tryAll (fun name => R.at ⟨name, code, false, none⟩) names := by
  induction names with
  | nil => exact asks_pure trivial
  | cons name names ih =>
    have hothers := ih fun n hn => hq n (List.mem_cons_of_mem name hn)
    refine .ask (c := ⟨name, code, false, none⟩)
      (k := fun first R => withOthers first
        (tryAll (fun name => R.at ⟨name, code, false, none⟩) names))
      (hq name List.mem_cons_self) (fun first hlive => ?_) fun first R f hf => stuck_withOthers hf
    rcases live_withOthers hlive with hstuck | hsame
    · exact hothers.map (g := withOthers first) (fun _ _ _ _ => trivial) hstuck
    · have heq : (fun R : Runner => withOthers first
          (tryAll (fun name => R.at ⟨name, code, false, none⟩) names)) =
          fun _ => withOthers first (pure []) :=
        funext fun R => (hsame _ _).1
      rw [heq]
      exact .settled (fun _ _ => trivial) (hsame _ (pure [])).2

/-- **A detection asks about its text in the languages that take part**, one after the other. -/
theorem asks_detect (candidates : Option (List String))
    (hq : ∀ name, (∃ arena, h.language? name = some arena) → Q ⟨name, code, false, none⟩) :
    AsksFor Q (fun _ => True)
      fun R => h.detect (fun name => R.at ⟨name, code, false, none⟩) candidates code := by
  refine asks_bind (asks_tryAll fun name hname => ?_) fun os _ => asks_pure trivial
  exact hq name (language?_of_autoDetection (autoDetection_of_mem hname))

end Detection

/-! ## 2. Text that is held back -/

/-- A scene whose delegate puts questions to a runner. -/
def asking (s : Scene) (h : Highlighter) (run : Runner) : Scene :=
  { s with delegate := h.delegateTo run }

/-- **What may be asked**: a registered language, about a piece of the text. The whole text is not
    handed on in modes where an earlier block has stopped. -/
structure MayAsk (h : Highlighter) (s : Scene) (c : Call) : Prop where
  registered : ∃ arena, h.language? c.name = some arena
  nonempty : c.code ≠ ""
  piece : ReadsOnce s.arena →
    ∃ i j, c.code = s.text.slice i j ∧ (i = 0 → c.continuation = none)

/-- A piece of the text is held back, if the flags of the language see to it. -/
def Holds (s : Scene) (r : Run) (i : Nat) : Prop := ReadsOnce s.arena → Held s.text r i

variable {s : Scene} {r r' : Run} {m : RuleMatch} {i : Nat}

theorem Holds.mayAsk (hr : Holds s r i) {name : String}
    (hl : ∃ arena, h.language? name = some arena) (hne : r.buffer ≠ "") (ignoreIllegals : Bool)
    (continuation : Option (List Nat)) (hc : r.blocks = .empty → continuation = none) :
    MayAsk h s ⟨name, r.buffer, ignoreIllegals, continuation⟩ where
  registered := hl
  nonempty := hne
  piece hreads := by
    obtain ⟨j, _, hbuffer, hblocks⟩ := hr hreads
    exact ⟨j, i, hbuffer, fun hj => hc (hblocks hj)⟩

/-- After an answer the run has told a block, whatever else has changed. -/
theorem Holds.handed (hr : Holds s r i) (hne : r.buffer ≠ "") (hb : r'.buffer = "") :
    r'.buffer = "" ∧ Holds s r' i :=
  ⟨hb, fun hreads => (hr hreads).handed hne hb⟩

/-- The language of the text is detected. -/
theorem asks_best (hr : Holds s r i) (hne : r.buffer ≠ "") (candidates : Option (List String)) :
    AsksFor (MayAsk h s) (fun r' => r'.buffer = "" ∧ Holds s r' i) fun R =>
      (h.delegateTo R).best candidates r.buffer >>= fun n =>
        pure (({ r with buffer := "" } : Run).splice (s.top r) n) := by
  have hnested : AsksFor (MayAsk h s) (fun _ => True)
      fun R => (h.delegateTo R).best candidates r.buffer :=
    asks_bind (asks_detect candidates fun name hl =>
      hr.mayAsk hl hne false none fun _ => rfl) fun _ _ => asks_pure trivial
  exact asks_bind hnested fun _ _ => asks_pure (hr.handed hne rfl)

/-- The language of the text is named, and is a registered one. -/
theorem asks_single (hr : Holds s r i) (hne : r.buffer ≠ "") {name : String}
    (hl : ∃ arena, h.language? name = some arena) :
    AsksFor (MayAsk h s) (fun r' => r'.buffer = "" ∧ Holds s r' i) fun R =>
      (R.at ⟨name, r.buffer, true, r.blocks.get? name⟩ >>= fun o => pure o.toNested) >>= fun n =>
        pure (({ r with buffer := "", blocks := r.blocks.insert name n.top } : Run).splice
          (s.top r) n) := by
  have hmay : MayAsk h s ⟨name, r.buffer, true, r.blocks.get? name⟩ := by
    refine hr.mayAsk hl hne true _ fun hb => ?_
    rw [hb]
    rfl
  have hnested : AsksFor (MayAsk h s) (fun _ => True) fun R : Runner =>
      R.at ⟨name, r.buffer, true, r.blocks.get? name⟩ >>= fun o => pure o.toNested :=
    asks_bind (asks_at hmay) fun _ _ => asks_pure trivial
  exact asks_bind hnested fun _ _ => asks_pure (hr.handed hne rfl)

/-- **Text for another language is asked about in that language.** -/
theorem asks_tellBlock (hr : Holds s r i) (sub : SubLanguage) :
    AsksFor (MayAsk h s) (fun r' => r'.buffer = "" ∧ Holds s r' i)
      fun R => tellBlock (asking s h R) sub r.buffer { r with buffer := "" } := by
  -- What is told without a question.
  have hplain : ∀ r' : Run, r'.buffer = "" → r'.blocks = r.blocks →
      AsksFor (MayAsk h s) (fun r' => r'.buffer = "" ∧ Holds s r' i) fun _ => pure r' :=
    fun r' hb hblocks => asks_pure ⟨hb, fun hreads => (hr hreads).told (Nat.le_refl i) hb hblocks⟩
  unfold tellBlock
  by_cases hempty : r.buffer.isEmpty = true
  · simp only [if_pos hempty]
    exact hplain _ rfl rfl
  · have hne : r.buffer ≠ "" := by simpa using hempty
    simp only [if_neg hempty]
    cases sub with
    | single name =>
      cases hl : h.language? name with
      | none =>
        simp only [asking, delegateTo, hl]
        exact hplain _ rfl rfl
      | some arena =>
        simp only [asking, delegateTo, hl]
        exact asks_single hr hne ⟨arena, hl⟩
    | list names => exact asks_best hr hne _
    | any => exact asks_best hr hne none

/-- **What is held back is asked about in the languages of the innermost mode.** -/
theorem asks_flush (hr : Holds s r i) :
    AsksFor (MayAsk h s) (fun r' => r'.buffer = "" ∧ Holds s r' i)
      fun R => flush (asking s h R) r := by
  cases hsub : (s.top r).subLanguage with
  | none =>
    have heq : (fun R => flush (asking s h R) r) =
        fun _ => pure (tellKeywords s r.buffer { r with buffer := "" }) := by
      funext R
      unfold flush
      have htop : ((asking s h R).top { r with buffer := "" }).subLanguage = none := hsub
      simp only [htop]
      rfl
    rw [heq]
    have htells := tells_tellKeywords s r.buffer { r with buffer := "" }
    refine asks_pure ⟨htells.buffer, fun hreads => ?_⟩
    exact (hr hreads).told (Nat.le_refl i) htells.buffer (blocks_tellKeywords s _ _)
  | some sub =>
    have heq : (fun R => flush (asking s h R) r) =
        fun R => tellBlock (asking s h R) sub r.buffer { r with buffer := "" } := by
      funext R
      unfold flush
      have htop : ((asking s h R).top { r with buffer := "" }).subLanguage = some sub := hsub
      simp only [htop]
    rw [heq]
    exact asks_tellBlock hr sub

/-! ## 3. Steps -/

/-- The beginning of a mode is held back for it, or left to be read again. -/
theorem asks_holdBegin (hr : Holds s r m.span.start) (hm : m.span.start ≤ m.span.stop) (id : Nat) :
    AsksFor (MayAsk h s)
      (fun r' => Holds s r'
        (if (s.arena.mode id).returnBegin then m.span.start else m.span.stop))
      fun R => holdBegin (asking s h R) (s.arena.mode id) (lexeme s m) r := by
  unfold holdBegin
  cases hskip : (s.arena.mode id).skip with
  | true =>
    refine asks_pure fun hreads => ?_
    have hreturn : (s.arena.mode id).returnBegin = false := by
      refine Bool.eq_false_iff.mpr fun hreturn => ?_
      rw [(hreads.returnBegin id hreturn).1] at hskip
      cases hskip
    rw [hreturn]
    exact (hr hreads).hold hm
  | false =>
    cases hexclude : (s.arena.mode id).excludeBegin with
    | true =>
      have hheld : Holds s (r.hold (lexeme s m)) m.span.stop := fun hreads => (hr hreads).hold hm
      refine asks_bind (asks_flush hheld) fun r' hr' => ?_
      rw [Bool.or_true]
      refine asks_pure fun hreads => ?_
      have hreturn : (s.arena.mode id).returnBegin = false := by
        refine Bool.eq_false_iff.mpr fun hreturn => ?_
        rw [(hreads.returnBegin id hreturn).2] at hexclude
        cases hexclude
      rw [hreturn]
      exact hr'.2 hreads
    | false =>
      refine asks_bind (asks_flush hr) fun r' hr' => ?_
      rw [Bool.or_false]
      cases (s.arena.mode id).returnBegin with
      | true => exact asks_pure hr'.2
      | false =>
        refine asks_pure fun hreads => ?_
        exact (hr'.2 hreads).restart (Nat.le_refl _) hm rfl rfl

/-- A hook is asked nothing that other runs answer, and its panic is an end. -/
theorem live_askHook? (s : Scene) (hook : Option Hook) (m : RuleMatch) (data : HookData) :
    Live (askHook? s hook m data) := by
  unfold askHook?
  cases hook with
  | none => exact live_of_ok rfl
  | some hook =>
    show Live (askHook s hook m data)
    unfold askHook
    simp only
    split
    · exact live_of_ok rfl
    · exact live_of_ok rfl
    · exact live_of_error rfl fun h => by cases h

theorem asks_askHook? (hook : Option Hook) (m : RuleMatch) (data : HookData) :
    AsksFor (MayAsk h s) (fun _ => True) fun R => askHook? (asking s h R) hook m data :=
  .settled (b := askHook? s hook m data) (fun _ _ => trivial) (live_askHook? s hook m data)

theorem asks_beginStep (hr : Holds s r m.span.start) (hm : m.span.start ≤ m.span.stop) (id : Nat) :
    AsksFor (MayAsk h s) (fun r' => Holds s r' r'.index)
      fun R => beginStep (asking s h R) id m r := by
  have hdown : AsksFor (MayAsk h s) (fun r' => Holds s r' r'.index)
      fun _ => pure (turnDown s m r) :=
    asks_pure fun hreads => held_turnDown (hr hreads)
  unfold beginStep
  cases hdot : (s.arena.mode id).skipAfterDot && afterDot s.text m.span.start with
  | true =>
    have heq : ∀ R, (((asking s h R).arena.mode id).skipAfterDot &&
        afterDot (asking s h R).text m.span.start) = true := fun _ => hdot
    simp only [heq]
    exact hdown
  | false =>
    have heq : ∀ R, (((asking s h R).arena.mode id).skipAfterDot &&
        afterDot (asking s h R).text m.span.start) = false := fun _ => hdot
    simp only [heq]
    refine asks_bind (asks_askHook? (s.arena.mode id).onBegin m .empty) fun reply _ => ?_
    obtain ⟨counts, data⟩ := reply
    cases counts with
    | false => exact hdown
    | true =>
      refine asks_bind (asks_holdBegin hr hm id) fun r' hr' =>
        asks_same (fun _ _ => rfl) fun R hreads => ?_
      exact held_startMode (s := asking s h R) (hr' hreads) id m data

/-- Which modes an end closes does not depend on other runs. -/
theorem endOf_asking (run : Runner) (m : RuleMatch) (frames : List Frame) :
    endOf (asking s h run) m frames = endOf s m frames := by
  induction frames with
  | nil => rfl
  | cons f rest ih =>
    unfold endOf
    rw [ih]
    rfl

theorem live_bind {α β : Type} {x : Attempt α} {f : α → Attempt β} (hx : Live x)
    (hf : ∀ a, Live (f a)) : Live (x >>= f) := by
  intro e he
  obtain ⟨hresult, hcause⟩ := stuck_attempt.mp he
  cases hx' : x.result with
  | ok a =>
    rw [Attempt.result_bind_of_ok hx'] at hresult
    exact hf a e (stuck_attempt.mpr ⟨hresult, hcause⟩)
  | error e' =>
    rw [Attempt.result_bind_of_error hx'] at hresult
    cases hresult
    exact hx e (stuck_attempt.mpr ⟨hx', hcause⟩)

theorem live_endOf (s : Scene) (m : RuleMatch) (frames : List Frame) : Live (endOf s m frames) := by
  induction frames with
  | nil => exact live_of_ok rfl
  | cons f rest ih =>
    unfold endOf
    refine live_bind ?_ fun reply => ?_
    · unfold askEnd
      split
      · exact live_askHook? s _ m f.data
      · exact live_of_ok rfl
    · obtain ⟨counts, data⟩ := reply
      simp only
      split
      · exact live_of_ok rfl
      · split
        · exact live_bind ih fun _ => live_of_ok rfl
        · exact live_of_ok rfl

/-- The end of a mode is told or held back, or left to be read again. -/
theorem asks_holdEnd (hr : Holds s r m.span.start) (hm : m.span.start ≤ m.span.stop) (id : Nat) :
    AsksFor (MayAsk h s)
      (fun r' => Holds s r'
        (if (s.arena.mode id).returnEnd then m.span.start else m.span.stop))
      fun R => holdEnd (asking s h R) (s.arena.mode id) m r := by
  have hle : m.span.start ≤
      (if (s.arena.mode id).returnEnd then m.span.start else m.span.stop) := by
    split
    · exact Nat.le_refl _
    · exact hm
  unfold holdEnd
  cases hscope : (s.arena.mode id).endScope with
  | some scope =>
    cases scope with
    | wrap label =>
      refine asks_bind (asks_flush hr) fun r' hr' =>
        asks_same (fun _ _ => rfl) fun R hreads => ?_
      refine (hr'.2 hreads).told hle ?_ (blocks_emitLabelled ..)
      rw [(tells_emitLabelled r' _ _ label).buffer]
      exact hr'.1
    | parts labels =>
      refine asks_bind (asks_flush hr) fun r' hr' =>
        asks_same (fun _ _ => rfl) fun R hreads => ?_
      exact (hr'.2 hreads).told hle rfl (blocks_tellParts (asking s h R) m labels r')
  | none =>
    cases hskip : (s.arena.mode id).skip with
    | true =>
      simp only [↓reduceIte]
      refine asks_same (fun _ _ => rfl) fun R hreads => ?_
      have hreturn : (s.arena.mode id).returnEnd = false := by
        refine Bool.eq_false_iff.mpr fun hreturn => ?_
        rw [(hreads.returnEnd id hreturn hscope).1] at hskip
        cases hskip
      rw [hreturn]
      exact (hr hreads).hold hm
    | false =>
      cases hexclude : (s.arena.mode id).excludeEnd with
      | true =>
        rw [Bool.or_true]
        refine asks_bind (asks_flush hr) fun r' hr' =>
          asks_same (fun _ _ => rfl) fun R hreads => ?_
        have hreturn : (s.arena.mode id).returnEnd = false := by
          refine Bool.eq_false_iff.mpr fun hreturn => ?_
          rw [(hreads.returnEnd id hreturn hscope).2] at hexclude
          cases hexclude
        rw [hreturn]
        exact (hr'.2 hreads).restart (Nat.le_refl _) hm rfl rfl
      | false =>
        rw [Bool.or_false]
        cases (s.arena.mode id).returnEnd with
        | true => exact asks_bind (asks_flush hr) fun r' hr' => asks_pure hr'.2
        | false =>
          have hheld : Holds s (r.hold (lexeme s m)) m.span.stop :=
            fun hreads => (hr hreads).hold hm
          exact asks_bind (asks_flush hheld) fun r' hr' => asks_pure hr'.2

theorem asks_endStep (hr : Holds s r m.span.start) (hm : m.span.start ≤ m.span.stop) :
    AsksFor (MayAsk h s) (fun r' => Holds s r' r'.index) fun R => endStep (asking s h R) m r := by
  have hend : AsksFor (MayAsk h s) (fun _ => True)
      fun R : Runner => endOf (asking s h R) m r.frames := by
    simp only [endOf_asking]
    exact .settled (fun _ _ => trivial) (live_endOf s m r.frames)
  unfold endStep
  refine asks_bind hend fun answer _ => ?_
  obtain ⟨count, frames⟩ := answer
  have hframes : Holds s { r with frames } m.span.start := fun hreads => hr hreads
  cases count with
  | none =>
    exact asks_same (fun _ _ => rfl) fun R hreads =>
      held_passChar (s := asking s h R) (hframes hreads)
  | some n =>
    refine asks_bind (asks_holdEnd hframes hm (s.topId frames)) fun r' hr' =>
      asks_same (fun _ _ => rfl) fun R hreads => ?_
    have hclosed := held_closeFrames (s := asking s h R) (hr' hreads) n none
    simp only
    split
    · exact held_startMode hclosed _ m .empty
    · exact hclosed

/-- **A step asks about what is held back**, and holds back a piece of the text again. -/
theorem asks_step (hr : Holds s r r.index) (hi : r.index ≤ m.span.start)
    (hm : m.span.start ≤ m.span.stop) :
    AsksFor (MayAsk h s) (fun r' => Holds s r' r'.index) fun R => step (asking s h R) m r := by
  have hheld : Holds s (r.hold (s.text.slice r.index m.span.start)) m.span.start :=
    fun hreads => (hr hreads).hold hi
  have hlast : Holds s { r.hold (s.text.slice r.index m.span.start) with
      last := some (m.kind, m.span.start) } m.span.start := fun hreads => hheld hreads
  unfold step
  simp only
  cases hempty : isEmptyMode m r.last with
  | true =>
    have hempty' : ∀ R, isEmptyMode m
        (r.hold ((asking s h R).text.slice r.index m.span.start)).last = true := fun _ => hempty
    simp only [hempty', ↓reduceIte]
    cases hsafe : s.options.safeMode with
    | true =>
      have hsafe' : ∀ R, (asking s h R).options.safeMode = true := fun _ => hsafe
      simp only [hsafe', ↓reduceIte]
      exact asks_same (fun _ _ => rfl) fun R hreads =>
        held_passChar (s := asking s h R) (hheld hreads)
    | false =>
      have hsafe' : ∀ R, (asking s h R).options.safeMode = false := fun _ => hsafe
      simp only [hsafe', Bool.false_eq_true, ↓reduceIte]
      exact asks_fail (fun _ _ => rfl) fun R h => by cases h
  | false =>
    have hempty' : ∀ R, isEmptyMode m
        (r.hold ((asking s h R).text.slice r.index m.span.start)).last = false := fun _ => hempty
    simp only [hempty', Bool.false_eq_true, ↓reduceIte]
    cases hkind : m.kind with
    | begins id =>
      rw [hkind] at hlast
      exact asks_beginStep hlast hm id
    | ends =>
      rw [hkind] at hlast
      exact asks_endStep hlast hm
    | illegal =>
      cases hignore : s.ignoreIllegals with
      | true =>
        have hignore' : ∀ R, (asking s h R).ignoreIllegals = true := fun _ => hignore
        simp only [hignore', ↓reduceIte]
        refine asks_same (fun _ _ => rfl) fun R hreads => ?_
        rw [hkind] at hlast
        unfold passIllegal
        split
        · exact held_passChar (s := asking s h R) (hlast hreads)
        · exact (hlast hreads).hold hm
      | false =>
        have hignore' : ∀ R, (asking s h R).ignoreIllegals = false := fun _ => hignore
        simp only [hignore', Bool.false_eq_true, ↓reduceIte]
        exact asks_fail (fun _ _ => rfl) fun R h => by cases h

/-! ## 4. Runs -/

/-- What is held back after a round. -/
def TurnHolds (s : Scene) : Turn → Prop
  | .next _ r => Holds s r r.index
  | .last _ r => Holds s r r.index
  | .broken _ _ => True

/-- What a round comes to after its step. -/
def afterStep (s : Scene) : Attempt Run → Turn
  | ⟨notes, .error f⟩ => .broken notes f
  | ⟨notes, .ok r⟩ => if s.text.size < r.index then .last notes r else .next notes r

theorem stuck_afterStep {x : Attempt Run} {f : Fault} : Stuck (afterStep s x) f ↔ Stuck x f := by
  obtain ⟨notes, result⟩ := x
  cases result with
  | error e => exact Iff.rfl
  | ok r =>
    have hlive : ∀ turn : Turn, (∀ more e, turn ≠ .broken more e) → ¬ Stuck turn f := by
      intro turn hturn hf
      cases turn with
      | next more r => cases hf.1
      | last more r => cases hf.1
      | broken more e => exact hturn more e rfl
    refine ⟨fun hf => absurd hf (hlive _ fun more e => ?_), fun hf => by cases hf.1⟩
    unfold afterStep
    simp only
    split
    · exact fun h => by cases h
    · exact fun h => by cases h

/-- **A round asks what its step asks.** -/
theorem asks_turn (hr : Holds s r r.index) (steps : Nat) :
    Asks (MayAsk h s) (TurnHolds s) fun R => turn (asking s h R) steps r := by
  cases hl : lookUp s r with
  | error cause =>
    have heq : (fun R => turn (asking s h R) steps r) = fun _ => .broken [] (.unplaced cause) :=
      funext fun R => turn_of_unplaced (s := asking s h R) hl
    rw [heq]
    refine .settled trivial fun f hf => ?_
    obtain ⟨k, _, hmerge⟩ := Arena.next_error hl
    obtain ⟨pattern, message, rfl⟩ := Arena.RuleSet.mergedFrom_error hmerge
    obtain ⟨hfault, hcause⟩ := hf
    cases hfault
    cases hcause
  | ok found =>
    obtain ⟨found, first⟩ := found
    cases found with
    | none =>
      have heq : (fun R => turn (asking s h R) steps r) = fun _ => .last [] (r.atRule first) :=
        funext fun R => turn_of_none (s := asking s h R) hl
      rw [heq]
      exact .settled (P := TurnHolds s) hr fun f hf => by cases hf.1
    | some m =>
      have hfinds := Arena.finds_next hl
      cases hlacks : lacksHeadway s steps m.span.start with
      | true =>
        have heq : (fun R => turn (asking s h R) steps r) =
            fun _ => .broken [] (s.fault (.infiniteLoop steps) m.span.start) :=
          funext fun R => turn_of_lacksHeadway (s := asking s h R) hl hlacks
        rw [heq]
        refine .settled trivial fun f hf => ?_
        obtain ⟨hfault, hcause⟩ := hf
        cases hfault
        cases hcause
      | false =>
        have heq : (fun R => turn (asking s h R) steps r) =
            fun R => afterStep s (step (asking s h R) m (r.atRule first)) := by
          funext R
          cases hstep : step (asking s h R) m (r.atRule first) with
          | mk notes result =>
            cases result with
            | error f => exact turn_of_error (s := asking s h R) hl hlacks hstep
            | ok r' => exact turn_of_ok (s := asking s h R) hl hlacks hstep
        rw [heq]
        have hrule : Holds s (r.atRule first) (r.atRule first).index := hr
        refine (asks_step hrule hfinds.from_le hfinds.ordered).map (g := afterStep s)
          (fun x hx => ?_) fun x f => stuck_afterStep
        obtain ⟨notes, result⟩ := x
        cases result with
        | error e => trivial
        | ok r' =>
          have hr' := hx r' rfl
          unfold afterStep
          simp only
          split
          · exact hr'
          · exact hr'

/-- What a run comes to after the text that is left. -/
def afterFlush (notes : List HookNote) (r : Run) : Attempt Run → Scanned
  | ⟨more, .ok r'⟩ =>
    ⟨notes ++ more, r'.frames, (Token.Event.finish :: r'.events).reverse, r'.relevance, none⟩
  | ⟨more, .error f⟩ => ⟨notes ++ more, r.frames, r.events.reverse, 0, some f⟩

/-- What is left at the end of a run is told. -/
theorem asks_complete (hr : Holds s r r.index) (notes : List HookNote) :
    Asks (MayAsk h s) (fun _ => True) fun R => complete (asking s h R) notes r := by
  have hheld : Holds s (r.hold (s.text.slice r.index s.text.size)) (max r.index s.text.size) := by
    intro hreads
    rcases Nat.le_total r.index s.text.size with hle | hle
    · rw [Nat.max_eq_right hle]
      exact (hr hreads).hold hle
    · rw [Nat.max_eq_left hle, Text.slice_of_size_le _ hle]
      refine (hr hreads).congr (String.append_empty ..) rfl
  refine (asks_flush hheld).map (g := afterFlush notes r) (fun _ _ => ?_) fun x f => ?_
  · trivial
  · obtain ⟨more, result⟩ := x
    cases result with
    | ok r' =>
      constructor
      · intro hf
        cases hf.1
      · intro hf
        cases hf.1
    | error e => exact Iff.rfl

/-- What a run comes to after a round. -/
def afterTurn (s : Scene) (fuel steps : Nat) (notes : List HookNote) (r : Run) : Turn → Scanned
  | .next more r' => scan s fuel steps (more.reverse ++ notes) r'
  | .last more r' => complete s (notes.reverse ++ more) r'
  | .broken more f => broken (notes.reverse ++ more) r.frames r.events f

/-- **The rounds of a run ask, one after the other.** -/
theorem asks_scan (fuel : Nat) : ∀ (steps : Nat) (notes : List HookNote) (r : Run),
    Holds s r r.index →
    Asks (MayAsk h s) (fun _ => True) fun R => scan (asking s h R) fuel steps notes r := by
  induction fuel with
  | zero =>
    intro steps notes r _
    refine .settled (b := scan s 0 steps notes r) trivial fun f hf => ?_
    obtain ⟨hfault, hcause⟩ := hf
    cases hfault
    cases hcause
  | succ fuel ih =>
    intro steps notes r hr
    refine (asks_turn hr (steps + 1)).andThen
      (g := fun t R => afterTurn (asking s h R) fuel (steps + 1) notes r t)
      (fun t ht hlive => ?_) fun t R f hf => ?_
    · cases t with
      | next more r' => exact ih _ _ r' ht
      | last more r' => exact asks_complete ht _
      | broken more e => exact .settled trivial fun f hf => hlive f hf
    · cases t with
      | next more r' => cases hf.1
      | last more r' => cases hf.1
      | broken more e => exact hf

theorem asks_scanAll (s : Scene) (continuation : Option (List Nat)) :
    Asks (MayAsk h s) (fun _ => True) fun R => scanAll (asking s h R) continuation :=
  asks_scan (maxSteps s) 0 [] (initial s.arena continuation) fun _ => held_initial continuation

/-! ## 5. Runs in a language -/

/-- A run without an end is not mended. -/
theorem conclude_error (arena : Arena) (code : String) (top : List Nat) (scanned : Scanned)
    {f : Fault} (hcause : f.cause = .endlessDelegation) :
    h.conclude arena code top scanned = .error f ↔ scanned.fault = some f := by
  unfold conclude
  cases scanned.fault with
  | none =>
    constructor
    · intro hf
      cases hf
    · intro hf
      cases hf
  | some e =>
    show h.recover arena code top scanned e = .error f ↔ some e = some f
    unfold recover
    split
    · constructor
      · intro hf
        cases hf
        rfl
      · intro hf
        cases hf
        rfl
    · rename_i hends
      constructor
      · intro hf
        cases hf
      · intro hf
        cases hf
        rw [hcause] at hends
        exact absurd rfl hends

/-- **A run in a language asks about pieces of its text**, in registered languages. -/
theorem asks_runArena (arena : Arena) (code : String) (ignoreIllegals : Bool)
    (continuation : Option (List Nat)) :
    AsksFor (MayAsk h (h.sceneOf (h.delegateTo (h.runAt 0)) arena code ignoreIllegals))
      (fun _ => True)
      fun R => h.runArena (h.delegateTo R) arena code ignoreIllegals continuation := by
  refine (asks_scanAll _ continuation).map (g := fun scanned => (⟨scanned.notes,
    h.conclude arena code ((h.sceneOf (h.delegateTo (h.runAt 0)) arena code ignoreIllegals).stack
      scanned.frames) scanned⟩ : Attempt Outcome))
    (fun _ _ => ?_) fun scanned f => ?_
  · exact fun _ _ => trivial
  · rw [stuck_attempt]
    unfold Stuck
    refine and_congr_left fun hcause => ?_
    exact conclude_error arena code _ scanned hcause

/-- What a call may ask: if its language is there, what a run in it may ask. -/
def CallAsks (h : Highlighter) (c c' : Call) : Prop :=
  ∃ arena, h.language? c.name = some arena ∧
    MayAsk h (h.sceneOf (h.delegateTo (h.runAt 0)) arena c.code c.ignoreIllegals) c'

/-- **A call asks about pieces of its text**, in registered languages. -/
theorem asks_runIn (h : Highlighter) (c : Call) :
    AsksFor (h.CallAsks c) (fun _ => True) fun R => Runner.at (h.runIn R) c := by
  cases hl : h.language? c.name with
  | none =>
    have heq : (fun R => Runner.at (h.runIn R) c) = fun _ => .fail (unknown c.name) := by
      funext R
      unfold Runner.at runIn
      rw [hl]
    rw [heq]
    exact asks_fail (fun _ _ => rfl) fun _ h => by cases h
  | some arena =>
    have heq : (fun R => Runner.at (h.runIn R) c) = fun R =>
        h.runArena (h.delegateTo R) arena c.code c.ignoreIllegals c.continuation := by
      funext R
      unfold Runner.at runIn
      rw [hl]
    rw [heq]
    exact (asks_runArena arena c.code c.ignoreIllegals c.continuation).weaken
      fun c' hc' => ⟨arena, hl, hc'⟩

end Highlight.Highlighter
