import Highlight.Proofs.Scan.Attempts
import Highlight.Proofs.Scan.Rounds

/-!
# The laws of a step

A step is put together from few parts: a match is turned down or passed, a mode opens, open modes
close. There is one law for each part, with a premise for everything that the part can come to; what
holds of the parts holds of the step.

* `turnDown_of`, `passIllegal_of` -- a match that is turned down, and what is forbidden;
* `meets_flush_of` -- text is told;
* `Opens`, `meets_holdBegin`, `meets_beginStep` -- a mode opens;
* `meets_holdEnd`, `closeFrame_of`, `closeFrames_of`, `meets_endStep` -- open modes close;
* `meets_step` -- any rule.
-/

namespace Highlight.Scan

open Highlight.Arena (ArenaMode RuleMatch)
open Highlight.Grammar (HookData)
open Attempt

variable {s : Scene} {m : RuleMatch} {r : Run} {P H : Run → Prop} {E : Fault → Prop}

/-! ## 1. Moving on -/

theorem turnDown_of (hpassed : P (passChar s m.span.start r))
    (hagain : P { r with resumes := true, index := m.span.start }) : P (turnDown s m r) := by
  unfold turnDown
  split
  · exact hpassed
  · exact hagain

theorem passIllegal_of (hempty : P (passChar s m.span.start r))
    (hread : P { (r.hold (lexeme s m)) with index := m.span.stop }) : P (passIllegal s m r) := by
  unfold passIllegal
  split
  · exact hempty
  · exact hread

theorem meets_flush_of
    (hblock : ∀ sub, (s.top r).subLanguage = some sub →
      (tellBlock s sub r.buffer { r with buffer := "" }).Meets P E)
    (hwords : (s.top r).subLanguage = none → P (tellKeywords s r.buffer { r with buffer := "" })) :
    (flush s r).Meets P E := by
  unfold flush
  simp only
  split
  · rename_i sub hsub
    exact hblock sub hsub
  · rename_i hnone
    exact meets_pure (hwords hnone)

/-! ## 2. Modes open -/

/-- What is flushed may have the beginning held back first; behind that the beginning is held back,
    unless it is left outside or read again. -/
theorem meets_holdBegin {mode : ArenaMode} {t : String} (hskip : mode.skip = true → P (r.hold t))
    (hflush : mode.skip = false → (flush s (if mode.excludeBegin then r.hold t else r)).Meets H E)
    (hheld : mode.skip = false → ∀ r', H r' →
      P (if mode.returnBegin || mode.excludeBegin then r' else { r' with buffer := t })) :
    (holdBegin s mode t r).Meets P E := by
  unfold holdBegin
  split
  · rename_i h
    exact meets_pure (hskip h)
  · rename_i h
    rw [Bool.not_eq_true] at h
    exact meets_bind (hflush h) fun r' hr' => meets_pure (hheld h r' hr')

/-- **The beginning of a mode counts**: no dot turns it down, nor does its hook, which keeps `data`. -/
def Opens (s : Scene) (id : Nat) (m : RuleMatch) (data : HookData) : Prop :=
  ((s.arena.mode id).skipAfterDot && afterDot s.text m.span.start) = false ∧
    (askHook? s (s.arena.mode id).onBegin m .empty).result = .ok (true, data)

/-- **The beginning of a mode** is turned down, or it counts and the mode opens. -/
theorem meets_beginStep {id : Nat} (hdown : (¬ ∃ data, Opens s id m data) → P (turnDown s m r))
    (hasked : ∀ f, (askHook? s (s.arena.mode id).onBegin m .empty).result = .error f → E f)
    (hheld : (∃ data, Opens s id m data) →
      (holdBegin s (s.arena.mode id) (lexeme s m) r).Meets H E)
    (hopens : ∀ data r', Opens s id m data → H r' → P { (startMode s id m data r') with
      index := if (s.arena.mode id).returnBegin then m.span.start else m.span.stop }) :
    (beginStep s id m r).Meets P E := by
  unfold beginStep
  simp only
  split
  · rename_i hdot
    refine meets_pure (hdown ?_)
    rintro ⟨data, hnodot, _⟩
    rw [hnodot] at hdot
    cases hdot
  · rename_i hdot
    refine meets_bind ⟨fun reply hreply => hreply, hasked⟩ fun reply hreply => ?_
    obtain ⟨counts, data⟩ := reply
    cases counts with
    | false =>
      refine meets_pure (hdown ?_)
      rintro ⟨data', _, hcounts⟩
      cases hreply.symm.trans hcounts
    | true =>
      have hcounts : Opens s id m data := ⟨by simpa using hdot, hreply⟩
      exact meets_bind (hheld ⟨data, hcounts⟩) fun r' hr' => meets_pure (hopens data r' hcounts hr')

/-! ## 3. Modes close -/

/-- The text before an end is told, and behind it the end is told under its labels; without labels
    the end may be held back first, and it is held back behind that if it is left outside. -/
theorem meets_holdEnd {mode : ArenaMode} {K : Run → Prop}
    (hflush : mode.endScope ≠ none → (flush s r).Meets H E)
    (hwrap : ∀ label, mode.endScope = some (.wrap label) → ∀ r', H r' →
      P (r'.emitLabelled s.arena (lexeme s m) label))
    (hparts : ∀ labels, mode.endScope = some (.parts labels) → ∀ r', H r' →
      P { tellParts s m labels r' with buffer := "" })
    (hskip : mode.endScope = none → mode.skip = true → P (r.hold (lexeme s m)))
    (hflush' : mode.endScope = none → mode.skip = false →
      (flush s (if mode.returnEnd || mode.excludeEnd then r else r.hold (lexeme s m))).Meets K E)
    (hheld : mode.endScope = none → mode.skip = false → ∀ r', K r' →
      P (if mode.excludeEnd then { r' with buffer := lexeme s m } else r')) :
    (holdEnd s mode m r).Meets P E := by
  unfold holdEnd
  simp only
  cases hscope : mode.endScope with
  | some scope =>
    have hfl := hflush (by rw [hscope]; exact Option.some_ne_none scope)
    cases scope with
    | wrap label => exact meets_bind hfl fun r' hr' => meets_pure (hwrap label hscope r' hr')
    | parts labels => exact meets_bind hfl fun r' hr' => meets_pure (hparts labels hscope r' hr')
  | none =>
    cases hs : mode.skip with
    | true => exact meets_pure (hskip hscope hs)
    | false => exact meets_bind (hflush' hscope hs) fun r' hr' => meets_pure (hheld hscope hs r' hr')

theorem closeFrame_of {arena : Arena} {f : Frame} (hmode : P (r.closeMode (arena.mode f.mode)))
    (hworth : ∀ r' n, P r' → P { r' with relevance := n }) : P (closeFrame arena f r) := by
  unfold closeFrame
  simp only
  split
  · exact hmode
  · exact hworth _ _ hmode

/-- What holds on when the innermost mode closes holds on when several close. -/
theorem closeFrames_of {arena : Arena}
    (hclose : ∀ (r : Run) (f : Frame) (rest : List Frame), r.frames = f :: rest → P r →
      P (closeFrame arena f { r with frames := rest }))
    (n : Nat) (ended : Option Nat) (h : P r) : P (closeFrames arena n ended r).2 := by
  induction n generalizing ended r with
  | zero => exact h
  | succ n ih =>
    unfold closeFrames
    cases hf : r.frames with
    | nil => exact h
    | cons f rest => exact ih _ (hclose r f rest hf h)

/-- **The end of a mode** is passed by one character, or it closes modes, and may start another one
    for them. -/
theorem meets_endStep {A : Option Nat × List Frame → Prop} {H : Nat → List Frame → Run → Prop}
    (hanswer : (endOf s m r.frames).Meets A E)
    (hpassed : ∀ frames, A (none, frames) → P (passChar s m.span.start { r with frames }))
    (hheld : ∀ n frames, A (some n, frames) →
      (holdEnd s (s.top { r with frames }) m { r with frames }).Meets (H n frames) E)
    (hcloses : ∀ n frames r', A (some n, frames) → H n frames r' →
      ((closeFrames s.arena n none r').1.bind fun id => (s.arena.mode id).starts) = none →
      P { (closeFrames s.arena n none r').2 with
        index := if (s.top { r with frames }).returnEnd then m.span.start else m.span.stop })
    (hstarts : ∀ n frames r' next, A (some n, frames) → H n frames r' →
      ((closeFrames s.arena n none r').1.bind fun id => (s.arena.mode id).starts) = some next →
      P { (startMode s next m .empty (closeFrames s.arena n none r').2) with
        index := if (s.top { r with frames }).returnEnd then m.span.start else m.span.stop }) :
    (endStep s m r).Meets P E := by
  unfold endStep
  refine meets_bind hanswer fun answer hanswer => ?_
  obtain ⟨count, frames⟩ := answer
  cases count with
  | none => exact meets_pure (hpassed frames hanswer)
  | some n =>
    refine meets_bind (hheld n frames hanswer) fun r' hr' => meets_pure ?_
    split
    · rename_i next hnext
      exact hstarts n frames r' next hanswer hr' hnext
    · rename_i hnext
      exact hcloses n frames r' hanswer hr' hnext

/-! ## 4. Any rule -/

/-- **A step** passes a character, handles its match, or fails. -/
theorem meets_step
    (hpassed : P (passChar s m.span.start (r.hold (s.text.slice r.index m.span.start))))
    (hzeroWidth : s.options.safeMode = false → E (s.fault (.zeroWidthMatch s.arena.name) m.span.start))
    (hbegins : ∀ id, m.kind = .begins id → (beginStep s id m (r.meet s m)).Meets P E)
    (hends : m.kind = .ends → (endStep s m (r.meet s m)).Meets P E)
    (hignored : m.kind = .illegal → P (passIllegal s m (r.meet s m)))
    (hillegal : s.ignoreIllegals = false →
      E (s.fault (.illegalLexeme (lexeme s m) (s.top r).shownLabel) m.span.start)) :
    (step s m r).Meets P E := by
  cases hempty : isEmptyMode m r.last with
  | true =>
    rw [step_of_empty hempty]
    cases hsafe : s.options.safeMode with
    | true => exact meets_pure hpassed
    | false => exact meets_fail (hzeroWidth hsafe)
  | false =>
    rw [step_of_not_empty hempty, act]
    cases hkind : m.kind with
    | begins id => exact hbegins id hkind
    | ends => exact hends hkind
    | illegal =>
      cases hignore : s.ignoreIllegals with
      | true => exact meets_pure (hignored hkind)
      | false => exact meets_fail (hillegal hignore)

end Highlight.Scan
