import Highlight.Proofs.Highlighting.Headway
import Highlight.Proofs.Registry.Built
import Mathlib.Logic.ExistsUnique

/-!
# What a call comes to in safe mode

In safe mode a call fails only where no language has the name, or where the guard has ended a run.
Any other fault, and whatever a text may not have, becomes an outcome.

* `Kind`, `OfKind` -- the kinds of outcomes, and what is known of an outcome of each kind;
* `boundary_of_illegal` -- where something forbidden is met, a character begins;
* `ofKind_of_runArena`, `ofKind_unique` -- every outcome is of one kind, and of only one;
* `safe_mode_never_fails` -- all of it.
-/

namespace Highlight.Highlighter

open Highlight.Arena (compileLanguage)
open Highlight.Grammar (Language)
open Highlight.Scan (Scene StepFails)

variable {h : Highlighter} {name code : String} {arena : Arena} {language : Language}
  {ignoreIllegals : Bool} {continuation : Option (List Nat)} {depth : Nat} {o : Outcome} {f : Fault}

/-! ## 1. Kinds of outcomes -/

/-- How a run in safe mode has ended. -/
inductive Kind where
  | completed
  | illegal
  | failed
  deriving DecidableEq

/-- A run has read its text to the end: what it has told is written. -/
structure IsCompleted (options : Options) (code : String) (o : Outcome) : Prop where
  illegalBy : o.illegalBy? = none
  fault : o.fault? = none
  written : ∀ sink, o.write sink options code = sink.write options.classLead o.events

/-- A run has been given up: it is worth nothing, and the text is written as it is. -/
structure IsGivenUp (options : Options) (code : String) (o : Outcome) : Prop where
  relevance : o.relevance = 0
  written : ∀ sink, o.write sink options code = Html.escape code

/-- A run has met something forbidden, which was not to be ignored, where a character of the text
    begins. -/
structure IsIllegal (options : Options) (code : String) (ignoreIllegals : Bool) (o : Outcome) :
    Prop extends IsGivenUp options code o where
  heeded : ignoreIllegals = false
  fault : o.fault? = none
  illegalBy : ∃ place before after, o.illegalBy? = some place ∧ code = before ++ after ∧
    before.utf8ByteSize = place.index

/-- A run has failed with a fault, but neither by something forbidden nor for want of headway. -/
structure IsFailed (options : Options) (code : String) (o : Outcome) : Prop
    extends IsGivenUp options code o where
  illegalBy : o.illegalBy? = none
  fault : ∃ f, o.fault? = some f ∧ f.cause.isIllegal = false ∧ f.cause.isInfiniteLoop = false

/-- What is known of an outcome of a kind. -/
def OfKind (options : Options) (code : String) (ignoreIllegals : Bool) (o : Outcome) : Kind → Prop
  | .completed => IsCompleted options code o
  | .illegal => IsIllegal options code ignoreIllegals o
  | .failed => IsFailed options code o

/-- An outcome is of one kind at most. -/
theorem ofKind_unique {options : Options} {k k' : Kind} (hk : OfKind options code ignoreIllegals o k)
    (hk' : OfKind options code ignoreIllegals o k') : k = k' := by
  have hillegal : IsIllegal options code ignoreIllegals o → o.illegalBy? ≠ none := by
    rintro hi hnone
    obtain ⟨place, _, _, hplace, _⟩ := hi.illegalBy
    cases hplace.symm.trans hnone
  have hfailed : IsFailed options code o → o.fault? ≠ none := by
    rintro hf hnone
    obtain ⟨f, hfault, _⟩ := hf.fault
    cases hfault.symm.trans hnone
  cases k <;> cases k'
  · rfl
  · exact absurd hk.illegalBy (hillegal hk')
  · exact absurd hk.fault (hfailed hk')
  · exact absurd hk'.illegalBy (hillegal hk)
  · rfl
  · exact absurd hk'.illegalBy (hillegal hk)
  · exact absurd hk'.fault (hfailed hk)
  · exact absurd hk.illegalBy (hillegal hk')
  · rfl

/-! ## 2. What becomes of a fault -/

theorem isIllegal_of_isEndless {cause : Cause} (hc : cause.isEndless = true) :
    cause.isIllegal = false := by
  cases cause <;> first | rfl | cases hc

/-- What has no end is want of headway, or delegation without end. -/
theorem isEndless_iff {cause : Cause} : cause.isEndless = true ↔
    cause.isInfiniteLoop = true ∨ cause = .endlessDelegation := by
  cases cause <;> simp [Cause.isEndless, Cause.isInfiniteLoop]

/-- Where something forbidden is met, a character of the text begins. -/
theorem boundary_of_illegal (s : Scene) (code : String) (hs : s.text = Text.ofString code)
    (cause : Cause) (i : Nat) : ∃ before after, code = before ++ after ∧
      before.utf8ByteSize = (IllegalBy.ofFault (s.fault cause i) code).index := by
  refine ⟨String.ofList (code.toList.take i), String.ofList (code.toList.drop i), ?_, ?_⟩
  · rw [← String.ofList_append, List.take_append_drop, String.ofList_toList]
  · rw [Text.byteSize_take, String.ofList_toList]
    show _ = min (s.text.byteOffset i) code.utf8ByteSize
    rw [hs]
    simp [Text.byteOffset, Text.ofString]

/-- In safe mode a step fails with something forbidden only in its own text, where it is not to be
    ignored. -/
theorem illegal_of_stepFails (hsafe : h.options.safeMode = true)
    (hstep : StepFails (h.sceneOf (h.delegateTo (h.runAt depth)) arena code ignoreIllegals) f)
    (hillegal : f.cause.isIllegal = true) : ignoreIllegals = false ∧ ∃ cause i,
      f = (h.sceneOf (h.delegateTo (h.runAt depth)) arena code ignoreIllegals).fault cause i := by
  cases hstep with
  | panicked _ _ _ => cases hillegal
  | delegated _ hfails =>
    obtain ⟨b, _, inner, _, _, hinner, hrun⟩ := fails_delegateTo hfails
    rw [isIllegal_of_isEndless (endless_of_error hsafe hinner hrun)] at hillegal
    cases hillegal
  | illegal lexeme mode i hheeded => exact ⟨hheeded, _, i, rfl⟩
  | zeroWidth _ _ => cases hillegal

/-- In safe mode a run fails with something forbidden only in its own text, where it is not to be
    ignored. -/
theorem illegal_of_fault (hc : compileLanguage name language = .ok arena)
    (hsafe : h.options.safeMode = true)
    (hfault : (Scan.scanAll (h.sceneOf (h.delegateTo (h.runAt depth)) arena code ignoreIllegals)
      continuation).fault = some f)
    (hillegal : f.cause.isIllegal = true) : ignoreIllegals = false ∧ ∃ cause i,
      f = (h.sceneOf (h.delegateTo (h.runAt depth)) arena code ignoreIllegals).fault cause i := by
  have hscene : compileLanguage name language =
      .ok (h.sceneOf (h.delegateTo (h.runAt depth)) arena code ignoreIllegals).arena := hc
  rcases Scan.fault_scanAll hscene hfault with ⟨_, _, cause, _, hmerge, rfl⟩ | hloses | hstep
  · obtain ⟨pattern, message, rfl⟩ := Arena.RuleSet.mergedFrom_error hmerge
    cases hillegal
  · cases hloses with
    | stopped _ _ _ => cases hillegal
  · exact illegal_of_stepFails hsafe hstep hillegal

/-- **A run in a language is completed, or meets something forbidden, or fails**, in safe mode. -/
theorem ofKind_of_runArena (hc : compileLanguage name language = .ok arena)
    (hsafe : h.options.safeMode = true)
    (ho : (h.runArena (h.delegateTo (h.runAt depth)) arena code ignoreIllegals
      continuation).result = .ok o) :
    ∃ k, OfKind h.options code ignoreIllegals o k := by
  simp only [runArena, conclude] at ho
  split at ho
  · rename_i f hfault
    unfold recover at ho
    split at ho
    · cases ho
    · rename_i hends
      rw [Bool.or_eq_true, not_or] at hends
      cases hillegal : f.cause.isIllegal with
      | false =>
        rw [hillegal] at ho
        cases ho
        have hloop : f.cause.isInfiniteLoop = false :=
          Bool.eq_false_iff.mpr fun hloop => hends.1 (isEndless_iff.mpr (.inl hloop))
        exact ⟨.failed, ⟨⟨rfl, fun _ => rfl⟩, rfl, f, rfl, hillegal, hloop⟩⟩
      | true =>
        rw [hillegal] at ho
        cases ho
        obtain ⟨hheeded, cause, i, rfl⟩ := illegal_of_fault hc hsafe hfault hillegal
        obtain ⟨before, after, hcode, hindex⟩ := boundary_of_illegal
          (h.sceneOf (h.delegateTo (h.runAt depth)) arena code ignoreIllegals) code rfl cause i
        exact ⟨.illegal, ⟨⟨rfl, fun _ => rfl⟩, hheeded, rfl, _, before, after, rfl, hcode, hindex⟩⟩
  · cases ho
    exact ⟨.completed, ⟨rfl, rfl, fun _ => rfl⟩⟩

/-! ## 3. Calls -/

/-- The outcome of a run bears the name of its language. -/
theorem language_of_runArena {delegate : Scan.Delegate}
    (ho : (h.runArena delegate arena code ignoreIllegals continuation).result = .ok o) :
    o.language = some arena.name := by
  simp only [runArena, conclude] at ho
  split at ho
  · unfold recover at ho
    split at ho
    · cases ho
    · cases ho
      rfl
  · cases ho
    rfl

theorem allCompiled_of_built (hb : Built h) : h.AllCompiled :=
  fun _ arena hl => ⟨arena.name, compiled_of_language? hb hl⟩

/-- **Safe mode never fails on a text.** A call that comes to an end fails only if no language has the
    name, or if the guard has ended a run that it leads to. Every other call has an outcome, in the
    language by its own name, of exactly one of three kinds; what is raised in nested runs is no
    exception. -/
theorem safe_mode_never_fails (hb : Built h) (hsafe : h.options.safeMode = true) (depth : Nat)
    (c : Call) (hends : Live ((h.runAt depth).at c)) :
    (∀ f, ((h.runAt depth).at c).result = .error f →
      (h.canonicalName c.name = none ∧ f = unknown c.name) ∨
      (f.cause.isInfiniteLoop = true ∧ ∃ c', h.LeadsTo c c' ∧ h.Stopped c' f)) ∧
    ∀ o, ((h.runAt depth).at c).result = .ok o →
      (∃ canonical, h.canonicalName c.name = some canonical ∧ o.language = some canonical) ∧
      ∃! kind, OfKind h.options c.code c.ignoreIllegals o kind := by
  cases depth with
  | zero => exact absurd hends not_live_zero
  | succ depth =>
    rcases language?_of_built hb c.name with ⟨hl, hname⟩ | ⟨arena, language, hl, hname, hc⟩
    · have hunknown : (h.runAt (depth + 1)).at c = .fail (unknown c.name) := runAt_unknown hl depth
      rw [hunknown]
      refine ⟨fun f hf => ?_, fun o ho => by cases ho⟩
      cases hf
      exact .inl ⟨hname, rfl⟩
    · have hrun : (h.runAt (depth + 1)).at c = h.runArena (h.delegateTo (h.runAt depth)) arena
          c.code c.ignoreIllegals c.continuation := runAt_succ hl depth _ _ _
      refine ⟨fun f hf => .inr ?_, fun o ho => ?_⟩
      · have hloop : f.cause.isInfiniteLoop = true := by
          refine (isEndless_iff.mp (endless_of_error hsafe hl hf)).resolve_right fun hcause => ?_
          exact hends f (stuck_attempt.mpr ⟨hf, hcause⟩)
        exact ⟨hloop, losesHeadway_of_error (allCompiled_of_built hb) hloop (depth + 1) hf⟩
      · rw [hrun] at ho
        obtain ⟨kind, hkind⟩ := ofKind_of_runArena hc hsafe ho
        exact ⟨⟨arena.name, hname, language_of_runArena ho⟩, kind, hkind,
          fun kind' hkind' => ofKind_unique hkind' hkind⟩

/-- A language in which `#` is forbidden. -/
def strictLanguage : Language where
  mode := { illegal := some (.single "#") }

theorem built_withBrackets {inner : Language} (hh : withBrackets inner = .ok h) : Built h := by
  simp only [withBrackets, bind, Except.bind] at hh
  split at hh
  · cases hh
  · rename_i h1 hh1
    exact .register (.register (.new {}) hh1) hh

/-- A text with something forbidden has an outcome, in the language by its own name, and it tells
    where. -/
theorem forbidden_text_has_outcome : ∃ h o, withBrackets strictLanguage = .ok h ∧ Built h ∧
    h.options.safeMode = true ∧ ((h.runAt 1).at ⟨"INNER", "é#", false, none⟩).result = .ok o ∧
    o.language = some "inner" ∧ IsIllegal h.options "é#" false o := by
  have hcheck : passes (withBrackets strictLanguage) (fun h =>
      h.options.safeMode && h.canonicalName "INNER" == some "inner" &&
        passes ((h.runAt 1).at ⟨"INNER", "é#", false, none⟩).result fun o =>
          o.illegalBy?.isSome) = true := by decide +kernel
  obtain ⟨h, hh, hcheck⟩ := exists_of_passes hcheck
  simp only [Bool.and_eq_true, beq_iff_eq] at hcheck
  obtain ⟨⟨hsafe, hname⟩, hrun⟩ := hcheck
  obtain ⟨o, ho, hillegal⟩ := exists_of_passes hrun
  have hb : Built h := built_withBrackets hh
  obtain ⟨⟨canonical, hcanonical, hlanguage⟩, kind, hkind, _⟩ :=
    (safe_mode_never_fails hb hsafe 1 ⟨"INNER", "é#", false, none⟩ (live_of_ok ho)).2 o ho
  cases hname.symm.trans hcanonical
  refine ⟨h, o, hh, hb, hsafe, ho, hlanguage, ?_⟩
  cases kind with
  | completed =>
    rw [hkind.illegalBy] at hillegal
    cases hillegal
  | illegal => exact hkind
  | failed =>
    rw [hkind.illegalBy] at hillegal
    cases hillegal

end Highlight.Highlighter
