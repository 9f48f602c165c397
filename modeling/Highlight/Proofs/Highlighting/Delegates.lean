import Highlight.Proofs.Highlighting.Outcomes
import Highlight.Proofs.Scan.OpenScopes

/-!
# Languages that hand text to one another

* `Highlighter.handsTo` -- the languages that may get the text of a sub-language;
* `Involves` -- the languages that a run in a language may come to use;
* `Highlighter.answers_delegateTo`, `Highlighter.fails_delegateTo` -- what a nested run answers, or
  how it fails;
* `Highlighter.endless_of_error` -- in safe mode, a run fails only where it has no end.
-/

namespace Highlight.Highlighter

open Highlight.Grammar (SubLanguage)
open Highlight.Scan (Attempt Nested)

variable {h : Highlighter}

/-! ## 1. Which languages are used -/

/-- The languages that may get the text of a sub-language: the one that is named, or those that take
    part in a detection. -/
def handsTo (h : Highlighter) : SubLanguage → List String
  | .single name => [name]
  | .list names => h.takingPart (if names.isEmpty then none else some names)
  | .any => h.takingPart none

/-- **The languages that a run in a language may come to use**: itself, and those that get the text
    of a mode of one that it uses. -/
inductive Involves (h : Highlighter) (name : String) : String → Prop
  | itself : Involves h name name
  | handed {a b : String} {arena : Arena} {id : Nat} {sub : SubLanguage} : Involves h name a →
      h.language? a = some arena → (arena.mode id).subLanguage = some sub → b ∈ h.handsTo sub →
      Involves h name b

theorem Involves.trans {a b c : String} (h1 : Involves h a b) (h2 : Involves h b c) :
    Involves h a c := by
  induction h2 with
  | itself => exact h1
  | handed _ hl hsub hb ih => exact .handed ih hl hsub hb

/-! ## 2. Nested runs -/

variable {run : Runner} {sub : SubLanguage} {text : String} {n : Nested} {f : Fault}

/-- **What a nested run answers** is the outcome of a run that ignores what is forbidden, in the
    language that is named, or the best outcome of a detection. -/
theorem answers_delegateTo (ha : (h.delegateTo run).Answers sub text n) :
    (∃ name arena continuation o, sub = .single name ∧ h.language? name = some arena ∧
      (run name text true continuation).result = .ok o ∧ n = o.toNested) ∨
    ((∀ name, sub ≠ .single name) ∧ (n = (Outcome.plain text).toNested ∨
      ∃ name ∈ h.handsTo sub, h.autoDetection name = true ∧ ∃ o,
        (run name text false none).result = .ok o ∧ 0 < o.relevance ∧ n = o.toNested)) := by
  obtain ⟨continuation, x, hask, hx⟩ := ha
  have hbest : ∀ candidates : Option (List String),
      h.handsTo sub = h.takingPart candidates →
      ((h.delegateTo run).best candidates text).result = .ok n →
      n = (Outcome.plain text).toNested ∨ ∃ name ∈ h.handsTo sub, h.autoDetection name = true ∧
        ∃ o, (run name text false none).result = .ok o ∧ 0 < o.relevance ∧ n = o.toNested := by
    intro candidates hto hres
    obtain ⟨d, hd, hn⟩ := Attempt.result_bind_eq_ok hres
    cases hn
    rcases best_detect hd with hplain | ⟨name, hname, hrun, hworth⟩
    · rw [hplain]
      exact .inl rfl
    · rw [hto]
      exact .inr ⟨name, hname, autoDetection_of_mem hname, d.best, hrun, hworth, rfl⟩
  cases sub with
  | single name =>
    obtain ⟨arena, harena, rfl⟩ := Option.map_eq_some_iff.mp hask
    obtain ⟨o, ho, hn⟩ := Attempt.result_bind_eq_ok hx
    cases hn
    exact .inl ⟨name, arena, continuation, o, rfl, harena, ho, rfl⟩
  | list names =>
    cases hask
    exact .inr ⟨fun name hname => (by cases hname), hbest _ rfl hx⟩
  | any =>
    cases hask
    exact .inr ⟨fun name hname => (by cases hname), hbest _ rfl hx⟩

/-- **A nested run fails** as a run in one of the languages does that may get the text. -/
theorem fails_delegateTo (hf : (h.delegateTo run).Fails sub text f) :
    ∃ name ∈ h.handsTo sub, ∃ arena ignoreIllegals continuation, h.language? name = some arena ∧
      (run name text ignoreIllegals continuation).result = .error f := by
  obtain ⟨continuation, x, hask, hx⟩ := hf
  have hbest : ∀ candidates : Option (List String),
      h.handsTo sub = h.takingPart candidates →
      ((h.delegateTo run).best candidates text).result = .error f →
      ∃ name ∈ h.handsTo sub, ∃ arena ignoreIllegals continuation,
        h.language? name = some arena ∧
        (run name text ignoreIllegals continuation).result = .error f := by
    intro candidates hto hres
    have hd : (h.detect (fun name => run name text false none) candidates text).result =
        .error f := Attempt.result_of_bind_pure_error hres
    obtain ⟨name, hname, hrun, _⟩ := fails_detect hd
    obtain ⟨arena, harena⟩ := language?_of_autoDetection (autoDetection_of_mem hname)
    rw [hto]
    exact ⟨name, hname, arena, false, none, harena, hrun⟩
  cases sub with
  | single name =>
    obtain ⟨arena, harena, rfl⟩ := Option.map_eq_some_iff.mp hask
    exact ⟨name, List.mem_singleton_self name, arena, true, continuation, harena,
      Attempt.result_of_bind_pure_error hx⟩
  | list names =>
    cases hask
    exact hbest _ rfl hx
  | any =>
    cases hask
    exact hbest _ rfl hx

/-! ## 3. Safe mode -/

/-- A run at some depth is a run in the language, handing its text on one level deeper. -/
theorem runAt_succ {name : String} {arena : Arena} (harena : h.language? name = some arena)
    (depth : Nat) (code : String) (ignoreIllegals : Bool) (continuation : Option (List Nat)) :
    h.runAt (depth + 1) name code ignoreIllegals continuation =
      h.runArena (h.delegateTo (h.runAt depth)) arena code ignoreIllegals continuation := by
  show h.runIn (h.runAt depth) name code ignoreIllegals continuation = _
  unfold runIn
  rw [harena]

/-- **In safe mode a run in a registered language fails only where it has no end.** -/
theorem endless_of_error (hsafe : h.options.safeMode = true) {name : String} {arena : Arena}
    (harena : h.language? name = some arena) {depth : Nat} {code : String} {ignoreIllegals : Bool}
    {continuation : Option (List Nat)}
    (hf : (h.runAt depth name code ignoreIllegals continuation).result = .error f) :
    f.cause.isEndless = true := by
  cases depth with
  | zero =>
    cases hf
    rfl
  | succ depth =>
    rw [runAt_succ harena] at hf
    rcases (runArena_error hf).2 with hend | hunsafe
    · exact hend
    · rw [hsafe] at hunsafe
      cases hunsafe

end Highlight.Highlighter
