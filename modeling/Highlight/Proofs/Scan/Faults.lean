import Highlight.Proofs.Scan.Telling

/-!
# How steps fail

* `StepFails` -- the faults that can end a run in the middle of a step;
* `meets_askHook?`, `meets_askEnd` -- what hooks answer, or how they fail;
* `stepFails_of_failsBy` -- text that cannot be told;
* `meets_endOf` -- an end closes modes that are open, and never the root.
-/

namespace Highlight.Scan

open Highlight.Arena (RuleMatch)
open Highlight.Grammar (Hook HookData MatchView SubLanguage)

variable {s : Scene}

/-- **The faults that can end a run in the middle of a step**: a hook has panicked, a nested run has
    failed, something forbidden is not to be ignored, or a mode was empty and safe mode is off. -/
inductive StepFails (s : Scene) : Fault → Prop
  | panicked {id : Nat} {hook : Hook} {view : MatchView} {data : HookData} {message : String}
      (i : Nat) : (s.arena.mode id).onBegin = some hook ∨ (s.arena.mode id).onEnd = some hook →
      (hook.call view data).verdict = .panic message →
      StepFails s (s.fault (.hookPanicked message) i)
  | delegated {id : Nat} {sub : SubLanguage} {text : String} {f : Fault} :
      (s.arena.mode id).subLanguage = some sub → s.delegate.Fails sub text f → StepFails s f
  | illegal (lexeme mode : String) (i : Nat) : s.ignoreIllegals = false →
      StepFails s (s.fault (.illegalLexeme lexeme mode) i)
  | zeroWidth (i : Nat) : s.options.safeMode = false →
      StepFails s (s.fault (.zeroWidthMatch s.arena.name) i)

theorem stepFails_of_failsBy {id : Nat} {text : String} {f : Fault}
    (h : FailsBy s.delegate (s.arena.mode id).subLanguage text f) : StepFails s f := by
  obtain ⟨sub, hsub, _, hf⟩ := h
  exact .delegated hsub hf

/-! ## 1. Hooks -/

theorem meets_askHook? {hook : Option Hook} (id : Nat) (m : RuleMatch) (data : HookData)
    (hh : ∀ {h : Hook}, hook = some h →
      (s.arena.mode id).onBegin = some h ∨ (s.arena.mode id).onEnd = some h) :
    (askHook? s hook m data).Meets (fun _ => True) (StepFails s) := by
  refine ⟨fun _ _ => trivial, fun f hf => ?_⟩
  unfold askHook? at hf
  split at hf
  · rename_i h
    unfold askHook at hf
    simp only at hf
    split at hf
    · cases hf
    · cases hf
    · rename_i message hverdict
      cases hf
      exact .panicked _ (hh rfl) hverdict
  · cases hf

theorem meets_askEnd (id : Nat) (m : RuleMatch) (data : HookData) :
    (askEnd s (s.arena.mode id) m data).Meets (fun _ => True) (StepFails s) := by
  unfold askEnd
  split
  · exact meets_askHook? id m data .inr
  · exact Attempt.meets_pure trivial

/-! ## 2. Ends -/

theorem closingWith_le (arena : Arena) : ∀ frames : List Frame,
    closingWith arena frames ≤ frames.length
  | [] => Nat.le_refl 0
  | f :: rest => by
      unfold closingWith
      have ih := closingWith_le arena rest
      split
      · exact Nat.succ_le_succ ih
      · exact Nat.succ_le_succ (Nat.zero_le _)

/-- **An end closes modes that are open, and never the root.** The modes that it passes by stay what
    they are. -/
theorem meets_endOf (s : Scene) (m : RuleMatch) (frames : List Frame) :
    (endOf s m frames).Meets
      (fun answer => answer.2.map (·.mode) = frames.map (·.mode) ∧
        ∀ n, answer.1 = some n → n ≤ frames.length) (StepFails s) := by
  induction frames with
  | nil => exact Attempt.meets_pure ⟨rfl, fun n hn => by cases hn⟩
  | cons f rest ih =>
    unfold endOf
    refine Attempt.meets_bind (meets_askEnd f.mode m f.data) fun reply _ => ?_
    obtain ⟨counts, data⟩ := reply
    simp only
    split
    · refine Attempt.meets_pure ⟨rfl, fun n hn => ?_⟩
      cases hn
      exact closingWith_le s.arena ({ f with data } :: rest)
    · split
      · refine Attempt.meets_bind ih fun answer hanswer => ?_
        obtain ⟨count, rest'⟩ := answer
        refine Attempt.meets_pure ⟨?_, fun n hn => ?_⟩
        · rw [List.map_cons, List.map_cons, hanswer.1]
        · obtain ⟨k, hk, rfl⟩ := Option.map_eq_some_iff.mp hn
          exact Nat.succ_le_succ (hanswer.2 k hk)
      · exact Attempt.meets_pure ⟨rfl, fun n hn => by cases hn⟩

end Highlight.Scan
