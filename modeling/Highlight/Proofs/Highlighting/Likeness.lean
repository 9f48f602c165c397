import Highlight.Proofs.Arena.Delimiters
import Highlight.Proofs.Highlighting.Delegates
import Highlight.Proofs.Scan.Likeness

/-!
# Outcomes that are the same

What holds of two runs holds of their outcomes.

* `Leeway.SameEnding`, `Leeway.SameOutcome` -- outcomes that an observer cannot tell apart;
* `agrees_runArena` -- two runs of one text, or of two of which the same counts, in the same language;
* `Arena.HandsNothingOn` -- languages that hand no text on;
* `Highlighter.exists_runArena` -- a call is a run in a language;
* `Highlighter.language?_register` -- a language that has been registered is found.
-/

namespace Highlight.Scan.Leeway

open Highlight.Token (Event)

variable {L : Leeway} {h h' : Highlighter} {d d' : Delegate} {arena arena' : Arena}
  {code code' : String} {ignores ignores' : Bool}

/-- Two runs have ended in the same way. -/
inductive SameEnding (L : Leeway) (code code' : String) : Ending → Ending → Prop
  | completed : SameEnding L code code' .completed .completed
  | illegal {f f' : Fault} : L.SameFault f f' →
      SameEnding L code code' (.illegal (.ofFault f code)) (.illegal (.ofFault f' code'))
  | failed {f f' : Fault} : L.SameFault f f' → SameEnding L code code' (.failed f) (.failed f')

/-- **Two runs have come to the same.** -/
structure SameOutcome (L : Leeway) (code code' : String) (o o' : Outcome) : Prop where
  language : o'.language = o.language
  ending : L.SameEnding code code' o.ending o'.ending
  relevance : L.scored → o'.relevance = o.relevance
  events : L.SameEvents o.events o'.events
  top : o'.top = o.top

theorem SameEnding.eq (hletter : ∀ c, L.letter c = c) {e e' : Ending}
    (h : L.SameEnding code code e e') : e' = e := by
  cases h with
  | completed => rfl
  | illegal hf => rw [hf.eq hletter]
  | failed hf => rw [hf.eq hletter]

/-- Every fault that ends a run stays one, or is recovered from, alike. -/
theorem sameResult_recover (hsafe : h'.options.safeMode = h.options.safeMode)
    (hname : arena'.name = arena.name) {s s' : Scanned} {f f' : Fault} (top : List Nat)
    (hevents : L.SameEvents s.events s'.events) (hf : L.SameFault f f') :
    L.SameResult (L.SameOutcome code code') (h.recover arena code top s f)
      (h'.recover arena' code' top s' f') := by
  have hended : L.SameEvents (s.events ++ [.finish]) (s'.events ++ [.finish]) :=
    List.rel_append hevents (.cons .finish .nil)
  unfold Highlighter.recover
  rw [hf.cause.isEndless, hf.cause.isIllegal, hsafe, hname]
  split
  · exact .error hf
  · refine .ok ⟨rfl, ?_, fun _ => rfl, hended, rfl⟩
    simp only
    split
    · exact .illegal hf
    · exact .failed hf

/-- **An observer cannot tell the outcomes of two runs apart**, where no fault excuses the second. -/
theorem agrees_runArena
    (hs : L.SameScene (h.sceneOf d arena code ignores) (h'.sceneOf d' arena' code' ignores'))
    (hsafe : h'.options.safeMode = h.options.safeMode) (hpardons : ∀ f, ¬ L.pardons f)
    (continuation : Option (List Nat)) :
    L.Agrees (L.SameOutcome code code') (h.runArena d arena code ignores continuation)
      (h'.runArena d' arena' code' ignores' continuation) := by
  have hscanned := same_scanAll hs continuation
  have hname : arena'.name = arena.name := hs.arena.name
  unfold Highlighter.runArena
  simp only [hs.stack]
  generalize scanAll (h.sceneOf d arena code ignores) continuation = x at hscanned ⊢
  generalize scanAll (h'.sceneOf d' arena' code' ignores') continuation = y at hscanned ⊢
  cases hscanned with
  | pardoned _ hpardon => exact absurd hpardon (hpardons _)
  | same hevents hrelevance hfault =>
    refine .inr ⟨rfl, ?_⟩
    cases hfault with
    | none => exact .ok ⟨congrArg some hname, .completed, hrelevance, hevents, rfl⟩
    | some hf => exact sameResult_recover hsafe hname _ hevents hf

/-- Where every character counts and nothing excuses, steps that come to the same have the same notes
    and the same faults. -/
theorem sameResult_of_agrees (hletter : ∀ c, L.letter c = c) (hpardons : ∀ f, ¬ L.pardons f)
    {α β : Type} {P Q : α → β → Prop} {x : Attempt α} {y : Attempt β} (h : L.Agrees P x y)
    (hPQ : ∀ a b, P a b → Q a b) :
    y.notes = x.notes ∧ Attempt.SameResult Q x.result y.result := by
  rcases h with ⟨f, _, hpardon⟩ | ⟨hnotes, hresult⟩
  · exact absurd hpardon (hpardons f)
  · refine ⟨hnotes, ?_⟩
    generalize x.result = a at hresult ⊢
    generalize y.result = b at hresult ⊢
    cases hresult with
    | ok hab => exact .ok (hPQ _ _ hab)
    | error hf =>
      rw [hf.eq hletter]
      exact .error _

end Highlight.Scan.Leeway

namespace Highlight.Arena

/-- No mode of a language hands its text on to another language. -/
def HandsNothingOn (arena : Arena) : Prop := ∀ id, (arena.mode id).subLanguage = none

theorem handsNothingOn_of_all {arena : Arena}
    (hall : arena.modes.all (·.subLanguage.isNone) = true) : arena.HandsNothingOn := fun id =>
  Option.isNone_iff_eq_none.mp (mode_all rfl hall id)

end Highlight.Arena

namespace Highlight.Highlighter

variable {h h' : Highlighter} {name : String} {arena : Arena}

/-- **A call is a run in the language that its name stands for.** -/
theorem exists_runArena (hl : h.language? name = some arena) (code : String) :
    ∃ delegate, ∀ ignoreIllegals continuation, h.highlight name code ignoreIllegals continuation =
      h.runArena delegate arena code ignoreIllegals continuation := by
  have hdepth : h.depthFor code = h.depthFor code - 1 + 1 := by
    have hpos : 0 < h.depthFor code := Nat.mul_pos (Nat.succ_pos _) (Nat.succ_pos _)
    omega
  refine ⟨h.delegateTo (h.runAt (h.depthFor code - 1)), fun ignoreIllegals continuation => ?_⟩
  unfold highlight
  rw [hdepth]
  exact runAt_succ hl _ _ _ _

/-- A language that has been registered is found under its name, and the options stay. -/
theorem language?_register {supply : Supply} (hr : h.register name supply = .ok h') :
    ∃ arena, Arena.compileLanguage (Text.lowered name) supply.next = .ok arena ∧
      h'.language? name = some arena ∧ h'.options = h.options := by
  simp only [register, bind, Except.bind] at hr
  split at hr
  · cases hr
  · rename_i arena harena
    cases hr
    refine ⟨arena, harena, ?_, rfl⟩
    have hget : (h.registered.insert (Text.lowered name) ⟨arena, supply.rest⟩).get?
        (Text.lowered name) = some ⟨arena, supply.rest⟩ := by
      rw [Dictionary.get?_insert, if_pos rfl]
    simp [language?, canonicalName, registerAliases, Dictionary.contains, hget]

end Highlight.Highlighter
