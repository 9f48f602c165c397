import Highlight.Registry

/-!
# Registered languages

* `Highlighter.AllRegistered` -- that all languages of a highlighter have a property;
* `AllRegistered.language?` -- what a name stands for has it;
* `allRegistered_register` -- registering a language that has it.
-/

namespace Highlight.Highlighter

variable {h h' : Highlighter} {name : String} {arena : Arena} {P : Arena → Prop}

/-- All languages of a highlighter have a property. -/
def AllRegistered (h : Highlighter) (P : Arena → Prop) : Prop :=
  ∀ e ∈ h.registered.entries, P e.2.arena

theorem allRegistered_new (options : Options) (P : Arena → Prop) : AllRegistered (new options) P :=
  fun e he => by cases he

/-- What a name stands for is registered. -/
theorem AllRegistered.language? (hall : AllRegistered h P) (hl : h.language? name = some arena) :
    P arena := by
  unfold Highlighter.language? at hl
  obtain ⟨canonical, _, hl⟩ := Option.bind_eq_some_iff.mp hl
  obtain ⟨r, hr, hl⟩ := Option.bind_eq_some_iff.mp hl
  cases hl
  exact hall _ (mem_of_valueOf? hr)

/-- **Registering a language keeps up what holds of all languages, if it holds of the new one.** -/
theorem allRegistered_register (hall : AllRegistered h P) {supply : Supply}
    (hnew : ∀ arena, Arena.compileLanguage (Text.lowered name) supply.next = .ok arena → P arena)
    (hr : h.register name supply = .ok h') : AllRegistered h' P := by
  simp only [register, bind, Except.bind] at hr
  split at hr
  · cases hr
  · rename_i arena harena
    cases hr
    intro e he
    rcases mem_insertEntry he with rfl | he
    · exact hnew arena harena
    · exact hall e he

end Highlight.Highlighter
