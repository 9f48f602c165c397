import Highlight.Proofs.Registry.Registered

/-!
# What changes make of a highlighter

* `Built` -- the highlighters that changes make, from one without languages on;
* `compiled_of_built` -- every language in one was compiled under the name that it is kept under;
* `language?_of_built`, `compiled_of_language?` -- what a name stands for.
-/

namespace Highlight.Highlighter

open Highlight.Arena (compileLanguage)

variable {h : Highlighter} {name : String} {arena : Arena}

/-- **The highlighters that changes make**, from one without languages on. -/
inductive Built : Highlighter → Prop
  | new (options : Options) : Built (new options)
  | configure {h : Highlighter} (options : Options) : Built h → Built (h.configure options)
  | setSafeMode {h : Highlighter} (on : Bool) : Built h → Built (h.setSafeMode on)
  | registerAliases {h : Highlighter} (aliases : List String) (language : String) :
      Built h → Built (h.registerAliases aliases language)
  | register {h h' : Highlighter} {name : String} {supply : Supply} :
      Built h → h.register name supply = .ok h' → Built h'
  | registerText {h h' : Highlighter} {name source : String} :
      Built h → h.registerText name source = .ok h' → Built h'
  | unregister {h : Highlighter} (name : String) : Built h → Built (h.unregister name).1
  | reload {h : Highlighter} (name : String) : Built h → Built (h.reload name).1

/-- A language was compiled under the name that it is kept under. -/
def KeptUnderName (e : String × Registration) : Prop :=
  ∃ language, compileLanguage e.1 language = .ok e.2.arena

theorem name_of_compileLanguage {language : Grammar.Language}
    (hc : compileLanguage name language = .ok arena) : arena.name = name := by
  simp only [compileLanguage, bind, Except.bind] at hc
  split at hc
  · cases hc
  · cases hc
    rfl

theorem keptUnderName_register {h' : Highlighter} {supply : Supply}
    (hall : ∀ e ∈ h.registered.entries, KeptUnderName e) (hr : h.register name supply = .ok h') :
    ∀ e ∈ h'.registered.entries, KeptUnderName e := by
  simp only [register, bind, Except.bind] at hr
  split at hr
  · cases hr
  · rename_i arena harena
    cases hr
    intro e he
    rcases mem_insertEntry he with rfl | he
    · exact ⟨_, harena⟩
    · exact hall e he

theorem keptUnderName_reload (hall : ∀ e ∈ h.registered.entries, KeptUnderName e) (name : String) :
    ∀ e ∈ (h.reload name).1.registered.entries, KeptUnderName e := by
  unfold reload
  split
  · exact hall
  · split
    · exact hall
    · rename_i r hr
      have hold : KeptUnderName (_, r) := hall _ (mem_of_valueOf? hr)
      intro e he
      rcases mem_insertEntry he with rfl | he
      · split
        · rename_i arena harena
          exact ⟨_, harena⟩
        · exact hold
      · exact hall e he

/-- **Every language of a highlighter was compiled under the name that it is kept under.** -/
theorem compiled_of_built (hb : Built h) : ∀ e ∈ h.registered.entries, KeptUnderName e := by
  induction hb with
  | new options => exact fun e he => by cases he
  | configure options _ ih => exact ih
  | setSafeMode on _ ih => exact ih
  | registerAliases aliases language _ ih => exact ih
  | register _ hr ih => exact keptUnderName_register ih hr
  | registerText _ hr ih =>
    simp only [registerText, bind, Except.bind] at hr
    split at hr
    · cases hr
    · exact keptUnderName_register ih hr
  | unregister name _ ih => exact fun e he => ih e (List.mem_filter.mp he).1
  | reload name _ ih => exact keptUnderName_reload ih name

/-- **A name stands for a language that was compiled under its own name**, or for none. -/
theorem language?_of_built (hb : Built h) (name : String) :
    (h.language? name = none ∧ h.canonicalName name = none) ∨
    ∃ arena language, h.language? name = some arena ∧
      h.canonicalName name = some arena.name ∧ compileLanguage arena.name language = .ok arena := by
  cases hn : h.canonicalName name with
  | none => exact .inl ⟨by unfold language?; rw [hn]; rfl, rfl⟩
  | some canonical =>
    have hthere : (h.registered.get? canonical).isSome = true := by
      unfold canonicalName at hn
      simp only at hn
      split at hn
      · rename_i hcontains
        cases hn
        exact hcontains
      · exact (Option.filter_eq_some_iff.mp hn).2
    obtain ⟨r, hr⟩ := Option.isSome_iff_exists.mp hthere
    obtain ⟨language, hc⟩ := compiled_of_built hb _ (mem_of_valueOf? hr)
    have hname := name_of_compileLanguage hc
    refine .inr ⟨r.arena, language, ?_, by rw [hname], by rw [hname]; exact hc⟩
    unfold language?
    rw [hn]
    simp [hr]

/-- A language that is known was compiled under its own name. -/
theorem compiled_of_language? (hb : Built h) (hl : h.language? name = some arena) :
    ∃ language, compileLanguage arena.name language = .ok arena := by
  rcases language?_of_built hb name with ⟨hnone, _⟩ | ⟨found, language, hfound, _, hc⟩
  · cases hl.symm.trans hnone
  · cases hl.symm.trans hfound
    exact ⟨language, hc⟩

theorem language?_congr {name' : String} (hname : h.canonicalName name = h.canonicalName name') :
    h.language? name = h.language? name' := by
  unfold language?
  rw [hname]

end Highlight.Highlighter
