import Highlight.Proofs.Arena.WellFormed
import Highlight.Proofs.Dictionaries
import Highlight.Proofs.Highlighting.Answers
import Highlight.Proofs.Registry.Changes

/-!
# Languages that are refused

A language that is not compiled is not registered, and one that is to be built again stays as it was.
Only what it is built from is used up in the latter case, so the highlighter itself is another one,
but nothing that is asked of it shows this before the language is built once more.

* `Fault.LiesIn` -- a fault of a grammar, at its place;
* `SameBut` -- that two highlighters differ at most in what a language is built from next;
* `sameBut_after`, `sameBut_afterAll` -- changes keep them so, unless they build the language again;
* `sameAnswers_of_sameBut` -- they answer alike;
* `refused_languages_change_nothing` -- the result.
-/

namespace Highlight

open Highlight.Arena (compileLanguage)
open Highlight.Grammar (Language)

/-- **That a fault lies in the grammar of a language**: it is one of configuration, and its place is
    the beginning of what is under the name. -/
def Fault.LiesIn (f : Fault) (name : String) : Prop :=
  f.cause.isConfiguration = true ∧ f.position = ⟨0, name⟩

namespace Highlighter

variable {h h' : Highlighter} {n : String} {r : Registration} {f : Fault} {c : Change}

/-! ## 1. What a language is built from next -/

/-- **That two highlighters differ at most in what a language is built from next.** -/
structure SameBut (n : String) (h h' : Highlighter) : Prop where
  options : h'.options = h.options
  aliases : h'.aliases = h.aliases
  arena : ∀ k, (h'.registered.get? k).map (·.arena) = (h.registered.get? k).map (·.arena)
  others : ∀ k, k ≠ n → h'.registered.get? k = h.registered.get? k

theorem SameBut.isSome (hs : SameBut n h h') (k : String) :
    (h'.registered.get? k).isSome = (h.registered.get? k).isSome := by
  rw [← Option.isSome_map, hs.arena k, Option.isSome_map]

theorem SameBut.canonicalName (hs : SameBut n h h') : h'.canonicalName = h.canonicalName :=
  canonicalName_congr (funext hs.isSome) hs.aliases

theorem SameBut.language? (hs : SameBut n h h') : h'.language? = h.language? := by
  funext name
  rw [language?_eq_map, language?_eq_map, hs.canonicalName]
  cases h.canonicalName name with
  | none => rfl
  | some k => exact hs.arena k

/-- Such highlighters answer alike. -/
theorem sameAnswers_of_sameBut (hs : SameBut n h h') : SameAnswers h h' :=
  sameAnswers_of_languages hs.options (Dictionary.keys_congr hs.isSome) hs.canonicalName hs.language?

/-! ## 2. Changes in between -/

/-- The same registration written to both of them. -/
theorem SameBut.arena_insert (hs : SameBut n h h') (m : String) (r : Registration) (k : String) :
    ((h'.registered.insert m r).get? k).map (·.arena) =
      ((h.registered.insert m r).get? k).map (·.arena) := by
  rw [Dictionary.get?_insert, Dictionary.get?_insert]
  split
  · rfl
  · exact hs.arena k

theorem SameBut.others_insert (hs : SameBut n h h') (m : String) (r : Registration) {k : String}
    (hk : k ≠ n) : (h'.registered.insert m r).get? k = (h.registered.insert m r).get? k := by
  rw [Dictionary.get?_insert, Dictionary.get?_insert, hs.others k hk]

/-- **A change keeps highlighters so**, unless it builds the language again. -/
theorem sameBut_after (hs : SameBut n h h') (c : Change)
    (hc : ∀ x, c = .reload x → h.canonicalName x ≠ some n) :
    SameBut n (h.after c) (h'.after c) := by
  cases hregisters : c.registers? with
  | some arena =>
    obtain ⟨rest, hafter⟩ := after_of_registers hregisters
    rw [hafter, hafter]
    exact ⟨hs.options, by simp only [withArena, registerAliases, hs.aliases],
      hs.arena_insert _ _, fun _ => hs.others_insert _ _⟩
  | none =>
    cases c with
    | register name supply =>
      rwa [after_of_registers_none rfl hregisters, after_of_registers_none rfl hregisters]
    | registerText name source =>
      rwa [after_registerText_none hregisters, after_registerText_none hregisters]
    | unregister name =>
      refine ⟨hs.options, by simp only [after, unregister, hs.aliases], fun k => ?_, fun k hk => ?_⟩
      · simp only [after, unregister, Dictionary.get?_erase]
        split
        · rfl
        · exact hs.arena k
      · simp only [after, unregister, Dictionary.get?_erase, hs.others k hk]
    | registerAliases aliases language =>
      exact ⟨hs.options, by simp only [after, registerAliases, hs.aliases], hs.arena, hs.others⟩
    | reload x =>
      simp only [after, reload, hs.canonicalName]
      cases hm : h.canonicalName x with
      | none => exact hs
      | some m =>
        have hne : m ≠ n := fun heq => hc x rfl (heq ▸ hm)
        simp only [hs.others m hne]
        cases h.registered.get? m with
        | none => exact hs
        | some r => exact ⟨hs.options, hs.aliases, hs.arena_insert _ _, fun _ => hs.others_insert _ _⟩

/-- **That none of several changes builds a language again.** -/
def LeavesBuilt (n : String) : Highlighter → List Change → Prop
  | _, [] => True
  | h, c :: changes =>
    (∀ x, c = .reload x → h.canonicalName x ≠ some n) ∧ LeavesBuilt n (h.after c) changes

theorem sameBut_afterAll {changes : List Change} (hs : SameBut n h h')
    (hc : LeavesBuilt n h changes) : SameBut n (h.afterAll changes) (h'.afterAll changes) := by
  induction changes generalizing h h' with
  | nil => exact hs
  | cons c changes ih => exact ih (sameBut_after hs c hc.1) hc.2

/-! ## 3. Languages that are refused -/

/-- A language that is not compiled lies open in its fault. -/
theorem liesIn_of_compileLanguage {language : Language}
    (hf : compileLanguage n language = .error f) : f.LiesIn n :=
  Arena.fault_of_compileLanguage hf

/-- A language that is built again and is not compiled stays as it was. -/
theorem reload_of_refused {x : String} (hx : h.canonicalName x = some n)
    (hr : h.registered.get? n = some r) (hf : compileLanguage n r.supply.next = .error f) :
    h.reload x =
      ({ h with registered := h.registered.insert n ⟨r.arena, r.supply.rest⟩ }, .error f) := by
  simp only [reload, hx, hr, hf]

theorem sameBut_of_refused {x : String} (hx : h.canonicalName x = some n)
    (hr : h.registered.get? n = some r) (hf : compileLanguage n r.supply.next = .error f) :
    SameBut n h (h.after (.reload x)) := by
  rw [after, reload_of_refused hx hr hf]
  refine ⟨rfl, rfl, fun k => ?_, fun k hk => ?_⟩
  · rw [Dictionary.get?_insert]
    split
    · rename_i hk
      rw [hk, hr]
      rfl
    · rfl
  · rw [Dictionary.get?_insert, if_neg hk]

/-- **A language that is refused changes nothing.** If a grammar is not compiled, or a text writes
    none, registering it fails and the highlighter stays the same, whatever was registered under the
    name before. If a language that is to be built again is not compiled, everything that is asked of
    the highlighter is answered as before, also after further changes, until the language is built
    again; and if it is always built from the same grammar, the highlighter is the same. Whatever is
    not compiled, the fault lies in the grammar of the language, by its name in lower case. -/
theorem refused_languages_change_nothing (hb : Built h) :
    (∀ name supply f, compileLanguage (Text.lowered name) supply.next = .error f →
      h.register name supply = .error f ∧ h.after (.register name supply) = h ∧
        f.LiesIn (Text.lowered name)) ∧
    (∀ name source, Language.parse source = none →
      h.registerText name source = .error badGrammar ∧ h.after (.registerText name source) = h) ∧
    (∀ name source language f, Language.parse source = some language →
      compileLanguage (Text.lowered name) language = .error f →
      h.registerText name source = .error f ∧ h.after (.registerText name source) = h ∧
        f.LiesIn (Text.lowered name)) ∧
    (∀ x n r f, h.canonicalName x = some n → h.registered.get? n = some r →
      compileLanguage n r.supply.next = .error f →
      (h.reload x).2 = .error f ∧ f.LiesIn n ∧ Text.lowered n = n ∧
        (∀ later, LeavesBuilt n h later →
          SameAnswers (h.afterAll later) ((h.after (.reload x)).afterAll later)) ∧
        (r.supply.later = [] → h.after (.reload x) = h)) := by
  refine ⟨fun name supply f hf => ?_, fun name source hparse => ?_,
    fun name source language f hparse hf => ?_, fun x n r f hx hr hf => ?_⟩
  · have hfails := register_of_failed h hf
    refine ⟨hfails, ?_, liesIn_of_compileLanguage hf⟩
    rw [after, hfails]
    rfl
  · have hfails : h.registerText name source = .error badGrammar := by
      simp only [registerText, parseLanguage, hparse, bind, Except.bind]
    refine ⟨hfails, ?_⟩
    rw [after, hfails]
    rfl
  · have hfails : h.registerText name source = .error f := by
      simp only [registerText, parseLanguage, hparse, bind, Except.bind]
      exact register_of_failed h hf
    refine ⟨hfails, ?_, liesIn_of_compileLanguage hf⟩
    rw [after, hfails]
    rfl
  · have hreload := reload_of_refused hx hr hf
    refine ⟨by rw [hreload], liesIn_of_compileLanguage hf,
      lowered_of_built hb n (mem_of_canonicalName hx).1, fun later hlater => ?_, fun hsame => ?_⟩
    · exact sameAnswers_of_sameBut (sameBut_afterAll (sameBut_of_refused hx hr hf) hlater)
    · have hrest : r.supply.rest = r.supply := by
        unfold Supply.rest
        rw [hsame]
      rw [after, hreload, hrest, Dictionary.insert_of_get? hr]

/-- A grammar with a pattern that cannot be read. -/
def openedOnly : Language := { mode := { illegal := some (.single "(") } }

/-- A language with a further name, which is not compiled when it is built again. -/
def builtOnce : Highlighter := (new {}).after (.register "Ada" ⟨{ aliases := ["Adb"] }, [openedOnly]⟩)

/-- A text that writes such a grammar. -/
def openedText : String := "\x7b\"illegal\":\"(\"\x7d"

/-- A language stays when it is registered again, or built again, from a grammar that is refused. -/
theorem kept_when_refused : Built builtOnce ∧ builtOnce.canonicalName "aDB" = some "ada" ∧
    ∃ f f' f'',
      builtOnce.register "ADA" (.constant openedOnly) = .error f ∧
      builtOnce.after (.register "ADA" (.constant openedOnly)) = builtOnce ∧
      builtOnce.registerText "ADA" "\x7b" = .error badGrammar ∧
      builtOnce.registerText "Adb" openedText = .error f' ∧ f'.LiesIn (Text.lowered "Adb") ∧
      (builtOnce.reload "aDB").2 = .error f'' ∧ f''.LiesIn "ada" ∧
      SameAnswers (builtOnce.afterAll [.unregister "adb"])
        ((builtOnce.after (.reload "aDB")).afterAll [.unregister "adb"]) := by
  have hb : Built builtOnce := built_after (.new {}) _
  have hname : builtOnce.canonicalName "aDB" = some "ada" := by decide +kernel
  have hbad : (compileLanguage (Text.lowered "ADA") openedOnly).isOk = false := by decide +kernel
  have hwritten : ((Language.parse openedText).any fun l =>
      !(compileLanguage (Text.lowered "Adb") l).isOk) = true := by decide +kernel
  have hnext : ((builtOnce.registered.get? "ada").any fun r =>
      !(compileLanguage "ada" r.supply.next).isOk) = true := by decide +kernel
  obtain ⟨f, hf⟩ := exists_of_not_isOk hbad
  obtain ⟨language, hparse, hwritten⟩ := (Option.any_eq_true _ _).mp hwritten
  obtain ⟨f', hf'⟩ := exists_of_not_isOk (by simpa using hwritten)
  obtain ⟨r, hr, hnext⟩ := (Option.any_eq_true _ _).mp hnext
  obtain ⟨f'', hf''⟩ := exists_of_not_isOk (by simpa using hnext)
  obtain ⟨hregister, hunread, htext, hreload⟩ := refused_languages_change_nothing hb
  obtain ⟨hfails, hsame, -⟩ := hregister "ADA" (.constant openedOnly) f hf
  obtain ⟨hfails', -, hlies'⟩ := htext "Adb" openedText language f' hparse hf'
  obtain ⟨hanswer, hlies, -, hlater, -⟩ := hreload "aDB" "ada" r f'' hname hr hf''
  exact ⟨hb, hname, f, f', f'', hfails, hsame, (hunread "ADA" "\x7b" (by decide +kernel)).1,
    hfails', hlies', hanswer, hlies, hlater [.unregister "adb"] ⟨fun _ hx => (by cases hx), trivial⟩⟩

end Highlighter

end Highlight
