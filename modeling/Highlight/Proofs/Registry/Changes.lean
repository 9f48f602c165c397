import Highlight.Proofs.Registry.Built
import Highlight.Proofs.Text.Lowered

/-!
# Changes of a highlighter, one after the other

A highlighter has two tables: its languages by name, and further names. Changes write to both of
them, in any order, so that a further name may point to no language, or be spelled as one. What is
asked of the highlighter makes sense all the same.

* `Change`, `after`, `afterAll` -- the changes; one that fails is a change as well;
* `Effect`, `effect_after` -- what a change does to the two tables;
* `NamesFit` -- that names and languages fit together;
* `mem_languages_afterAll`, `mem_aliases_afterAll` -- where languages and further names come from;
* `names_fit_after_changes` -- the result, after all changes.
-/

namespace Highlight.Highlighter

open Highlight.Arena (compileLanguage)

/-! ## 1. Changes -/

/-- A change of a highlighter. -/
inductive Change
  | register (name : String) (supply : Supply)
  | registerText (name source : String)
  | unregister (name : String)
  | registerAliases (aliases : List String) (language : String)
  | reload (name : String)

namespace Change

/-- The name and the grammars of the language that a change brings. -/
def brings? : Change → Option (String × Supply)
  | register name supply => some (name, supply)
  | registerText name source => (parseLanguage source).toOption.map fun l => (name, .constant l)
  | _ => none

/-- The language that a change registers. There is none if its grammar is not compiled. -/
def registers? (c : Change) : Option Arena := do
  let (name, supply) ← c.brings?
  (compileLanguage (Text.lowered name) supply.next).toOption

/-- The further names that a change records, each with the name that it stands for. -/
def records : Change → List (String × String)
  | registerAliases aliases language =>
      aliases.map fun a => (Text.lowered a, Text.lowered language)
  | c => c.registers?.toList.flatMap fun arena =>
      arena.aliases.map fun a => (Text.lowered a, arena.name)

end Change

variable {h h' : Highlighter} {name n x : String} {arena : Arena} {supply : Supply} {c : Change}
  {changes later : List Change}

/-- The highlighter after a change. One that fails leaves its languages and names. -/
def after (h : Highlighter) : Change → Highlighter
  | .register name supply => (h.register name supply).toOption.getD h
  | .registerText name source => (h.registerText name source).toOption.getD h
  | .unregister name => (h.unregister name).1
  | .registerAliases aliases language => h.registerAliases aliases language
  | .reload name => (h.reload name).1

/-- The highlighter after several changes. -/
def afterAll (h : Highlighter) (changes : List Change) : Highlighter := changes.foldl after h

@[simp] theorem afterAll_nil (h : Highlighter) : h.afterAll [] = h := rfl

@[simp] theorem afterAll_cons (h : Highlighter) (c : Change) (changes : List Change) :
    h.afterAll (c :: changes) = (h.after c).afterAll changes := rfl

/-- The highlighter with a compiled language and the further names that it declares. -/
def withArena (h : Highlighter) (arena : Arena) (rest : Supply) : Highlighter :=
  { h with registered := h.registered.insert arena.name ⟨arena, rest⟩ }.registerAliases
    arena.aliases arena.name

theorem register_of_compiled (h : Highlighter)
    (hc : compileLanguage (Text.lowered name) supply.next = .ok arena) :
    h.register name supply = .ok (h.withArena arena supply.rest) := by
  simp only [register, bind, Except.bind, hc, withArena, name_of_compileLanguage hc]
  rfl

theorem register_of_failed (h : Highlighter) {f : Fault}
    (hc : compileLanguage (Text.lowered name) supply.next = .error f) :
    h.register name supply = .error f := by
  simp only [register, bind, Except.bind, hc]

/-! ## 2. What a change does -/

/-- **What a change does to a highlighter.** -/
inductive Effect (h : Highlighter) : Change → Highlighter → Prop
  | nothing (c : Change) : Effect h c h
  | adds {c : Change} {arena : Arena} (rest : Supply) : c.registers? = some arena →
      Effect h c (h.withArena arena rest)
  | removes (name : String) : Effect h (.unregister name) (h.unregister name).1
  | records (aliases : List String) (language : String) :
      Effect h (.registerAliases aliases language) (h.registerAliases aliases language)
  | rebuilds {canonical : String} {r : Registration} (name : String) (r' : Registration) :
      h.registered.get? canonical = some r →
      Effect h (.reload name) { h with registered := h.registered.insert canonical r' }

/-- A change that brings a language adds it, if it is compiled, and else does nothing. -/
theorem after_of_brings (hc : c.brings? = some (name, supply)) :
    h.after c = (h.register name supply).toOption.getD h := by
  cases c with
  | register name' supply' =>
    cases hc
    rfl
  | registerText name' source =>
    obtain ⟨l, hl, heq⟩ := Option.map_eq_some_iff.mp hc
    cases heq
    simp only [after, registerText, bind, Except.bind]
    cases hparse : parseLanguage source with
    | ok l' =>
      rw [hparse] at hl
      cases hl
      rfl
    | error f =>
      rw [hparse] at hl
      cases hl
  | unregister | registerAliases | reload => cases hc

/-- What a change registers has been compiled. -/
theorem compiled_of_registers (hc : c.registers? = some arena) :
    ∃ name supply, c.brings? = some (name, supply) ∧
      compileLanguage (Text.lowered name) supply.next = .ok arena := by
  obtain ⟨⟨name, supply⟩, hbrings, harena⟩ := Option.bind_eq_some_iff.mp hc
  cases hcompiled : compileLanguage (Text.lowered name) supply.next with
  | ok arena' =>
    simp only [hcompiled, Except.toOption, Option.some.injEq] at harena
    exact ⟨name, supply, hbrings, harena ▸ hcompiled⟩
  | error f => simp only [hcompiled, Except.toOption, reduceCtorEq] at harena

/-- A change that registers a language adds it to any highlighter. -/
theorem after_of_registers (hc : c.registers? = some arena) :
    ∃ rest, ∀ h : Highlighter, h.after c = h.withArena arena rest := by
  obtain ⟨name, supply, hbrings, hcompiled⟩ := compiled_of_registers hc
  refine ⟨supply.rest, fun h => ?_⟩
  rw [after_of_brings hbrings, register_of_compiled h hcompiled]
  rfl

/-- A change that brings a language and registers none does nothing. -/
theorem after_of_registers_none (hbrings : c.brings? = some (name, supply))
    (hc : c.registers? = none) : h.after c = h := by
  rw [after_of_brings hbrings]
  cases hcompiled : compileLanguage (Text.lowered name) supply.next with
  | ok arena => simp [Change.registers?, hbrings, hcompiled, Except.toOption] at hc
  | error f =>
    rw [register_of_failed h hcompiled]
    rfl

/-- A text that registers no language, since it writes none or one that is not compiled, does
    nothing. -/
theorem after_registerText_none {source : String}
    (hc : (Change.registerText name source).registers? = none) :
    h.after (.registerText name source) = h := by
  cases hparse : parseLanguage source with
  | ok l =>
    have hbrings : (Change.registerText name source).brings? = some (name, .constant l) := by
      simp [Change.brings?, hparse, Except.toOption]
    exact after_of_registers_none hbrings hc
  | error f =>
    simp only [after, registerText, bind, Except.bind, hparse]
    rfl

/-- **Every change has its effect.** -/
theorem effect_after (h : Highlighter) (c : Change) : Effect h c (h.after c) := by
  cases hregisters : c.registers? with
  | some arena =>
    obtain ⟨rest, hafter⟩ := after_of_registers hregisters
    rw [hafter]
    exact .adds rest hregisters
  | none =>
    cases c with
    | register name supply =>
      have hbrings : (Change.register name supply).brings? = some (name, supply) := rfl
      rw [after_of_registers_none hbrings hregisters]
      exact .nothing _
    | registerText name source =>
      rw [after_registerText_none hregisters]
      exact .nothing _
    | unregister name => exact .removes name
    | registerAliases aliases language => exact .records aliases language
    | reload name =>
      simp only [after, reload]
      split
      · exact .nothing _
      · split
        · exact .nothing _
        · rename_i r hr
          exact .rebuilds name _ hr

/-- The highlighters that changes make are built. -/
theorem built_after (hb : Built h) (c : Change) : Built (h.after c) := by
  cases c with
  | register name supply =>
    cases hr : h.register name supply with
    | ok h' => simpa [after, hr, Except.toOption] using Built.register hb hr
    | error f => simpa [after, hr, Except.toOption] using hb
  | registerText name source =>
    cases hr : h.registerText name source with
    | ok h' => simpa [after, hr, Except.toOption] using Built.registerText hb hr
    | error f => simpa [after, hr, Except.toOption] using hb
  | unregister name => exact .unregister name hb
  | registerAliases aliases language => exact .registerAliases aliases language hb
  | reload name => exact .reload name hb

theorem built_afterAll (hb : Built h) (changes : List Change) : Built (h.afterAll changes) := by
  induction changes generalizing h with
  | nil => exact hb
  | cons c changes ih => exact ih (built_after hb c)

/-! ## 3. Where languages and further names come from -/

theorem mem_languages : n ∈ h.languages ↔ ∃ r, (n, r) ∈ h.registered.entries := by
  simp [languages, Dictionary.keys]

/-- Further names are recorded in lower case, and so is what they stand for. -/
theorem mem_registerAliases {aliases : List String} {language : String} {e : String × String}
    (he : e ∈ (h.registerAliases aliases language).aliases.entries) :
    e ∈ h.aliases.entries ∨ e ∈ (Change.registerAliases aliases language).records := by
  unfold registerAliases at he
  generalize h.aliases = d at he ⊢
  induction aliases generalizing d with
  | nil => exact .inl he
  | cons a aliases ih =>
    rcases ih _ he with he | he
    · rcases mem_insertEntry he with rfl | he
      · exact .inr List.mem_cons_self
      · exact .inl he
    · exact .inr (List.mem_cons_of_mem _ he)

namespace Change

/-- A change registers a language under a name. -/
def Registers (c : Change) (n : String) : Prop :=
  ∃ arena, c.registers? = some arena ∧ arena.name = n

theorem lowered_of_registers (hc : c.registers? = some arena) :
    Text.lowered arena.name = arena.name := by
  obtain ⟨name, supply, -, hcompiled⟩ := compiled_of_registers hc
  rw [name_of_compileLanguage hcompiled, Text.lowered_lowered]

theorem records_of_registers (hc : c.registers? = some arena) :
    c.records = arena.aliases.map fun a => (Text.lowered a, arena.name) := by
  cases c with
  | register | registerText => simp only [records, hc, Option.toList_some, List.flatMap_singleton]
  | unregister | registerAliases | reload => cases hc

end Change

/-- **A language that is there after a change was there before, or the change registers it.** -/
theorem Effect.mem_languages (he : Effect h c h') (hn : n ∈ h'.languages) :
    n ∈ h.languages ∨ c.Registers n := by
  obtain ⟨r, hr⟩ := Highlighter.mem_languages.mp hn
  cases he with
  | nothing => exact .inl hn
  | adds rest hc =>
    rcases mem_insertEntry hr with heq | hr
    · cases heq
      exact .inr ⟨_, hc, rfl⟩
    · exact .inl (Highlighter.mem_languages.mpr ⟨r, hr⟩)
  | removes name => exact .inl (Highlighter.mem_languages.mpr ⟨r, (List.mem_filter.mp hr).1⟩)
  | records aliases language => exact .inl hn
  | rebuilds name r' hget =>
    rcases mem_insertEntry hr with heq | hr
    · cases heq
      exact .inl (Highlighter.mem_languages.mpr ⟨_, mem_of_valueOf? hget⟩)
    · exact .inl (Highlighter.mem_languages.mpr ⟨r, hr⟩)

/-- **A further name that is there after a change was there before, or the change records it.** -/
theorem Effect.mem_aliases {e : String × String} (he : Effect h c h')
    (hmem : e ∈ h'.aliases.entries) : e ∈ h.aliases.entries ∨ e ∈ c.records := by
  cases he with
  | nothing => exact .inl hmem
  | adds rest hc =>
    rw [Change.records_of_registers hc, ← Change.lowered_of_registers hc]
    exact mem_registerAliases hmem
  | removes name => exact .inl (List.mem_filter.mp hmem).1
  | records aliases language => exact mem_registerAliases hmem
  | rebuilds name r' hget => exact .inl hmem

/-- **A language that is there after several changes was there before, or one of them registers
    it.** -/
theorem mem_languages_afterAll (hn : n ∈ (h.afterAll changes).languages) :
    n ∈ h.languages ∨ ∃ c ∈ changes, c.Registers n := by
  induction changes generalizing h with
  | nil => exact .inl hn
  | cons c changes ih =>
    rcases ih hn with hn | ⟨c', hc', hregisters⟩
    · rcases (effect_after h c).mem_languages hn with hn | hregisters
      · exact .inl hn
      · exact .inr ⟨c, List.mem_cons_self, hregisters⟩
    · exact .inr ⟨c', List.mem_cons_of_mem c hc', hregisters⟩

/-- **A further name that is there after several changes was there before, or one of them records
    it.** -/
theorem mem_aliases_afterAll {e : String × String} (he : e ∈ (h.afterAll changes).aliases.entries) :
    e ∈ h.aliases.entries ∨ ∃ c ∈ changes, e ∈ c.records := by
  induction changes generalizing h with
  | nil => exact .inl he
  | cons c changes ih =>
    rcases ih he with he | ⟨c', hc', hrecords⟩
    · rcases (effect_after h c).mem_aliases he with he | hrecords
      · exact .inl he
      · exact .inr ⟨c, List.mem_cons_self, hrecords⟩
    · exact .inr ⟨c', List.mem_cons_of_mem c hc', hrecords⟩

/-- **The languages that changes make are kept under names in lower case.** -/
theorem lowered_of_built (hb : Built h) : ∀ n ∈ h.languages, Text.lowered n = n := by
  have hstep {h : Highlighter} (ih : ∀ n ∈ h.languages, Text.lowered n = n) (c : Change) :
      ∀ n ∈ (h.after c).languages, Text.lowered n = n := by
    intro n hn
    rcases (effect_after h c).mem_languages hn with hn | ⟨arena, hc, rfl⟩
    · exact ih n hn
    · exact Change.lowered_of_registers hc
  induction hb with
  | new options => exact fun n hn => by cases hn
  | configure options _ ih => exact ih
  | setSafeMode on _ ih => exact ih
  | registerAliases aliases language _ ih => exact ih
  | @register h h' name supply _ hr ih =>
    have hafter : h.after (.register name supply) = h' := by simp [after, hr, Except.toOption]
    exact hafter ▸ hstep ih _
  | @registerText h h' name source _ hr ih =>
    have hafter : h.after (.registerText name source) = h' := by simp [after, hr, Except.toOption]
    exact hafter ▸ hstep ih _
  | unregister name _ ih => exact hstep ih (.unregister name)
  | reload name _ ih => exact hstep ih (.reload name)

/-! ## 4. What names stand for -/

/-- What is kept under a name in lower case, the name stands for. -/
theorem canonicalName_of_mem (hn : n ∈ h.languages) (hlower : Text.lowered n = n) :
    h.canonicalName n = some n := by
  obtain ⟨r, hr⟩ := mem_languages.mp hn
  have hthere : h.registered.contains n = true := isSome_valueOf? hr
  simp only [canonicalName, hlower, hthere, if_true]

/-- **A name stands for a language that is there**: it is its name, or recorded for it. -/
theorem mem_of_canonicalName (hx : h.canonicalName x = some n) :
    n ∈ h.languages ∧ (Text.lowered x = n ∨ (Text.lowered x, n) ∈ h.aliases.entries) := by
  have hthere {m : String} (hm : h.registered.contains m = true) : m ∈ h.languages := by
    obtain ⟨r, hr⟩ := Option.isSome_iff_exists.mp hm
    exact mem_languages.mpr ⟨r, mem_of_valueOf? hr⟩
  unfold canonicalName at hx
  simp only at hx
  split at hx
  · rename_i hcontains
    cases hx
    exact ⟨hthere hcontains, .inl rfl⟩
  · obtain ⟨halias, hcontains⟩ := Option.filter_eq_some_iff.mp hx
    exact ⟨hthere hcontains, .inr (mem_of_valueOf? halias)⟩

/-- A language that has just been registered is what its name stands for. -/
theorem language?_of_registers (h : Highlighter) (hc : c.registers? = some arena) :
    (h.after c).language? arena.name = some arena := by
  obtain ⟨rest, hafter⟩ := after_of_registers hc
  have hget : (h.registered.insert arena.name ⟨arena, rest⟩).get? arena.name =
      some ⟨arena, rest⟩ := by
    rw [Dictionary.get?_insert, if_pos rfl]
  rw [hafter]
  simp [language?, canonicalName, withArena, registerAliases, Dictionary.contains,
    Change.lowered_of_registers hc, hget]

/-- **That names and languages fit together**: the names of languages ascend and are in lower case,
    letter case makes no difference, and every name that stands for a language comes to that
    language, compiled under its own name. -/
structure NamesFit (h : Highlighter) : Prop where
  ascending : h.languages.Pairwise (· < ·)
  lowered : ∀ n ∈ h.languages, Text.lowered n = n
  alike : ∀ x y, Text.lowered x = Text.lowered y →
    h.canonicalName x = h.canonicalName y ∧ h.language? x = h.language? y
  resolved : ∀ x n, h.canonicalName x = some n →
    n ∈ h.languages ∧ h.canonicalName n = some n ∧
      ∃ arena language, h.language? x = some arena ∧ arena.name = n ∧
        compileLanguage n language = .ok arena
  listed : ∀ n ∈ h.languages, h.canonicalName n = some n

theorem ascending_languages (h : Highlighter) : h.languages.Pairwise (· < ·) := by
  rw [languages, Dictionary.keys, List.pairwise_map]
  exact h.registered.ascending.imp fun hlt => compareOfLessAndEq_eq_lt.mp hlt

theorem alike_of_lowered (h : Highlighter) {y : String} (heq : Text.lowered x = Text.lowered y) :
    h.canonicalName x = h.canonicalName y ∧ h.language? x = h.language? y := by
  have hname : h.canonicalName x = h.canonicalName y := by
    unfold canonicalName
    rw [heq]
  refine ⟨hname, ?_⟩
  unfold language?
  rw [hname]

theorem namesFit_of_lowered (hb : Built h) (hlower : ∀ n ∈ h.languages, Text.lowered n = n) :
    h.NamesFit where
  ascending := ascending_languages h
  lowered := hlower
  alike x y := alike_of_lowered h
  resolved x n hx := by
    have hn := (mem_of_canonicalName hx).1
    refine ⟨hn, canonicalName_of_mem hn (hlower n hn), ?_⟩
    rcases language?_of_built hb x with ⟨-, hnone⟩ | ⟨arena, language, hl, hname, hc⟩
    · cases hx.symm.trans hnone
    · cases hx.symm.trans hname
      exact ⟨arena, language, hl, rfl, hc⟩
  listed n hn := canonicalName_of_mem hn (hlower n hn)

/-! ## 5. Languages that have been removed -/

/-- A language that has been removed is not there, and no further name is recorded for it. -/
theorem gone_after_unregister (h : Highlighter) (n : String) :
    Text.lowered n ∉ (h.after (.unregister n)).languages ∧
      ∀ a, (a, Text.lowered n) ∉ (h.after (.unregister n)).aliases.entries := by
  refine ⟨fun hn => ?_, fun a ha => ?_⟩
  · obtain ⟨r, hr⟩ := mem_languages.mp hn
    simpa using (List.mem_filter.mp hr).2
  · simpa using (List.mem_filter.mp ha).2

/-- A name that stands for a language after it was removed: the language has been registered again,
    and a further name for it recorded since. -/
theorem since_unregister
    (hx : ((h.after (.unregister n)).afterAll later).canonicalName x = some (Text.lowered n)) :
    (∃ c ∈ later, c.Registers (Text.lowered n)) ∧
      (Text.lowered x = Text.lowered n ∨
        ∃ c ∈ later, (Text.lowered x, Text.lowered n) ∈ c.records) := by
  obtain ⟨hgone, hunnamed⟩ := gone_after_unregister h n
  obtain ⟨hthere, hname⟩ := mem_of_canonicalName hx
  refine ⟨(mem_languages_afterAll hthere).resolve_left hgone, hname.imp_right fun halias => ?_⟩
  exact (mem_aliases_afterAll halias).resolve_left (hunnamed _)

/-- **Names and languages fit together after any changes**, failing ones among them. What a change
    registers, its name stands for. After a language is removed no name stands for it, until it is
    registered again; then its own name does, and the further names that have been recorded
    since. -/
theorem names_fit_after_changes (options : Options) (changes : List Change) :
    ((new options).afterAll changes).NamesFit ∧
      (∀ c arena, c.registers? = some arena →
        ((new options).afterAll (changes ++ [c])).language? arena.name = some arena) ∧
      ∀ n later x,
        let h := (new options).afterAll (changes ++ .unregister n :: later)
        ((∀ c ∈ later, ¬c.Registers (Text.lowered n)) →
          h.canonicalName x ≠ some (Text.lowered n)) ∧
        (h.canonicalName x = some (Text.lowered n) → Text.lowered x = Text.lowered n ∨
          ∃ c ∈ later, (Text.lowered x, Text.lowered n) ∈ c.records) := by
  have hsplit (c : Change) (later : List Change) : (new options).afterAll (changes ++ c :: later) =
      (((new options).afterAll changes).after c).afterAll later := by
    simp [afterAll]
  refine ⟨namesFit_of_lowered (built_afterAll (.new options) changes) fun n hn => ?_, ?_, ?_⟩
  · rcases mem_languages_afterAll hn with hn | ⟨c, -, arena, hc, rfl⟩
    · cases hn
    · exact Change.lowered_of_registers hc
  · intro c arena hc
    rw [hsplit c []]
    exact language?_of_registers _ hc
  · intro n later x
    simp only [hsplit]
    refine ⟨fun hno hx => ?_, fun hx => (since_unregister hx).2⟩
    obtain ⟨c, hc, hregisters⟩ := (since_unregister hx).1
    exact hno c hc hregisters

/-- A language with two further names, one of them recorded apart. -/
def twiceNamed : List Change :=
  [.register "Ada" (.constant { aliases := ["ADB"] }), .registerAliases ["Adc"] "ada"]

/-- A language that has been removed and registered again, without further names, has its own name
    only. -/
theorem further_names_gone_after_unregister :
    ((new {}).afterAll twiceNamed).canonicalName "adC" = some "ada" ∧
      ((new {}).afterAll (twiceNamed ++ [.unregister "aDA"])).canonicalName "adC" ≠
        some (Text.lowered "aDA") ∧
      ((new {}).afterAll (twiceNamed ++ [.unregister "aDA",
        .register "ADA" (.constant {})])).canonicalName "Ada" = some (Text.lowered "aDA") ∧
      ∀ x, ((new {}).afterAll (twiceNamed ++ [.unregister "aDA",
        .register "ADA" (.constant {})])).canonicalName x = some (Text.lowered "aDA") →
          Text.lowered x = Text.lowered "aDA" := by
  refine ⟨by decide +kernel, ?_, by decide +kernel, fun x hx => ?_⟩
  · exact ((names_fit_after_changes {} twiceNamed).2.2 "aDA" [] "adC").1
      fun c hc => absurd hc List.not_mem_nil
  · refine (((names_fit_after_changes {} twiceNamed).2.2 "aDA" _ x).2 hx).resolve_right ?_
    rintro ⟨c, hc, hrecords⟩
    have hnone : (Change.register "ADA" (.constant {})).records = [] := by decide +kernel
    rw [List.mem_singleton.mp hc, hnone] at hrecords
    cases hrecords

end Highlight.Highlighter
