import Highlight.Proofs.Arena.Compiled
import Highlight.Proofs.Lists

/-!
# Delimiters in several parts

Without extensions a mode whose delimiter is in several parts has none of the flags that would leave
the delimiter to be read again, or outside the mode.

* `firstSet_eq_none` -- no flag of a list is set;
* `joinDelimiter_parts` -- a delimiter with labels by group has none of its flags set;
* `MadeParts`, `madeParts` -- what a mode comes to by itself;
* `Undisturbed`, `undisturbed_mode` -- the flags of a compiled mode.
-/

namespace Highlight.Arena

open Highlight.Grammar

variable {language : Language} {labels : Dictionary Nat (Option String)}

/-! ## 1. One mode -/

theorem firstSet_eq_none : ∀ {flags : List (String × Option Bool)}, firstSet flags = none →
    ∀ f ∈ flags, isSet f.2 = false
  | [], _, f, hf => by cases hf
  | (name, flag) :: flags, h, f, hf => by
      unfold firstSet at h
      split at h
      · cases h
      · rename_i hflag
        rcases List.mem_cons.mp hf with rfl | hf
        · simpa using hflag
        · exact firstSet_eq_none h f hf

/-- **A delimiter with labels by group has none of its flags set.** -/
theorem joinDelimiter_parts {pattern joined : Option Source} {scope : Option Scope} {key : String}
    {flags : List (String × Option Bool)}
    (h : joinDelimiter pattern scope key flags = .ok (joined, some (.parts labels))) :
    ∀ f ∈ flags, isSet f.2 = false := by
  unfold joinDelimiter at h
  split at h
  · split at h
    · cases h
    · rename_i hflags
      exact firstSet_eq_none hflags
    · cases h
  · split at h <;> cases h

/-- **A mode with a delimiter in several parts is not skipped, and reads the delimiter as its own.**
    The same holds of its end. -/
structure Undisturbed (m : ArenaMode) : Prop where
  begins : ∀ labels, m.beginScope = some (.parts labels) →
    m.skip = false ∧ m.excludeBegin = false ∧ m.returnBegin = false
  ends : ∀ labels, m.endScope = some (.parts labels) →
    m.skip = false ∧ m.excludeEnd = false ∧ m.returnEnd = false

/-- The flags of a mode that bear on its delimiters. -/
def delimiterFlags (m : Mode) : List (Option Bool) :=
  [m.skip, m.excludeBegin, m.returnBegin, m.excludeEnd, m.returnEnd]

/-- Writing out the last shorthands of a mode keeps these flags. -/
theorem delimiterFlags_spellRest (parent : Option Mode) (m : Mode) :
    delimiterFlags (spellRest parent m).1 = delimiterFlags m := by
  have hkeywords : delimiterFlags (spellKeywords m).1 = delimiterFlags m := by
    unfold spellKeywords
    split <;> rfl
  have hillegal : ∀ n, delimiterFlags (spellIllegal n) = delimiterFlags n := by
    intro n
    unfold spellIllegal
    split <;> rfl
  show delimiterFlags (spellIllegal (if parent.isSome then spellKeywords m else (m, false)).1) = _
  rw [hillegal]
  split
  · exact hkeywords
  · rfl

/-- **Without extensions, labels by group stand only where no flag disturbs the delimiter.** -/
theorem flags_prepare {place : Identity} {parent : Option Mode} {raw : Mode} {p : Prepared}
    (h : prepare [] place parent raw = .ok p) :
    (∀ labels, p.beginScope = some (.parts labels) →
      isSet p.mode.skip = false ∧ isSet p.mode.excludeBegin = false ∧
        isSet p.mode.returnBegin = false) ∧
    (∀ labels, p.endScope = some (.parts labels) →
      isSet p.mode.skip = false ∧ isSet p.mode.excludeEnd = false ∧
        isSet p.mode.returnEnd = false) := by
  simp only [prepare, bind, Except.bind, pure, Except.pure, extend, List.foldl_nil] at h
  split at h
  · cases h
  · split at h
    · cases h
    · split at h
      · cases h
      · rename_i begins hbegins
        split at h
        · cases h
        · rename_i ends hends
          have hflags : ∀ {m : Mode} {rest : Mode × Bool}, spellRest parent m = rest →
              delimiterFlags rest.1 = delimiterFlags m := by
            rintro m rest rfl
            exact delimiterFlags_spellRest parent m
          generalize hrest : spellRest parent _ = rest at h
          have hkeep := hflags hrest
          cases h
          simp only [delimiterFlags, List.cons.injEq, and_true] at hkeep
          obtain ⟨h1, h2, h3, h4, h5⟩ := hkeep
          simp only
          rw [h1, h2, h3, h4, h5]
          refine ⟨fun labels hl => ?_, fun labels hl => ?_⟩
          · obtain ⟨joined, scope⟩ := begins
            cases hl
            simpa using joinDelimiter_parts hbegins
          · obtain ⟨joined, scope⟩ := ends
            cases hl
            simpa using joinDelimiter_parts hends

/-! ## 2. Compiled modes -/

/-- What a mode comes to by itself: it is prepared, and then its delimiters, what it forbids and its
    keywords are compiled. -/
structure MadeParts (language : Language) (parent : Option Parent) (key : Option Key) (raw : Mode)
    (p : Parts) : Prop where
  prepared : prepare language.extensions ((key.map Key.place).getD [("root", 0)])
    (parent.map (·.mode)) raw = .ok p.prepared
  delimiters : compileDelimiters language.caseInsensitive p.prepared.mode parent = .ok p.delimiters
  illegal : p.illegal = p.prepared.mode.illegal.map sourceText
  accepted : ∀ source, p.illegal = some source →
    ∃ regex, Pattern.compile source language.caseInsensitive = .ok regex
  keywords : (p.prepared.mode.keywords.mapM fun k => compileKeywords language.caseInsensitive k) =
    .ok p.keywords

section Parts

variable {parent : Option Parent} {key : Option Key} {raw : Mode} {p : Parts}

theorem madeParts (h : compileParts language parent key raw = .ok p) :
    MadeParts language parent key raw p := by
  obtain ⟨prepared, hprepared, h⟩ := exists_of_bind h
  obtain ⟨delimiters, hdelimiters, h⟩ := exists_of_bind h
  cases hillegal : prepared.mode.illegal.map sourceText with
  | none =>
    simp only [hillegal] at h
    obtain ⟨keywords, hkeywords, h⟩ := exists_of_bind h
    cases h
    exact ⟨hprepared, hdelimiters, hillegal.symm, (fun _ hsource => by cases hsource), hkeywords⟩
  | some source =>
    simp only [hillegal] at h
    obtain ⟨regex, hregex, h⟩ := exists_of_bind h
    obtain ⟨keywords, hkeywords, h⟩ := exists_of_bind h
    cases h
    refine ⟨hprepared, hdelimiters, hillegal.symm, fun _ hsource => ?_, hkeywords⟩
    cases hsource
    exact ⟨regex, ok_of_mapError hregex⟩

theorem prepare_of_compileParts (h : compileParts language parent key raw = .ok p) :
    prepare language.extensions ((key.map Key.place).getD [("root", 0)]) (parent.map (·.mode)) raw =
      .ok p.prepared :=
  (madeParts h).prepared

theorem delimiters_of_compileParts (h : compileParts language parent key raw = .ok p) :
    compileDelimiters language.caseInsensitive p.prepared.mode parent = .ok p.delimiters :=
  (madeParts h).delimiters

end Parts

/-- **In a language without extensions every compiled mode reads its delimiters undisturbed.** -/
theorem Made.undisturbed {size : Nat} {m : ArenaMode} (h : Made language size m)
    (hext : language.extensions = []) : Undisturbed m := by
  obtain ⟨parent, key, raw, p, hp, hm⟩ := h.parts
  have hprepare := prepare_of_compileParts hp
  rw [hext] at hprepare
  obtain ⟨hbegins, hends⟩ := flags_prepare hprepare
  rw [hm]
  exact ⟨hbegins, hends⟩

/-- A mode that is not there reads nothing. -/
theorem mode_of_size_le {arena : Arena} {id : Nat} (hid : arena.modes.size ≤ id) :
    arena.mode id = .blank := by
  rw [Arena.mode, Array.getD_eq_getD_getElem?, Array.getElem?_eq_none hid]
  rfl

/-- The mode with a number is one of the language, or reads nothing. -/
theorem mode_mem_or_blank (arena : Arena) (id : Nat) :
    arena.mode id ∈ arena.modes ∨ arena.mode id = .blank := by
  by_cases hid : id < arena.modes.size
  · exact .inl (mode_mem hid)
  · exact .inr (mode_of_size_le (Nat.le_of_not_lt hid))

/-- A test that the modes of a language pass, and so does one that reads nothing. -/
theorem mode_all {arena : Arena} {p : ArenaMode → Bool} (hblank : p .blank = true)
    (hall : arena.modes.all p = true) (id : Nat) : p (arena.mode id) = true := by
  rcases mode_mem_or_blank arena id with hmem | hid
  · exact Array.all_eq_true_iff_forall_mem.mp hall _ hmem
  · rw [hid]
    exact hblank

/-- The same of the mode with any number; a mode that is not there reads nothing. -/
theorem undisturbed_mode {name : String} {arena : Arena}
    (hc : compileLanguage name language = .ok arena) (hext : language.extensions = [])
    (id : Nat) : Undisturbed (arena.mode id) := by
  rcases mode_mem_or_blank arena id with hmem | hblank
  · exact ((made_of_compileLanguage hc).2 _ hmem).undisturbed hext
  · rw [hblank]
    refine ⟨fun labels h => ?_, fun labels h => ?_⟩
    · cases h
    · cases h

end Highlight.Arena
