import Highlight.Proofs.Arena.Links
import Highlight.Proofs.Lists

/-!
# What guards a mode

What a mode forbids and its hooks have little to do with the rest of it. Without extensions, preparing
a mode leaves them as they are written, unless something comes before it, and writes a list of what is
forbidden as one pattern.

* `extended`, `prepare_eq_extended` -- a mode before its last shorthands are written out;
* `Guards`, `guards_extended` -- its guards are those that it is written with;
* `illegal_spellRest` -- what is forbidden, as one pattern;
* `hooks_of_compileParts` -- the hooks of a mode.
-/

namespace Highlight.Arena

open Highlight.Grammar
open Pattern (either)

variable {l : Language} {patterns : List String} {place : Identity} {parent : Option Mode} {raw m : Mode}

/-! ## 1. Before the last shorthands -/

/-- A mode before its last shorthands are written out, with the labels of its delimiters. -/
def extended (extensions : List Extension) (place : Identity) (parent : Option Mode) (raw : Mode) :
    Except Cause (Mode × Option ScopeEmit × Option ScopeEmit) := do
  let m ← spellMatch (spellScope raw)
  let m := moveScope (← spellBefore place m)
  let (beginPattern, beginScope) ← joinDelimiter m.beginPattern m.beginScope "beginScope"
    [("skip", m.skip), ("excludeBegin", m.excludeBegin), ("returnBegin", m.returnBegin)]
  let (endPattern, endScope) ← joinDelimiter m.endPattern m.endScope "endScope"
    [("skip", m.skip), ("excludeEnd", m.excludeEnd), ("returnEnd", m.returnEnd)]
  return (extend extensions parent
    { m with beginPattern, endPattern, beginScope := none, endScope := none }, beginScope, endScope)

/-- Preparing a mode ends with writing out its last shorthands. -/
theorem prepare_eq_extended (extensions : List Extension) (place : Identity) (parent : Option Mode)
    (raw : Mode) : prepare extensions place parent raw =
      (extended extensions place parent raw).map fun e =>
        ⟨(spellRest parent e.1).1, e.2.1, e.2.2, (spellRest parent e.1).2⟩ := by
  simp only [prepare, extended, bind, Except.bind, pure, Except.pure]
  split
  · rfl
  · split
    · rfl
    · split
      · rfl
      · split <;> rfl

/-! ## 2. Guards -/

/-- What a mode forbids, and its hooks. -/
structure Guards where
  illegal : Option Source
  onBegin : Option Hook
  onEnd : Option Hook

/-- What a mode forbids, and its hooks. -/
def guardsOf (m : Mode) : Guards := ⟨m.illegal, m.onBegin, m.onEnd⟩

/-- The older spellings have nothing to do with the guards. -/
theorem guards_spelled (h : spelled raw = .ok m) : guardsOf m = guardsOf raw := by
  have hscope : guardsOf (spellScope raw) = guardsOf raw := by
    unfold spellScope
    split <;> rfl
  unfold spelled spellMatch at h
  split at h
  · split at h
    · cases h
    · cases h
      exact hscope
  · cases h
    exact hscope

/-- **Without extensions a mode with nothing before it keeps its guards.** -/
theorem guards_extended {e : Mode × Option ScopeEmit × Option ScopeEmit}
    (h : extended [] place parent raw = .ok e) (hbefore : raw.beforeMatch = none) :
    guardsOf e.1 = guardsOf raw := by
  obtain ⟨m, hm, h⟩ := exists_of_bind h
  have hspelled : spelled raw = .ok m := hm
  obtain ⟨m', hm', h⟩ := exists_of_bind h
  rw [spellBefore, (links_spelled hspelled).2.1, hbefore] at hm'
  cases hm'
  have hmove : guardsOf (moveScope m) = guardsOf m := by
    unfold moveScope
    split <;> rfl
  obtain ⟨begins, _, h⟩ := exists_of_bind h
  obtain ⟨ends, _, h⟩ := exists_of_bind h
  cases h
  exact hmove.trans (guards_spelled hspelled)

/-- The words that a mode begins with have nothing to do with its guards. -/
theorem guards_spellKeywords (m : Mode) : guardsOf (spellKeywords m).1 = guardsOf m := by
  unfold spellKeywords
  split <;> rfl

/-- **A list of what is forbidden is written as one pattern.** -/
theorem illegal_spellRest (parent : Option Mode) {m : Mode}
    (h : m.illegal = some (.sequence patterns)) :
    (spellRest parent m).1.illegal = some (.single (either patterns false)) := by
  have hillegal : ∀ n : Mode, n.illegal = some (.sequence patterns) →
      (spellIllegal n).illegal = some (.single (either patterns false)) := by
    intro n hn
    simp only [spellIllegal, hn]
  show (spellIllegal (if parent.isSome then spellKeywords m else (m, false)).1).illegal = _
  refine hillegal _ ?_
  split
  · exact (congrArg Guards.illegal (guards_spellKeywords m)).trans h
  · exact h

/-- The hooks are left. -/
theorem hooks_spellRest (parent : Option Mode) (m : Mode) :
    (spellRest parent m).1.onBegin = m.onBegin ∧ (spellRest parent m).1.onEnd = m.onEnd := by
  have hillegal : ∀ n, (spellIllegal n).onBegin = n.onBegin ∧ (spellIllegal n).onEnd = n.onEnd := by
    intro n
    unfold spellIllegal
    split <;> exact ⟨rfl, rfl⟩
  have hkeywords := guards_spellKeywords m
  obtain ⟨hbegin, hend⟩ := hillegal (if parent.isSome then spellKeywords m else (m, false)).1
  refine ⟨hbegin.trans ?_, hend.trans ?_⟩
  · split
    · exact congrArg Guards.onBegin hkeywords
    · rfl
  · split
    · exact congrArg Guards.onEnd hkeywords
    · rfl

/-! ## 3. Compiled modes -/

/-- A compiled mode is prepared from one that the extensions have seen. -/
theorem prepared_of_compileParts {parent : Option Parent} {key : Option Key} {p : Parts}
    (h : compileParts l parent key raw = .ok p) : ∃ e,
      extended l.extensions ((key.map Key.place).getD [("root", 0)]) (parent.map (·.mode)) raw =
        .ok e ∧ p.prepared.mode = (spellRest (parent.map (·.mode)) e.1).1 ∧
          p.prepared.beginScope = e.2.1 ∧ p.prepared.endScope = e.2.2 := by
  have hprepared := prepare_of_compileParts h
  rw [prepare_eq_extended] at hprepared
  cases he : extended l.extensions ((key.map Key.place).getD [("root", 0)]) (parent.map (·.mode))
      raw with
  | error cause => rw [he] at hprepared; cases hprepared
  | ok e =>
    rw [he] at hprepared
    rw [← Except.ok.inj hprepared]
    exact ⟨e, rfl, rfl, rfl, rfl⟩

theorem extended_of_compileParts {parent : Option Parent} {key : Option Key} {p : Parts}
    (h : compileParts l parent key raw = .ok p) : ∃ e,
      extended l.extensions ((key.map Key.place).getD [("root", 0)]) (parent.map (·.mode)) raw =
        .ok e ∧ p.prepared.mode = (spellRest (parent.map (·.mode)) e.1).1 := by
  obtain ⟨e, he, hmode, _⟩ := prepared_of_compileParts h
  exact ⟨e, he, hmode⟩

/-- **Without extensions a mode with nothing before it has the hooks that it is written with.** -/
theorem hooks_of_compileParts {parent : Option Parent} {key : Option Key} {p : Parts}
    (h : compileParts l parent key raw = .ok p) (hext : l.extensions = [])
    (hbefore : raw.beforeMatch = none) :
    p.prepared.mode.onBegin = raw.onBegin ∧ p.prepared.mode.onEnd = raw.onEnd := by
  obtain ⟨e, he, hmode⟩ := extended_of_compileParts h
  rw [hext] at he
  have hguards := guards_extended he hbefore
  obtain ⟨hbegin, hend⟩ := hooks_spellRest (parent.map (·.mode)) e.1
  rw [hmode]
  exact ⟨hbegin.trans (congrArg Guards.onBegin hguards), hend.trans (congrArg Guards.onEnd hguards)⟩

end Highlight.Arena
