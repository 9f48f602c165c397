import Highlight.Arena.Preparation
import Highlight.Proofs.Arena.Delimiters

/-!
# How written modes are linked

Without extensions, preparing a mode changes neither what it contains, nor what it starts, nor
whether it ends with its parent, unless something comes before it: then a lead-in takes its place.

* `Links`, `linksOf` -- how a mode is linked to others;
* `links_prepare` -- the links of a mode that is prepared;
* `dependsOnParent_of_prepare_ends`, `dependsOnParent_of_prepare_starts` -- whether a mode depends
  on its parent.
-/

namespace Highlight.Arena

open Highlight.Grammar

variable {place : Identity} {parent : Option Mode} {raw m : Mode} {q : Prepared}

/-! ## 1. Links -/

/-- How a mode is linked to others. -/
structure Links where
  contains : Option (List (Contained Mode))
  starts : Option (Shared Mode)
  endsWithParent : Option Bool

/-- How a mode is linked to others. -/
def linksOf (m : Mode) : Links := ⟨m.contains, m.starts, m.endsWithParent⟩

theorem links_moveScope (m : Mode) : linksOf (moveScope m) = linksOf m := by
  unfold moveScope
  split <;> rfl

theorem links_spellRest (parent : Option Mode) (m : Mode) :
    linksOf (spellRest parent m).1 = linksOf m := by
  have hkeywords : linksOf (spellKeywords m).1 = linksOf m := by
    unfold spellKeywords
    split <;> rfl
  have hillegal : ∀ n, linksOf (spellIllegal n) = linksOf n := by
    intro n
    unfold spellIllegal
    split <;> rfl
  show linksOf (spellIllegal (if parent.isSome then spellKeywords m else (m, false)).1) = _
  rw [hillegal]
  split
  · exact hkeywords
  · rfl

/-- A mode with the older spellings written out. -/
def spelled (raw : Mode) : Except Cause Mode := spellMatch (spellScope raw)

/-- The older spellings have nothing to do with other modes. -/
theorem links_spelled (h : spelled raw = .ok m) : linksOf m = linksOf raw ∧
    m.beforeMatch = raw.beforeMatch ∧ m.variants = raw.variants := by
  have hscope : linksOf (spellScope raw) = linksOf raw ∧
      (spellScope raw).beforeMatch = raw.beforeMatch ∧
      (spellScope raw).variants = raw.variants := by
    unfold spellScope
    split
    · exact ⟨rfl, rfl, rfl⟩
    · exact ⟨rfl, rfl, rfl⟩
  unfold spelled spellMatch at h
  split at h
  · split at h
    · cases h
    · cases h
      exact hscope
  · cases h
    exact hscope

/-- **A mode that is prepared keeps its links**, or a lead-in takes its place. -/
theorem links_prepare (h : prepare [] place parent raw = .ok q) : ∃ m, spelled raw = .ok m ∧
    ((m.beforeMatch = none ∧ linksOf q.mode = linksOf raw) ∨
      ∃ before, m.beforeMatch = some before ∧ m.starts = none ∧
        linksOf q.mode = linksOf (leadIn place { m with beforeMatch := none } before)) := by
  simp only [prepare, bind, Except.bind, pure, Except.pure, extend, List.foldl_nil] at h
  split at h
  · cases h
  · rename_i m hm
    refine ⟨m, hm, ?_⟩
    split at h
    · cases h
    · rename_i m1 hm1
      have hq : linksOf q.mode = linksOf m1 := by
        split at h
        · cases h
        · split at h
          · cases h
          · cases h
            exact (links_spellRest parent _).trans (links_moveScope m1)
      unfold spellBefore at hm1
      split at hm1
      · rename_i before hbefore
        split at hm1
        · cases hm1
        · rename_i hstarts
          cases hm1
          exact .inr ⟨before, hbefore, by simpa using hstarts, hq⟩
      · rename_i hbefore
        cases hm1
        exact .inl ⟨hbefore, hq.trans (links_spelled hm).1⟩

/-! ## 2. Dependence on the parent -/

theorem dependsOnParent_eq (m : Mode) : m.dependsOnParent =
    (isSet m.endsWithParent || m.starts.any fun s => s.value.dependsOnParent) := by
  rw [Mode.dependsOnParent.eq_def]
  cases hstarts : m.starts with
  | none =>
    cases m
    cases hstarts
    rfl
  | some s =>
    cases m
    cases hstarts
    rfl

/-- **A mode that ends with its parent once it is prepared depends on its parent.** -/
theorem dependsOnParent_of_prepare_ends (h : prepare [] place parent raw = .ok q)
    (hends : isSet q.mode.endsWithParent = true) : raw.dependsOnParent = true := by
  obtain ⟨m, _, ⟨_, hlinks⟩ | ⟨before, _, _, hlinks⟩⟩ := links_prepare h
  · have heq : q.mode.endsWithParent = raw.endsWithParent := congrArg Links.endsWithParent hlinks
    rw [heq] at hends
    rw [dependsOnParent_eq, hends, Bool.true_or]
  · have heq : q.mode.endsWithParent = none := congrArg Links.endsWithParent hlinks
    rw [heq] at hends
    cases hends

/-- **A mode that starts one that depends on its parent depends on it too.** -/
theorem dependsOnParent_of_prepare_starts (h : prepare [] place parent raw = .ok q)
    {s : Shared Mode} (hs : q.mode.starts = some s) (hdepends : s.value.dependsOnParent = true) :
    raw.dependsOnParent = true := by
  obtain ⟨m, _, ⟨_, hlinks⟩ | ⟨before, _, _, hlinks⟩⟩ := links_prepare h
  · have heq : q.mode.starts = raw.starts := congrArg Links.starts hlinks
    rw [dependsOnParent_eq, ← heq, hs, Option.any_some, hdepends, Bool.or_true]
  · have heq : q.mode.starts =
        (leadIn place { m with beforeMatch := none } before).starts := congrArg Links.starts hlinks
    rw [heq] at hs
    cases hs
    cases hdepends

end Highlight.Arena
