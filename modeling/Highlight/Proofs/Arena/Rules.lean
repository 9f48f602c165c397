import Highlight.Arena.RuleSet
import Highlight.Proofs.Regex.Extent

/-!
# What the search of a rule set finds

* `mergedFrom_eq`, `mergedFrom_error` -- the merged patterns that are kept are those of the tails,
  and a pattern cannot be read where they cannot be had;
* `Finds` -- that a match is of a rule in a list, and lies in a text at or behind an index;
* `finds_search`, `finds_next` -- what is found by one merged pattern, and by a rule set.
-/

namespace Highlight.Arena

variable {text : Text} {i : Nat} {m : RuleMatch}

/-! ## 1. Merged patterns -/

theorem getElem?_tails (folded : Bool) : ∀ (first k : Nat) (rules : List Rule),
    (tails folded first rules)[k]?.map Thunk.get =
      if k < rules.length then some (Merged.build folded (first + k) (rules.drop k)) else none
  | _, _, [] => by simp [tails]
  | first, 0, r :: rs => by simp [tails, Thunk.get]
  | first, k + 1, r :: rs => by
      have ih := getElem?_tails folded (first + 1) k rs
      rw [Nat.add_assoc, Nat.add_comm 1 k] at ih
      simpa [tails] using ih

/-- **The merged pattern of the rules from number `k` on is that of this tail.** -/
theorem RuleSet.mergedFrom_eq (rs : RuleSet) (k : Nat) :
    rs.mergedFrom k = Merged.build rs.folded k (rs.rules.drop k) := by
  have h := getElem?_tails rs.folded 0 k rs.rules
  rw [← rs.merged_eq, Nat.zero_add] at h
  unfold RuleSet.mergedFrom
  cases hk : rs.merged[k]? with
  | none => rfl
  | some tail =>
    rw [hk] at h
    split at h
    · simpa using h
    · simp at h

theorem badPattern_of_mapError {α : Type} {pattern : String} {x : Except Regex.Fault α}
    {cause : Cause} (h : x.mapError (badPattern pattern) = .error cause) :
    ∃ message, cause = .invalidPattern pattern message := by
  cases x with
  | error f =>
    cases h
    exact ⟨_, rfl⟩
  | ok a => cases h

theorem slotsFrom_error {cause : Cause} : ∀ {group rule : Nat} {rules : List Rule},
    slotsFrom group rule rules = .error cause →
      ∃ pattern message, cause = .invalidPattern pattern message
  | _, _, [], h => by cases h
  | group, rule, r :: rs, h => by
      simp only [slotsFrom, bind, Except.bind] at h
      split at h
      · rename_i e he
        cases h
        exact ⟨_, badPattern_of_mapError he⟩
      · split at h
        · rename_i e he
          cases h
          exact slotsFrom_error he
        · cases h

/-- **Rules that cannot be merged have a pattern that cannot be read.** -/
theorem RuleSet.mergedFrom_error {rs : RuleSet} {k : Nat} {cause : Cause}
    (h : rs.mergedFrom k = .error cause) :
    ∃ pattern message, cause = .invalidPattern pattern message := by
  rw [RuleSet.mergedFrom_eq] at h
  simp only [Merged.build, bind, Except.bind] at h
  split at h
  · rename_i e he
    cases h
    exact slotsFrom_error he
  · split at h
    · rename_i e he
      cases h
      exact ⟨_, badPattern_of_mapError he⟩
    · cases h

theorem mem_slotsFrom {s : Slot} : ∀ {group rule : Nat} {rules : List Rule} {slots : List Slot},
    slotsFrom group rule rules = .ok slots → s ∈ slots → ∃ r ∈ rules, r.kind = s.kind
  | _, _, [], slots, h, hs => by
      cases h
      cases hs
  | group, rule, r :: rs, slots, h, hs => by
      simp only [slotsFrom, bind, Except.bind] at h
      split at h
      · cases h
      · split at h
        · cases h
        · rename_i rest hrest
          cases h
          rcases List.mem_cons.mp hs with rfl | hs
          · exact ⟨r, List.mem_cons_self, rfl⟩
          · obtain ⟨r', hr', hk⟩ := mem_slotsFrom hrest hs
            exact ⟨r', List.mem_cons_of_mem r hr', hk⟩

theorem slots_build {folded : Bool} {first : Nat} {rules : List Rule} {merged : Merged}
    (h : Merged.build folded first rules = .ok merged) :
    slotsFrom 1 first rules = .ok merged.slots := by
  simp only [Merged.build, bind, Except.bind] at h
  split at h
  · cases h
  · rename_i slots hslots
    split at h
    · cases h
    · cases h
      exact hslots

/-! ## 2. Matches -/

/-- **The match is of one of the rules, and lies in the text at or behind the index**, with what its
    groups have read. -/
structure Finds (rules : List Rule) (text : Text) (i : Nat) (m : RuleMatch) : Prop where
  kind : ∃ r ∈ rules, r.kind = m.kind
  from_le : i ≤ m.span.start
  ordered : m.span.start ≤ m.span.stop
  stop_le : m.span.stop ≤ text.size
  groups : ∀ span, some span ∈ m.groups → span.Within text

theorem Finds.mono {rules rules' : List Rule} {i' : Nat} (h : Finds rules text i m)
    (hr : ∀ r ∈ rules, r ∈ rules') (hi : i' ≤ i) : Finds rules' text i' m where
  kind := by
    obtain ⟨r, hm, hk⟩ := h.kind
    exact ⟨r, hr r hm, hk⟩
  from_le := Nat.le_trans hi h.from_le
  ordered := h.ordered
  stop_le := h.stop_le
  groups := h.groups

theorem finds_search {folded : Bool} {first : Nat} {rules : List Rule} {merged : Merged}
    (hb : Merged.build folded first rules = .ok merged) (h : merged.search text i = some m) :
    Finds rules text i m := by
  obtain ⟨found, hfound, h⟩ := Option.bind_eq_some_iff.mp h
  obtain ⟨slot, hslot, h⟩ := Option.bind_eq_some_iff.mp h
  cases h
  obtain ⟨hle, hgroups⟩ := Regex.groups_search hfound
  obtain ⟨hordered, hstop⟩ := hgroups 0 found.span rfl
  refine ⟨mem_slotsFrom (slots_build hb) (List.mem_of_find?_eq_some hslot), hle, hordered, hstop,
    fun span hspan => ?_⟩
  obtain ⟨g, _, hg⟩ := List.mem_map.mp hspan
  exact hgroups _ span hg

theorem RuleSet.advance_eq_some {rs : RuleSet} {first k : Nat} {found : Option RuleMatch}
    (h : rs.advance first found = (some m, k)) : found = some m := by
  cases found with
  | none => cases h
  | some m' =>
    cases h
    rfl

/-- **What the search of a rule set finds is of one of its rules, at or behind the index.** -/
theorem finds_next {rs : RuleSet} {first k : Nat} (h : rs.next text i first = .ok (some m, k)) :
    Finds rs.rules text i m := by
  simp only [RuleSet.next, RuleSet.mergedFrom_eq, bind, Except.bind] at h
  generalize (if first < rs.size then first else 0) = start at h
  split at h
  · cases h
  · split at h
    · cases h
    · rename_i near hnear
      split at h
      · rename_i hstart
        have hf := finds_search hnear (RuleSet.advance_eq_some (Except.ok.inj h))
        exact hf.mono (fun r hr => List.mem_of_mem_drop hr) (Nat.le_refl _)
      · split at h
        · cases h
        · rename_i all hall
          have hf := finds_search hall (RuleSet.advance_eq_some (Except.ok.inj h))
          exact hf.mono (fun r hr => List.mem_of_mem_drop hr) (Nat.le_succ i)

/-- The search of a rule set fails only where a tail of its rules cannot be merged. -/
theorem next_error {rs : RuleSet} {first : Nat} {cause : Cause}
    (h : rs.next text i first = .error cause) : ∃ k, k < rs.size ∧ rs.mergedFrom k = .error cause := by
  simp only [RuleSet.next, bind, Except.bind] at h
  split at h
  · cases h
  · rename_i hrules
    have hsize : 0 < rs.size := by
      unfold RuleSet.size
      cases hr : rs.rules with
      | nil =>
        rw [hr] at hrules
        exact absurd rfl hrules
      | cons r rest => exact Nat.succ_pos _
    have hstart : (if first < rs.size then first else 0) < rs.size := by
      split
      · assumption
      · exact hsize
    generalize (if first < rs.size then first else 0) = start at h hstart
    split at h
    · rename_i e he
      cases h
      exact ⟨_, hstart, he⟩
    · split at h
      · cases h
      · split at h
        · rename_i e he
          cases h
          exact ⟨0, hsize, he⟩
        · cases h

end Highlight.Arena
