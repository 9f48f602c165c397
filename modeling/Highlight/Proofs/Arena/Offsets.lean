import Highlight.Proofs.Arena.Ordered

/-!
# How far references are moved

Where rules are merged the references of each are moved as far as the groups that seem to stand
before it, by the pieces that its pattern is cut into. The reader counts the groups of the whole
pattern. Both agree as long as each pattern but the last opens as many groups as the reader finds in
it, and then each reference leads to the group of its own rule.

* `offsets`, `wrapAll_eq_zipWith` -- how far the references of each rule are moved;
* `offsets_eq_groups_iff` -- when that is as far as the group around the rule;
* `Slot.Wraps`, `wraps_merged` -- a rule in the tree of the merged pattern;
* `references_moved_to_own` -- **the references of a rule lead to its own groups**.
-/

namespace Highlight.Arena

open Regex Pattern

/-! ## 1. Two ways to count -/

/-- By how much the references of each of some patterns are moved when they are merged; `opened`
    groups seem to stand before the first. -/
def offsets (opened : Nat) : List String → List Nat
  | [] => []
  | pattern :: patterns =>
    (opened + 1) :: offsets (opened + 1 + opens pattern.toList) patterns

/-- Merging moves the references of each pattern by its offset. -/
theorem wrapAll_eq_zipWith (opened : Nat) (patterns : List String) :
    wrapAll opened patterns =
      List.zipWith (fun offset pattern => String.ofList (wrapped offset (pieces pattern.toList)))
        (offsets opened patterns) patterns := by
  induction patterns generalizing opened with
  | nil => rfl
  | cons pattern patterns ih =>
    rw [wrapAll, offsets, List.zipWith_cons_cons, ih]
    rfl

theorem slotsFrom_cons {group first : Nat} {r : Rule} {rules : List Rule} {slots : List Slot}
    (h : slotsFrom group first (r :: rules) = .ok slots) :
    ∃ n more, groupCount r.source = .ok n ∧ slotsFrom (group + n + 1) (first + 1) rules = .ok more ∧
      slots = ⟨group, n, first, r.kind⟩ :: more := by
  obtain ⟨n, hn, h⟩ := exists_of_bind h
  obtain ⟨more, hmore, h⟩ := exists_of_bind h
  cases h
  exact ⟨n, more, hn, hmore, rfl⟩

/-- **References are moved as far as the groups around the rules** exactly where each rule but the
    last seems to open as many groups as the reader finds in it. -/
theorem offsets_eq_groups_iff : ∀ {g first : Nat} {rules : List Rule} {slots : List Slot},
    slotsFrom (g + 1) first rules = .ok slots →
      (offsets g (rules.map (·.source)) = slots.map (·.group) ↔
        ∀ e ∈ (rules.zip slots).dropLast, opens e.1.source.toList = e.2.inner)
  | _, _, [], _, h => by
      cases h
      simp [offsets]
  | g, first, [r], slots, h => by
      obtain ⟨n, more, _, hmore, rfl⟩ := slotsFrom_cons h
      cases hmore
      simp [offsets]
  | g, first, r :: r' :: rules, slots, h => by
      obtain ⟨n, more, _, hmore, rfl⟩ := slotsFrom_cons h
      have ih := offsets_eq_groups_iff hmore
      obtain ⟨n', more', _, _, rfl⟩ := slotsFrom_cons hmore
      simp only [List.map_cons, List.zip_cons_cons, List.dropLast_cons_cons, List.mem_cons,
        forall_eq_or_imp, offsets, List.cons.injEq] at ih ⊢
      by_cases hn : opens r.source.toList = n
      · subst hn
        simp only [true_and] at ih ⊢
        exact ih
      · refine ⟨fun heq => ?_, fun heq => absurd heq.1 hn⟩
        omega

/-- A clear pattern opens as many groups as the reader finds in it. -/
theorem opens_eq_inner : ∀ {group first : Nat} {rules : List Rule} {slots : List Slot},
    slotsFrom group first rules = .ok slots → (∀ r ∈ rules, Clear 0 r.source.toList) →
      ∀ e ∈ rules.zip slots, opens e.1.source.toList = e.2.inner
  | _, _, [], _, _, _, e, he => by cases he
  | _, _, r :: rules, slots, h, hclear, e, he => by
      obtain ⟨n, more, hn, hmore, rfl⟩ := slotsFrom_cons h
      rcases List.mem_cons.mp he with rfl | he
      · obtain ⟨p, hp⟩ := has_of_groupCount hn (hclear r (by simp)) false
        rw [← hp.chars]
        exact Except.ok.inj (hp.groups.symm.trans hn)
      · exact opens_eq_inner hmore (fun r' hr' => hclear r' (List.mem_cons_of_mem r hr')) e he

/-! ## 2. Where references lead -/

/-- **A rule in the tree of the merged pattern**: the group of its slot holds the tree of the rule by
    itself, with references moved by the number of the group; and so they lead to the groups that the
    rule's own groups have become. -/
structure Slot.Wraps (s : Slot) (own tree : Syntax) : Prop where
  wrapper : tree.captures.lookup s.group = some (own.moved s.group)
  groups : ∀ n, 1 ≤ n → n ≤ s.inner →
    tree.captures.lookup (n + s.group) = (own.captures.lookup n).map (Syntax.moved s.group)
  references : ∀ n ∈ own.references, 1 ≤ n ∧ n ≤ s.inner

section Merged

variable {folded : Bool} {ps : List (List Char × Syntax)}

/-- **Each rule stands in the group of its slot.** -/
theorem wraps_merged (hs : ∀ p ∈ ps, Standing ⟨folded, false⟩ p.1 p.2) :
    ∀ (ys xs : List (List Char × Syntax)) {rules : List Rule} {slots : List Slot} {first : Nat},
      ps = xs ++ ys → List.Forall₂ (Rule.Has folded) rules ys →
      slotsFrom (mergedGroups 0 xs + 1) first rules = .ok slots →
      List.Forall₂ (fun r s => ∃ own, readSyntax r.source.toList folded = .ok (own, s.inner) ∧
        s.Wraps own (mergedTree 0 ps)) rules slots
  | [], _, _, _, _, _, .nil, h => by
      cases h
      exact .nil
  | p :: ys, xs, r :: rules, slots, first, hps, .cons hr hrules, h => by
      have hsound : ∀ q ∈ xs ++ p :: ys, Pattern.Sound q := fun q hq =>
        sound_of_standing (hs q (hps ▸ hq))
      obtain ⟨rank, hrank⟩ := hsound p (by simp)
      obtain ⟨n, more, hn, hmore, rfl⟩ := slotsFrom_cons h
      obtain rfl : opens p.1 = n := Except.ok.inj (hr.groups.symm.trans hn)
      have hamong := @among_merged p xs ys (fun q hq => hsound q (List.mem_append_left _ hq))
        fun q hq => hsound q (List.mem_append_right _ (List.mem_cons_of_mem p hq))
      have hseen : (p.2.overview []).SeenAs (mergedGroups 0 xs + 1) (opens p.1) rank
          ((mergedTree 0 (xs ++ p :: ys)).overview []) := hamong.seenAs hrank fun _ _ _ => rfl
      have hgroups : mergedGroups 0 (xs ++ [p]) = mergedGroups 0 xs + 1 + opens p.1 :=
        mergedGroups_append 0 xs [p]
      refine .cons ⟨p.2, hr.chars ▸ hr.standing.readSyntax, ?_, ?_, ?_⟩ ?_
      · rw [hps]
        exact lookup_merged (fun q hq => hsound q (List.mem_append_left _ hq)) p ys
      · rw [hps]
        exact hseen.lookup
      · exact hr.standing.holds.references
      · exact wraps_merged hs ys (xs ++ [p]) (by simp [hps]) hrules (hgroups ▸ hmore)

end Merged

/-- **The references of a rule lead to its own groups.** Merging moves the references of each rule by
    its offset. That is the number of the group around the rule exactly where each rule but the last
    opens as many groups as the reader finds in it. Where all patterns are clear it is so, and the
    group of each slot holds the tree of its rule with every reference moved to the group that the
    rule's own group has become. -/
theorem references_moved_to_own {rules : List Rule} {slots : List Slot} {first : Nat}
    (hslots : slotsFrom 1 first rules = .ok slots) :
    wrapAll 0 (rules.map (·.source)) =
      List.zipWith (fun offset pattern => String.ofList (wrapped offset (pieces pattern.toList)))
        (offsets 0 (rules.map (·.source))) (rules.map (·.source)) ∧
    (offsets 0 (rules.map (·.source)) = slots.map (·.group) ↔
      ∀ e ∈ (rules.zip slots).dropLast, opens e.1.source.toList = e.2.inner) ∧
    ((∀ r ∈ rules, Clear 0 r.source.toList) →
      offsets 0 (rules.map (·.source)) = slots.map (·.group) ∧
      ∀ folded merged, Merged.build folded first rules = .ok merged →
        merged.slots = slots ∧ ∃ tree n,
          readSyntax (Pattern.merge (rules.map (·.source)) "|").toList folded = .ok (tree, n) ∧
          List.Forall₂ (fun r s => ∃ own, readSyntax r.source.toList folded = .ok (own, s.inner) ∧
            s.Wraps own tree) rules slots) := by
  have hiff := offsets_eq_groups_iff hslots
  refine ⟨wrapAll_eq_zipWith 0 _, hiff, fun hclear => ⟨hiff.mpr fun e he => ?_, fun folded merged hbuild => ?_⟩⟩
  · exact opens_eq_inner hslots hclear e (List.dropLast_subset _ he)
  · refine ⟨Except.ok.inj ((slots_build hbuild).symm.trans hslots), ?_⟩
    obtain ⟨ps, hps⟩ := has_of_slots folded hslots hclear
    have hstanding := standing_of_rules hps
    obtain ⟨a, ha⟩ := readSyntax_of_readPattern (readPattern_of_build hbuild)
    by_cases hne : rules = []
    · subst hne
      cases hslots
      exact ⟨a, _, ha, .nil⟩
    · rw [toList_merge_rules hps] at ha ⊢
      exact ⟨_, _, readSyntax_merged hstanding (ne_nil_of_rules hps hne)
        (fits_of_readSyntax hstanding ha), wraps_merged hstanding ps [] rfl hps hslots⟩

/-- Two rules with references of their own keep them. -/
theorem pairs_move_to_own :
    ∃ slots, slotsFrom 1 0 pairs = .ok slots ∧ (∀ r ∈ pairs, Clear 0 r.source.toList) ∧
      offsets 0 (pairs.map (·.source)) = slots.map (·.group) ∧
      ∃ merged, Merged.build false 0 pairs = .ok merged ∧ merged.slots = slots ∧ ∃ tree n,
        readSyntax (Pattern.merge (pairs.map (·.source)) "|").toList false = .ok (tree, n) ∧
        List.Forall₂ (fun r s => ∃ own, readSyntax r.source.toList false = .ok (own, s.inner) ∧
          s.Wraps own tree) pairs slots := by
  have hslots : slotsFrom 1 0 pairs = .ok [⟨1, 1, 0, .begins 1⟩, ⟨3, 2, 1, .ends⟩] := by
    decide +kernel
  have hclear : ∀ r ∈ pairs, Clear 0 r.source.toList := by
    unfold Clear
    decide +kernel
  obtain ⟨hoffsets, hwraps⟩ := (references_moved_to_own hslots).2.2 hclear
  have hbuild : (Merged.build false 0 pairs).isOk = true := by decide +kernel
  obtain ⟨merged, hmerged⟩ := exists_of_isOk hbuild
  exact ⟨_, hslots, hclear, hoffsets, merged, hmerged, hwraps false merged hmerged⟩

/-- **A class that begins with the bracket that would close it shifts the offsets of later rules**:
    the parenthesis in it is taken for a group. -/
theorem class_shifts_offset :
    ∃ slots, slotsFrom 1 0 bracketed = .ok slots ∧ (∀ r ∈ bracketed, (groupCount r.source).isOk = true) ∧
      offsets 0 (bracketed.map (·.source)) ≠ slots.map (·.group) := by
  have hslots : slotsFrom 1 0 bracketed = .ok [⟨1, 0, 0, .begins 1⟩, ⟨2, 2, 1, .begins 2⟩] := by
    decide +kernel
  exact ⟨_, hslots, by decide +kernel, by decide +kernel⟩

end Highlight.Arena
