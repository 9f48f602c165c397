import Highlight.Proofs.Lists
import Highlight.Proofs.Regex.Passes
import Highlight.Regex.Loops

/-!
# What is known of a pattern among others

Whether a group might have read nothing, and how many characters it has read, is found by following
its references. Since groups use groups of lower rank only, this comes to an end, and it comes to
the same when there are other groups as well.

* `follow`, `follow_moved` -- following references, and that it comes to the same;
* `canBeEmpty_congr`, `width_congr` -- what is asked of a group is asked for its references only;
* `Overview.SeenAs` -- that an overview says of the groups of a pattern, moved, what another one
  says of them;
* `canBeEmpty_moved`, `width_moved` -- pieces of a pattern among others.
-/

namespace Highlight.Regex

/-! ## 1. Following references -/

section Follow

variable {β : Type}

/-- What is known of a group by following its references, at most `depth` many in a row. -/
def follow (groups : List (Nat × Syntax)) (unknown : β) (step : (Nat → β) → Syntax → β) :
    Nat → Nat → β
  | 0, _ => unknown
  | depth + 1, n =>
    match groups.lookup n with
    | some a => step (follow groups unknown step depth) a
    | none => unknown

theorem groupCanBeEmpty_eq (groups : List (Nat × Syntax)) (depth : Nat) :
    Syntax.groupCanBeEmpty groups depth =
      follow groups true (fun inner a => a.canBeEmpty inner) depth := by
  induction depth with
  | zero => rfl
  | succ depth ih =>
    funext n
    cases hn : groups.lookup n with
    | none => simp only [Syntax.groupCanBeEmpty, follow, hn, Option.all_none]
    | some a => simp only [Syntax.groupCanBeEmpty, follow, hn, ih, Option.all_some]

theorem groupWidth_eq (groups : List (Nat × Syntax)) (depth : Nat) :
    groupWidth groups depth =
      follow groups ⟨0, none, false⟩ (fun inner a => { a.width inner with isSure := false })
        depth := by
  induction depth with
  | zero => rfl
  | succ depth ih =>
    funext n
    cases hn : groups.lookup n with
    | none => simp only [groupWidth, follow, hn]
    | some a => simp only [groupWidth, follow, hn, ih]

theorem follow_none {groups : List (Nat × Syntax)} {n : Nat} (h : groups.lookup n = none)
    (unknown : β) (step : (Nat → β) → Syntax → β) (depth : Nat) :
    follow groups unknown step depth n = unknown := by
  cases depth with
  | zero => rfl
  | succ depth => simp only [follow, h]

/-- How many groups have a lower rank than `n`. -/
def below (rank : Nat → Nat) (groups : List (Nat × Syntax)) (n : Nat) : Nat :=
  groups.countP fun g => rank g.1 < rank n

theorem below_lt {rank : Nat → Nat} {groups : List (Nat × Syntax)} {m n : Nat} {a : Syntax}
    (hm : groups.lookup m = some a) (h : rank m < rank n) :
    below rank groups m < below rank groups n := by
  obtain ⟨before, after, rfl, _⟩ := List.lookup_eq_some_iff.mp hm
  have hmono : ∀ gs : List (Nat × Syntax), gs.countP (fun g => decide (rank g.1 < rank m)) ≤
      gs.countP fun g => decide (rank g.1 < rank n) := fun gs =>
    List.countP_mono_left fun g _ hg => by
      simp only [decide_eq_true_eq] at hg ⊢
      omega
  have h1 := hmono before
  have h2 := hmono after
  simp only [below, List.countP_append, List.countP_cons, Nat.lt_irrefl, decide_false, h,
    decide_true, if_true, Bool.false_eq_true, if_false]
  omega

theorem mem_of_lookup {groups : List (Nat × Syntax)} {n : Nat} {a : Syntax}
    (h : groups.lookup n = some a) : (n, a) ∈ groups := by
  obtain ⟨before, after, rfl, _⟩ := List.lookup_eq_some_iff.mp h
  simp

/-- **Following references comes to the same among other groups**, once enough may be followed. -/
theorem follow_moved {groups groups' : List (Nat × Syntax)} {offset size : Nat} {rank : Nat → Nat}
    {unknown : β} {step : (Nat → β) → Syntax → β}
    (hlookup : ∀ n, 1 ≤ n → n ≤ size →
      groups'.lookup (n + offset) = (groups.lookup n).map (Syntax.moved offset))
    (hgroups : ∀ g ∈ groups, (∀ m ∈ g.2.uses, rank m < rank g.1) ∧ g.2.Grounded size rank)
    (hstep : ∀ (inner inner' : Nat → β) (a : Syntax),
      (∀ m ∈ a.uses, inner' (m + offset) = inner m) →
      step inner' (a.moved offset) = step inner a)
    {depth depth' n : Nat} (h1 : 1 ≤ n) (hn : n ≤ size) (hd : below rank groups n < depth)
    (hd' : below rank groups n < depth') :
    follow groups' unknown step depth' (n + offset) = follow groups unknown step depth n := by
  induction depth generalizing depth' n with
  | zero => omega
  | succ depth ih =>
    obtain ⟨depth', rfl⟩ : ∃ d, depth' = d + 1 := ⟨depth' - 1, by omega⟩
    simp only [follow, hlookup n h1 hn]
    cases hn' : groups.lookup n with
    | none => rfl
    | some a =>
      obtain ⟨hrank, hgrounded⟩ := hgroups (n, a) (mem_of_lookup hn')
      refine hstep _ _ a fun m hm => ?_
      obtain ⟨hm1, hm2⟩ := grounded_uses hgrounded m hm
      cases hm' : groups.lookup m with
      | none =>
        rw [follow_none hm', follow_none]
        rw [hlookup m hm1 hm2, hm']
        rfl
      | some b =>
        have hlt : below rank groups m < below rank groups n := below_lt hm' (hrank m hm)
        exact ih hm1 hm2 (by omega) (by omega)

end Follow

/-! ## 2. What is asked of a group -/

theorem canBeEmpty_congr {offset : Nat} {inner inner' : Nat → Bool} (a : Syntax)
    (h : ∀ m ∈ a.uses, inner' (m + offset) = inner m) :
    (a.moved offset).canBeEmpty inner' = a.canBeEmpty inner := by
  induction a with
  | cat a b iha ihb | alt a b iha ihb =>
    simp only [Syntax.moved, Syntax.canBeEmpty, iha fun m hm => h m (List.mem_append_left _ hm),
      ihb fun m hm => h m (List.mem_append_right _ hm)]
  | group kind a ih =>
    simp only [Syntax.moved, Syntax.canBeEmpty, ih fun m hm => h m (uses_group kind a hm)]
  | loop low high isLazy a ih => simp only [Syntax.moved, Syntax.canBeEmpty, ih h]
  | again groups folded isInner =>
    cases isInner with
    | true => rfl
    | false =>
      simp only [Syntax.moved, Syntax.canBeEmpty, Bool.false_or]
      exact any_of_map_eq (map_add_congr h)
  | _ => rfl

theorem width_congr {offset : Nat} {inner inner' : Nat → Width} (a : Syntax)
    (h : ∀ m ∈ a.uses, inner' (m + offset) = inner m) :
    (a.moved offset).width inner' = a.width inner := by
  induction a with
  | cat a b iha ihb | alt a b iha ihb =>
    simp only [Syntax.moved, Syntax.width, iha fun m hm => h m (List.mem_append_left _ hm),
      ihb fun m hm => h m (List.mem_append_right _ hm)]
  | group kind a ih =>
    have ih := ih fun m hm => h m (uses_group kind a hm)
    cases kind <;> simp only [Syntax.moved, GroupKind.moved, Syntax.width, ih]
  | loop low high isLazy a ih => simp only [Syntax.moved, Syntax.width, ih h]
  | again groups folded isInner =>
    cases isInner with
    | true => rfl
    | false =>
      have hmap : (groups.map (· + offset)).map inner' = groups.map inner := map_add_congr h
      simp only [Syntax.moved, Syntax.width, hmap]
  | _ => rfl

/-! ## 3. Overviews -/

/-- What `o` says of the first `size` groups `o'` says of them as well, under numbers that are
    greater by `offset`. Groups use groups of lower rank. -/
structure Overview.SeenAs (offset size : Nat) (rank : Nat → Nat) (o o' : Overview) : Prop where
  lookup : ∀ n, 1 ≤ n → n ≤ size →
    o'.groups.lookup (n + offset) = (o.groups.lookup n).map (Syntax.moved offset)
  length : o.groups.length ≤ o'.groups.length
  grounded : ∀ g ∈ o.groups, (∀ m ∈ g.2.uses, rank m < rank g.1) ∧ g.2.Grounded size rank
  count : ∀ n, 1 ≤ n → n ≤ size → o'.references.count (n + offset) = o.references.count n
  caseless : ∀ n, 1 ≤ n → n ≤ size → o'.caseless.contains (n + offset) = o.caseless.contains n

namespace Overview.SeenAs

variable {offset size : Nat} {rank : Nat → Nat} {o o' : Overview}
  (h : o.SeenAs offset size rank o')

include h

/-- Whether a group is referred to. -/
theorem contains {n : Nat} (h1 : 1 ≤ n) (hn : n ≤ size) :
    o'.references.contains (n + offset) = o.references.contains n := by
  rw [Bool.eq_iff_iff, List.contains_iff_mem, List.contains_iff_mem, ← List.count_pos_iff,
    ← List.count_pos_iff, h.count n h1 hn]

theorem mightBeEmpty {n : Nat} (h1 : 1 ≤ n) (hn : n ≤ size) :
    o'.mightBeEmpty (n + offset) = o.mightBeEmpty n := by
  have hle : below rank o.groups n ≤ o.groups.length := List.countP_le_length
  have hlen := h.length
  simp only [Overview.mightBeEmpty, groupCanBeEmpty_eq]
  exact follow_moved h.lookup h.grounded (fun _ _ => canBeEmpty_congr) h1 hn (by omega) (by omega)

theorem widthOf {n : Nat} (h1 : 1 ≤ n) (hn : n ≤ size) :
    o'.widthOf (n + offset) = o.widthOf n := by
  have hle : below rank o.groups n ≤ o.groups.length := List.countP_le_length
  have hlen := h.length
  simp only [Overview.widthOf, groupWidth_eq]
  refine follow_moved h.lookup h.grounded (fun _ _ a ha => ?_) h1 hn (by omega) (by omega)
  simp only [width_congr a ha]

/-- **A piece of a pattern among others might read nothing where it might by itself.** -/
theorem canBeEmpty {a : Syntax} (ha : a.Grounded size rank) :
    o'.canBeEmpty (a.moved offset) = o.canBeEmpty a :=
  canBeEmpty_congr a fun m hm =>
    have hm := grounded_uses ha m hm
    h.mightBeEmpty hm.1 hm.2

/-- **A piece of a pattern among others is as wide as by itself.** -/
theorem width {a : Syntax} (ha : a.Grounded size rank) :
    (a.moved offset).width o'.widthOf = a.width o.widthOf :=
  width_congr a fun m hm =>
    have hm := grounded_uses ha m hm
    h.widthOf hm.1 hm.2

end Overview.SeenAs

end Highlight.Regex
