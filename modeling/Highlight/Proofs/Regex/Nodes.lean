import Highlight.Proofs.Regex.Overviews
import Highlight.Proofs.Regex.Runs
import Mathlib.Data.List.Count

/-!
# The tree that is run of a pattern among others

How a loop is written, and what it makes of a round of nothing, is the same for a pattern among
others as for the pattern by itself, but for what is fresh: among others every group is. That makes
a difference where a group is asked for that is being read, and where one is that stands in a piece
which is repeated a fixed number of times.

* `cost_moved`, `onEmpty_moved` -- steps, and rounds that read nothing;
* `Overview.isSteady` -- that it makes no difference what is fresh;
* `toNode_movedAs` -- **the tree that is run is that of the pattern by itself, moved**.
-/

namespace Highlight.Regex

/-! ## 1. Steps -/

theorem remembers_moved (offset : Nat) (a : Syntax) : (a.moved offset).remembers = a.remembers := by
  induction a with
  | cat a b iha ihb | alt a b iha ihb => simp only [Syntax.moved, Syntax.remembers, iha, ihb]
  | group kind a ih => cases kind <;> simp only [Syntax.moved, GroupKind.moved, Syntax.remembers, ih]
  | loop low high isLazy a ih => simp only [Syntax.moved, Syntax.remembers, ih]
  | _ => rfl

theorem wholesaleSteps?_moved (offset : Nat) (a : Syntax) :
    (a.moved offset).wholesaleSteps? = a.wholesaleSteps? := by
  cases a with
  | loop low high isLazy a =>
    cases high <;> cases isLazy <;> try rfl
    simp only [Syntax.moved, Syntax.wholesaleSteps?, isStrict_moved]
    cases a <;> rfl
  | _ => rfl

section SeenAs

variable {offset size : Nat} {rank : Nat → Nat} {o o' : Overview}
  (h : o.SeenAs offset size rank o') {a : Syntax}

include h

/-- A piece of a pattern among others takes as many steps as by itself. -/
theorem cost_moved (ha : a.Grounded size rank) : o'.cost (a.moved offset) = o.cost a := by
  induction a with
  | cat a b iha ihb =>
    have hback := givesNothingBack_moved offset a b.first
    rw [moved_first] at hback
    simp only [Syntax.moved, Overview.cost, iha ha.1, ihb ha.2, hback]
  | alt a b iha ihb => simp only [Syntax.moved, Overview.cost, iha ha.1, ihb ha.2]
  | group kind a ih =>
    cases kind with
    | capture g => simp only [Syntax.moved, GroupKind.moved, Overview.cost, ih ha.2.2]
    | atomic =>
      simp only [Syntax.moved, GroupKind.moved, Overview.cost, ih ha, wholesaleSteps?_moved]
    | _ => simp only [Syntax.moved, GroupKind.moved, Overview.cost, ih ha]
  | loop low high isLazy a ih =>
    have hempty := h.canBeEmpty (a := a) ha
    have ih := ih ha
    cases a with
    | set t => cases high <;> cases isLazy <;> rfl
    | _ =>
      simp only [Syntax.moved] at hempty ih ⊢
      unfold Overview.cost
      simp only [ih, hempty]
  | ahead negated a ih | behind negated width a ih =>
    simp only [Syntax.moved, Overview.cost, ih ha]
  | _ => rfl

/-! ## 2. Rounds that read nothing -/

theorem watched_moved (ha : a.Grounded size rank) (fresh : Bool) :
    o'.watched fresh (a.moved offset) = (o.watched fresh a).map (· + offset) := by
  induction a generalizing fresh with
  | cat a b iha ihb | alt a b iha ihb =>
    simp only [Syntax.moved, Overview.watched, iha ha.1, ihb ha.2, List.map_append]
  | group kind a ih =>
    cases kind with
    | capture g =>
      simp only [Syntax.moved, GroupKind.moved, Overview.watched, ih ha.2.2, List.map_append]
      cases fresh <;> rfl
    | _ => simp only [Syntax.moved, GroupKind.moved, Overview.watched, ih ha]
  | loop low high isLazy a ih =>
    simp only [Syntax.moved, Overview.watched, h.canBeEmpty (a := a) ha, ih ha]
    split <;> rfl
  | ahead negated a ih | behind negated width a ih =>
    cases negated with
    | true => simp only [Syntax.moved, Overview.watched, ih ha]
    | false => rfl
  | _ => rfl

end SeenAs

theorem watched_subset (o : Overview) (fresh : Bool) (a : Syntax) :
    o.watched fresh a ⊆ a.captures.map (·.1) := by
  induction a generalizing fresh with
  | cat a b iha ihb =>
    simp only [Syntax.captures, List.map_append]
    exact List.append_subset.mpr ⟨List.subset_append_of_subset_left _ (iha fresh),
      List.subset_append_of_subset_right _ (ihb fresh)⟩
  | alt a b iha ihb =>
    simp only [Syntax.captures, List.map_append]
    exact List.append_subset.mpr ⟨List.subset_append_of_subset_left _ (iha true),
      List.subset_append_of_subset_right _ (ihb true)⟩
  | group kind a ih =>
    cases kind with
    | capture g =>
      simp only [Syntax.captures, List.map_cons]
      refine List.append_subset.mpr ⟨?_, List.subset_cons_of_subset g (ih fresh)⟩
      split <;> simp
    | _ => exact ih fresh
  | loop low high isLazy a ih =>
    simp only [Overview.watched]
    split
    · exact List.nil_subset _
    · exact ih _
  | ahead negated a ih | behind negated width a ih =>
    cases negated with
    | true => exact ih true
    | false => exact List.nil_subset _
  | _ => exact List.nil_subset _

theorem onEmpty_moved {offset size : Nat} {rank : Nat → Nat} {o o' : Overview}
    (h : o.SeenAs offset size rank o') {a : Syntax} (ha : a.Grounded size rank) (fresh : Bool) :
    o'.onEmpty fresh (a.moved offset) = (o.onEmpty fresh a).moved offset := by
  have hcount : ∀ n ∈ o.watched fresh a,
      decide ((a.moved offset).references.count (n + offset) <
          o'.references.count (n + offset)) =
        decide (a.references.count n < o.references.count n) := by
    intro n hn
    obtain ⟨g, hg, rfl⟩ := List.mem_map.mp (watched_subset o fresh a hn)
    obtain ⟨⟨h1, hsize⟩, _⟩ := grounded_captures ha g hg
    rw [references_moved, List.count_map_of_injective _ _ fun _ _ => Nat.add_right_cancel,
      h.count _ h1 hsize]
  simp only [Overview.onEmpty, h.canBeEmpty ha, remembers_moved, watched_moved h ha,
    List.filter_map]
  split
  · rfl
  · split
    · rfl
    · exact congrArg (fun ns => EmptyRound.ends (ns.map (· + offset))) (List.filter_congr hcount)

/-- Where no group of a piece is referred to it makes no difference what is fresh. -/
theorem onEmpty_of_not_referred {o : Overview} {a : Syntax}
    (h : o.canBeEmpty a = true → ∀ g ∈ a.captures, g.1 ∉ o.references) (fresh fresh' : Bool) :
    o.onEmpty fresh a = o.onEmpty fresh' a := by
  unfold Overview.onEmpty
  cases he : o.canBeEmpty a with
  | false => rfl
  | true =>
    have hnone : ∀ f, (o.watched f a).filter
        (fun n => decide (a.references.count n < o.references.count n)) = [] := by
      intro f
      refine List.filter_eq_nil_iff.mpr fun n hn => ?_
      obtain ⟨g, hg, rfl⟩ := List.mem_map.mp (watched_subset o f a hn)
      simp [List.count_eq_zero_of_not_mem (h he g hg)]
    simp only [hnone]

/-! ## 3. Whole trees -/

/-- **It makes no difference what is fresh**: no reference stands inside its own group, and no group
    that is referred to stands in a piece that might read nothing and is repeated a fixed number of
    times. -/
def Overview.isSteady (o : Overview) : Syntax → Bool
  | .cat a b | .alt a b => o.isSteady a && o.isSteady b
  | .group _ a | .ahead _ a | .behind _ _ a => o.isSteady a
  | .loop low high _ a =>
    o.isSteady a && (high != some low || !o.canBeEmpty a
      || !a.captures.any fun g => o.references.contains g.1)
  | .again _ _ isInner => !isInner
  | _ => true

theorem onEmpty_steady {o : Overview} {low : Nat} {high : Option Nat} {isLazy : Bool} {a : Syntax}
    (h : o.isSteady (.loop low high isLazy a) = true) (fresh fresh' : Bool) :
    o.onEmpty (fresh || high != some low) a = o.onEmpty (fresh' || high != some low) a := by
  cases hhigh : high != some low with
  | true => rw [Bool.or_true, Bool.or_true]
  | false =>
    refine onEmpty_of_not_referred (fun he g hg hr => ?_) _ _
    simp only [Overview.isSteady, hhigh, he, Bool.not_true, Bool.false_or, Bool.and_eq_true,
      Bool.not_eq_true', List.any_eq_false, List.contains_iff_mem] at h
    exact h.2 g hg hr

/-- **The tree that is run of a pattern among others is that of the pattern by itself, moved.** -/
theorem toNode_movedAs {offset size : Nat} {rank : Nat → Nat} {o o' : Overview}
    (h : o.SeenAs offset size rank o') {a : Syntax} (ha : a.Grounded size rank)
    (hs : o.isSteady a = true) (fresh fresh' : Bool) (opened : List Nat)
    (hopen : ∀ g ∈ opened, ∀ m ∈ a.uses, rank m < rank g) :
    (o.toNode fresh a).MovedAs offset size opened (o'.toNode fresh' (a.moved offset)) := by
  induction a generalizing fresh fresh' opened with
  | text cs folded => exact .text cs
  | set t => exact .set t
  | anchor c => exact .anchor c
  | never => exact .never
  | cat a b iha ihb =>
    simp only [Overview.isSteady, Bool.and_eq_true] at hs
    exact .seq (iha ha.1 hs.1 _ _ _ fun g hg m hm => hopen g hg m (List.mem_append_left _ hm))
      (ihb ha.2 hs.2 _ _ _ fun g hg m hm => hopen g hg m (List.mem_append_right _ hm))
  | alt a b iha ihb =>
    simp only [Overview.isSteady, Bool.and_eq_true] at hs
    exact .alt (iha ha.1 hs.1 _ _ _ fun g hg m hm => hopen g hg m (List.mem_append_left _ hm))
      (ihb ha.2 hs.2 _ _ _ fun g hg m hm => hopen g hg m (List.mem_append_right _ hm))
  | group kind a ih =>
    cases kind with
    | capture g =>
      refine .group fresh fresh' ha.1.1 ha.1.2 (fun hg => ?_) (ih ha.2.2 hs _ _ _ ?_)
      · exact Nat.lt_irrefl _ (hopen g hg g List.mem_cons_self)
      · intro k hk m hm
        rcases List.mem_cons.mp hk with rfl | hk
        · exact ha.2.1 m hm
        · exact hopen k hk m (List.mem_cons_of_mem g hm)
    | atomic => exact .atomic (ih ha hs _ _ _ hopen)
    | _ => exact ih ha hs _ _ _ hopen
  | loop low high isLazy a ih =>
    have hinner : o.isSteady a = true := by
      simp only [Overview.isSteady, Bool.and_eq_true] at hs
      exact hs.1
    simp only [Syntax.moved, Overview.toNode, cost_moved h (a := a) ha]
    split
    · exact .text []
    · rw [onEmpty_moved h (a := a) ha, ← onEmpty_steady hs fresh fresh']
      exact .loop low high isLazy _ _ (ih ha hinner _ _ _ hopen)
  | ahead negated a ih => exact .ahead negated (ih ha hs _ _ _ hopen)
  | behind negated width a ih => exact .behind negated width (ih ha hs _ _ _ hopen)
  | again groups folded isInner =>
    cases isInner with
    | true => cases hs
    | false =>
      refine .again folded fun m hm => ⟨ha m hm, fun hg => ?_⟩
      exact Nat.lt_irrefl _ (hopen m hg m hm)

end Highlight.Regex
