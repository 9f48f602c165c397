import Highlight.Proofs.Regex.Nodes
import Highlight.Proofs.Regex.Settling

/-!
# The alternatives of a pattern

A pattern is one alternative or several, and what is done to it is done to each of them: the passes
over its texts, the looks behind, the tree that is run. It reads what the first of its alternatives
reads that reads anything.

* `Alternates` -- that a tree has these alternatives, held together or not;
* `captures_alternates`, `isSteady_alternates` -- what is asked of each alternative;
* `Overview.settleEach`, `settle_alternates` -- alternatives are settled one after another;
* `numbers_joinTexts`, `numbers_foldTexts` -- the passes over texts keep the groups;
* `isSteady_moved` -- whether it makes a difference what is fresh;
* `run_alternates` -- **a tree reads what the first of its alternatives reads**.
-/

namespace Highlight.Regex

/-! ## 1. Alternatives -/

/-- **A tree with its alternatives**; the last one may be held together. -/
inductive Alternates : List Syntax → Syntax → Prop
  | one (a : Syntax) : Alternates [a] a
  | held (a : Syntax) : Alternates [a] (.group .plain a)
  | more {bs : List Syntax} {b : Syntax} (a : Syntax) : Alternates bs b → Alternates (a :: bs) (.alt a b)

/-- Several alternatives as a tree; `last` is what becomes of the last one. -/
def Syntax.choice (last : Syntax → Syntax) : List Syntax → Syntax
  | [] => .empty
  | [a] => last a
  | a :: b :: bs => .alt a (choice Syntax.held (b :: bs))

section Choice

variable {last : Syntax → Syntax} {as bs : List Syntax}

theorem choice_cons (last : Syntax → Syntax) (a : Syntax) (h : bs ≠ []) :
    Syntax.choice last (a :: bs) = .alt a (Syntax.choice Syntax.held bs) := by
  cases bs with
  | nil => exact absurd rfl h
  | cons b bs => rfl

/-- Alternatives before others. -/
theorem choice_append (last : Syntax → Syntax) (ha : as ≠ []) (h : bs ≠ []) :
    Syntax.choice last (as ++ bs) = as.foldr .alt (Syntax.choice Syntax.held bs) := by
  induction as generalizing last with
  | nil => exact absurd rfl ha
  | cons a as ih =>
    rw [List.cons_append, choice_cons last a (by simp [h]), List.foldr_cons]
    cases as with
    | nil => rfl
    | cons c as => rw [ih Syntax.held (by simp)]

theorem alternates_held (a : Syntax) : Alternates [a] a.held := by
  cases a with
  | alt a b => exact .held _
  | _ => exact .one _

theorem alternates_choice (hlast : ∀ a, Alternates [a] (last a)) (h : bs ≠ []) :
    Alternates bs (Syntax.choice last bs) := by
  induction bs generalizing last with
  | nil => exact absurd rfl h
  | cons b bs ih =>
    cases bs with
    | nil => exact hlast b
    | cons c bs => exact .more b (ih alternates_held (by simp))

end Choice

/-! ## 2. What holds of each alternative -/

section Each

variable {bs : List Syntax} {a : Syntax} (h : Alternates bs a)

include h

theorem captures_alternates : a.captures = bs.flatMap Syntax.captures := by
  induction h with
  | one a | held a => simp [Syntax.captures]
  | more a _ ih => rw [List.flatMap_cons, ← ih]; rfl

theorem references_alternates : a.references = bs.flatMap Syntax.references := by
  induction h with
  | one a | held a => simp [Syntax.references]
  | more a _ ih => rw [List.flatMap_cons, ← ih]; rfl

theorem grounded_alternates {n : Nat} {rank : Nat → Nat} :
    a.Grounded n rank ↔ ∀ b ∈ bs, b.Grounded n rank := by
  induction h with
  | one a | held a => simp [Syntax.Grounded]
  | more a _ ih => simp [Syntax.Grounded, ih]

theorem isSteady_alternates (o : Overview) : o.isSteady a = bs.all o.isSteady := by
  induction h with
  | one a | held a => simp [Overview.isSteady]
  | more a _ ih => simp [Overview.isSteady, ih]

theorem joinTexts_alternates : Alternates (bs.map Syntax.joinTexts) a.joinTexts := by
  induction h with
  | one a => exact .one _
  | held a => exact .held _
  | more a _ ih => exact .more _ ih

theorem foldTexts_alternates (isBehind : Bool) :
    Alternates (bs.map (Syntax.foldTexts isBehind)) (a.foldTexts isBehind) := by
  induction h with
  | one a => exact .one _
  | held a => exact .held _
  | more a _ ih => exact .more _ ih

end Each

/-! ## 3. Settling -/

/-- Several alternatives settled one after another; `before` groups stand before the first. -/
def Overview.settleEach (o : Overview) : Nat → List Syntax → Except Fault (List Syntax)
  | _, [] => .ok []
  | before, a :: as => do
    let b ← o.settle before a
    return b :: (← o.settleEach (before + a.captures.length) as)

section Settling

variable {o o' : Overview} {before : Nat}

theorem settleEach_singleton (o : Overview) (before : Nat) (a : Syntax) :
    o.settleEach before [a] = (o.settle before a).map fun b => [b] := by
  unfold Overview.settleEach
  cases o.settle before a <;> rfl

theorem settleEach_singleton_ok {a : Syntax} {bs : List Syntax}
    (h : o.settleEach before [a] = .ok bs) : ∃ b, o.settle before a = .ok b ∧ bs = [b] := by
  rw [settleEach_singleton] at h
  cases hb : o.settle before a with
  | error e => rw [hb] at h; cases h
  | ok b =>
    rw [hb] at h
    cases h
    exact ⟨b, rfl, rfl⟩

/-- What is settled one after another is settled each for itself. -/
theorem forall₂_settleEach {as bs : List Syntax} (h : o.settleEach before as = .ok bs) :
    List.Forall₂ (fun a b => ∃ k, o.settle k a = .ok b) as bs := by
  induction as generalizing before bs with
  | nil =>
    cases h
    exact .nil
  | cons a as ih =>
    obtain ⟨b, hb, h⟩ := exists_of_bind h
    obtain ⟨cs, hcs, h⟩ := exists_of_bind h
    cases h
    exact .cons ⟨before, hb⟩ (ih hcs)

theorem settleEach_append (as bs : List Syntax) :
    o.settleEach before (as ++ bs) = (do
      let cs ← o.settleEach before as
      return cs ++ (← o.settleEach (before + (as.flatMap Syntax.captures).length) bs)) := by
  induction as generalizing before with
  | nil =>
    rw [List.nil_append]
    simp only [Overview.settleEach, bind, Except.bind, List.flatMap_nil, List.length_nil,
      Nat.add_zero]
    cases o.settleEach before bs <;> rfl
  | cons a as ih =>
    simp only [List.cons_append, Overview.settleEach, ih, List.flatMap_cons, List.length_append,
      Nat.add_assoc]
    cases o.settle before a with
    | error e => rfl
    | ok b =>
      cases o.settleEach (before + a.captures.length) as with
      | error e => rfl
      | ok cs =>
        simp only [bind, Except.bind, pure, Except.pure]
        cases o.settleEach (before + (a.captures.length + (as.flatMap Syntax.captures).length)) bs <;>
          rfl

/-- **A tree is settled where its alternatives are**, one after another. -/
theorem settle_alternates {as : List Syntax} {a : Syntax} (h : Alternates as a) {bs : List Syntax}
    (hbs : o.settleEach before as = .ok bs) : ∃ b, o.settle before a = .ok b ∧ Alternates bs b := by
  induction h generalizing before bs with
  | one a =>
    obtain ⟨b, hb, rfl⟩ := settleEach_singleton_ok hbs
    exact ⟨b, hb, .one b⟩
  | held a =>
    obtain ⟨b, hb, rfl⟩ := settleEach_singleton_ok hbs
    exact ⟨.group .plain b, by simp only [Overview.settle, hb]; rfl, .held b⟩
  | @more as b a _ ih =>
    obtain ⟨c, hc, hbs⟩ := exists_of_bind hbs
    obtain ⟨cs, hcs, hbs⟩ := exists_of_bind hbs
    cases hbs
    obtain ⟨d, hd, halt⟩ := ih hcs
    refine ⟨.alt c d, ?_, .more c halt⟩
    simp only [Overview.settle, hc, hd]
    rfl

/-- The alternatives of a tree are settled one after another where it is. -/
theorem settleEach_alternates {as : List Syntax} {a b : Syntax} (h : Alternates as a)
    (hb : o.settle before a = .ok b) : ∃ bs, o.settleEach before as = .ok bs ∧ Alternates bs b := by
  induction h generalizing before b with
  | one a => exact ⟨[b], by rw [settleEach_singleton, hb]; rfl, .one b⟩
  | held a =>
    simp only [Overview.settle] at hb
    obtain ⟨c, hc, hb⟩ := exists_of_bind hb
    cases hb
    exact ⟨[c], by rw [settleEach_singleton, hc]; rfl, .held c⟩
  | more a _ ih =>
    simp only [Overview.settle] at hb
    obtain ⟨c, hc, hb⟩ := exists_of_bind hb
    obtain ⟨d, hd, hb⟩ := exists_of_bind hb
    cases hb
    obtain ⟨ds, hds, halt⟩ := ih hd
    refine ⟨c :: ds, ?_, .more c halt⟩
    simp only [Overview.settleEach, hc, hds]
    rfl

/-- Alternatives among others are settled as by themselves. -/
theorem settleEach_moved {offset n : Nat} {rank : Nat → Nat} (h : o.SeenAs offset n rank o') :
    ∀ {as : List Syntax} (before : Nat), (∀ a ∈ as, a.Grounded n rank) →
      o'.settleEach (before + offset) (as.map (Syntax.moved offset)) =
        (o.settleEach before as).map (List.map (Syntax.moved offset))
  | [], _, _ => rfl
  | a :: as, before, ha => by
      have hrest := settleEach_moved h (before + a.captures.length) fun b (hb : b ∈ as) =>
        ha b (List.mem_cons_of_mem a hb)
      simp only [List.map_cons, Overview.settleEach, settle_moved h (ha a (by simp)), captures_moved,
        List.length_map, Nat.add_right_comm before offset, hrest]
      cases o.settle before a with
      | error e => rfl
      | ok b => cases o.settleEach (before + a.captures.length) as <;> rfl

end Settling

/-! ## 4. The groups behind the passes over texts -/

theorem captures_join (a b : Syntax) : (a.join b).captures = a.captures ++ b.captures := by
  unfold Syntax.join
  split
  · split <;> rfl
  · split <;> rfl
  · rfl

/-- Joining texts keeps the groups and their order. -/
theorem numbers_joinTexts (a : Syntax) :
    a.joinTexts.captures.map (·.1) = a.captures.map (·.1) := by
  induction a with
  | cat a b iha ihb =>
    cases a with
    | text cs f =>
      simp only [Syntax.joinTexts, captures_join, Syntax.captures, List.map_append, ihb]
    | _ => exact List.map_append.trans ((congrArg₂ (· ++ ·) iha ihb).trans List.map_append.symm)
  | alt a b iha ihb => simp only [Syntax.joinTexts, Syntax.captures, List.map_append, iha, ihb]
  | group kind a ih =>
    cases kind <;> simp only [Syntax.joinTexts, Syntax.captures, List.map_cons, ih]
  | loop low high isLazy a ih | ahead negated a ih | behind negated width a ih => exact ih
  | _ => rfl

theorem captures_loopOver (low : Nat) (high : Option Nat) (isLazy : Bool) (a : Syntax) :
    (Syntax.loopOver low high isLazy a).captures = a.captures := by
  cases a with
  | text cs folded =>
    unfold Syntax.loopOver
    simp only
    split <;> rfl
  | _ => rfl

/-- Folding texts keeps the groups and their order. -/
theorem numbers_foldTexts (isBehind : Bool) (a : Syntax) :
    (a.foldTexts isBehind).captures.map (·.1) = a.captures.map (·.1) := by
  induction a generalizing isBehind with
  | text cs folded =>
    cases folded with
    | true =>
      exact congrArg (List.map (·.1)) (captures_of_isLeaf (isLeaf_folded isBehind cs))
    | false => rfl
  | cat a b iha ihb | alt a b iha ihb =>
    simp only [Syntax.foldTexts, Syntax.captures, List.map_append, iha, ihb]
  | group kind a ih =>
    cases kind <;> simp only [Syntax.foldTexts, Syntax.captures, List.map_cons, ih]
  | loop low high isLazy a ih =>
    rw [Syntax.foldTexts, captures_loopOver]
    exact ih isBehind
  | ahead negated a ih | behind negated width a ih => exact ih _
  | _ => rfl

/-! ## 5. The trees that are run -/

/-- Whether it makes a difference in a pattern what is fresh is the same among others. -/
theorem isSteady_moved {offset n : Nat} {rank : Nat → Nat} {o o' : Overview}
    (h : o.SeenAs offset n rank o') {a : Syntax} (ha : a.Grounded n rank) :
    o'.isSteady (a.moved offset) = o.isSteady a := by
  induction a with
  | cat a b iha ihb | alt a b iha ihb =>
    simp only [Syntax.moved, Overview.isSteady, iha ha.1, ihb ha.2]
  | group kind a ih =>
    cases kind with
    | capture g => simp only [Syntax.moved, GroupKind.moved, Overview.isSteady, ih ha.2.2]
    | _ => simp only [Syntax.moved, GroupKind.moved, Overview.isSteady, ih ha]
  | loop low high isLazy a ih =>
    simp only [Syntax.moved, Overview.isSteady, ih ha, h.canBeEmpty (a := a) ha,
      captures_referred h (a := a) ha]
  | ahead negated a ih | behind negated width a ih =>
    simp only [Syntax.moved, Overview.isSteady, ih ha]
  | _ => rfl

/-- That a tree is run for an alternative. -/
def Overview.RunsAs (o : Overview) (a : Syntax) (n : Node) : Prop := ∃ fresh, n = o.toNode fresh a

/-- What the first of some trees reads that reads anything. -/
def firstRun (text : Text) (origin i : Nat) (nodes : List Node) : Option Place :=
  nodes.findSome? fun n => n.run text origin ⟨i, []⟩ some

theorem firstRun_cons (text : Text) (origin i : Nat) (n : Node) (ns : List Node) :
    firstRun text origin i (n :: ns) =
      (n.run text origin ⟨i, []⟩ some <|> firstRun text origin i ns) := by
  rw [firstRun, List.findSome?_cons]
  cases n.run text origin ⟨i, []⟩ some <;> rfl

theorem firstRun_append (text : Text) (origin i : Nat) (ms ns : List Node) :
    firstRun text origin i (ms ++ ns) =
      (firstRun text origin i ms <|> firstRun text origin i ns) := by
  rw [firstRun, List.findSome?_append, Option.orElse_eq_orElse, Option.orElse_eq_or]
  rfl

/-- **A tree reads what the first of its alternatives reads that reads anything.** -/
theorem run_alternates {o : Overview} {bs : List Syntax} {a : Syntax} (h : Alternates bs a)
    (fresh : Bool) :
    ∃ nodes, List.Forall₂ o.RunsAs bs nodes ∧ ∀ text origin i,
      (o.toNode fresh a).run text origin ⟨i, []⟩ some = firstRun text origin i nodes := by
  induction h generalizing fresh with
  | one a | held a =>
    refine ⟨[o.toNode fresh a], .cons ⟨fresh, rfl⟩ .nil, fun text origin i => ?_⟩
    simp only [firstRun, List.findSome?_cons, List.findSome?_nil, Overview.toNode]
    cases (o.toNode fresh a).run text origin ⟨i, []⟩ some <;> rfl
  | more a _ ih =>
    obtain ⟨nodes, hnodes, hrun⟩ := ih true
    refine ⟨o.toNode true a :: nodes, .cons ⟨true, rfl⟩ hnodes, fun text origin i => ?_⟩
    rw [firstRun_cons, ← hrun]
    rfl

/-- Trees that are moved read what they read by themselves. -/
theorem same_firstRun {offset size : Nat} {as : List Syntax} {o o' : Overview}
    {ms ns : List Node} {rank : Nat → Nat} (h : o.SeenAs offset size rank o')
    (ha : ∀ a ∈ as, a.Grounded size rank) (hs : ∀ a ∈ as, o.isSteady a = true)
    (hms : List.Forall₂ o.RunsAs as ms)
    (hns : List.Forall₂ o'.RunsAs (as.map (Syntax.moved offset)) ns) (text : Text) (origin i : Nat) :
    Option.Rel (Same offset size [] []) (firstRun text origin i ms) (firstRun text origin i ns) := by
  induction hms generalizing ns with
  | nil =>
    cases hns
    exact .none
  | @cons a m as ms hm _ ih =>
    cases hns with
    | @cons _ n _ ns hn hns =>
      obtain ⟨fresh, rfl⟩ := hm
      obtain ⟨fresh', rfl⟩ := hn
      have hfirst := same_run
        (toNode_movedAs h (ha a (by simp)) (hs a (by simp)) fresh fresh' [] (by simp)) text origin
        (⟨rfl, .start, fun _ _ _ _ => rfl⟩ : Same offset size [] [] ⟨i, []⟩ ⟨i, []⟩)
        (show SameRest offset size [] [] (Same offset size [] []) some some from
          fun q q' hq => .some hq)
      have hrest := ih (fun b hb => ha b (List.mem_cons_of_mem a hb))
        (fun b hb => hs b (List.mem_cons_of_mem a hb)) hns
      unfold firstRun at hrest ⊢
      rw [List.findSome?_cons, List.findSome?_cons]
      generalize (o.toNode fresh a).run text origin ⟨i, []⟩ some = x at hfirst ⊢
      generalize (o'.toNode fresh' (a.moved offset)).run text origin ⟨i, []⟩ some = y at hfirst ⊢
      cases hfirst with
      | none => exact hrest
      | some hq => exact .some hq

end Highlight.Regex
