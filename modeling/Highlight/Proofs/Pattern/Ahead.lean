import Highlight.Proofs.Pattern.Sequenced

/-!
# Patterns with a look ahead behind them

A pattern with a look ahead at another one written behind it is not always read so: a bar in it
parts it from the look ahead, references of the other one are not moved, and options that it leaves
set hold there as well. Where it is read so, the other one reads something behind every match.

* `looksAhead` -- whether a pattern is read with a look ahead behind it;
* `EndsIn` -- a row of pieces with another piece behind them;
* `reads_ahead` -- **behind a match the pattern that is looked ahead at reads something**.
-/

namespace Highlight.Pattern

open Regex

/-! ## 1. Rows -/

/-- **Whether a look ahead behind a pattern is read as such**: what is read is the tree of the pattern
    and, in the same row, a look ahead at the tree of the other one, with its groups moved behind
    those of the first. -/
def looksAhead (folded : Bool) (before first : String) : Bool :=
  match readSyntax before.toList folded, readSyntax first.toList folded,
    readSyntax (join [before, lookahead first]).toList folded with
  | .ok (a, n), .ok (b, k), .ok whole => whole == (a.followedBy (.ahead false (b.moved n)), n + k)
  | _, _, _ => false

/-- A row of pieces that use groups among the first `n`, which open `k` groups, and `x` behind it. -/
inductive EndsIn (n : Nat) (rank : Nat → Nat) (x : Syntax) : Nat → Syntax → Prop
  | last {a : Syntax} : a.Grounded n rank → EndsIn n rank x a.captures.length (.cat a x)
  | more {a b : Syntax} {k : Nat} : a.Grounded n rank → EndsIn n rank x k b →
      EndsIn n rank x (a.captures.length + k) (.cat a b)

section Rows

variable {n k : Nat} {rank : Nat → Nat} {x t : Syntax}

theorem endsIn_followedBy (a : Syntax) (h : a.Grounded n rank) :
    EndsIn n rank x a.captures.length (a.followedBy x) := by
  induction a with
  | cat a b _ ihb =>
    rw [Syntax.captures, List.length_append]
    exact .more h.1 (ihb h.2)
  | _ => exact .last h

/-- Another piece without groups may come first. -/
theorem EndsIn.head {a b : Syntax} (h : EndsIn n rank x k (.cat a b)) (ha : a.captures = [])
    {a' : Syntax} (hleaf : a'.isLeaf = true) : EndsIn n rank x k (.cat a' b) := by
  have hgrounded : a'.Grounded n rank := grounded_of_isLeaf hleaf
  have hlength : a.captures.length = a'.captures.length := by
    rw [ha, captures_of_isLeaf hleaf]
  cases h with
  | last => exact hlength ▸ .last hgrounded
  | more _ hb => exact hlength ▸ .more hgrounded hb

theorem EndsIn.join (h : EndsIn n rank x k t) (cs : List Char) (f : Bool) :
    EndsIn n rank x k ((Syntax.text cs f).join t) := by
  have hmore : EndsIn n rank x k (.cat (.text cs f) t) :=
    Nat.zero_add k ▸ .more (a := .text cs f) trivial h
  cases t with
  | cat a b =>
    cases a with
    | text ds g =>
      rw [Syntax.join]
      split
      · exact h.head rfl rfl
      · exact hmore
    | _ => exact hmore
  | _ => cases h

theorem EndsIn.joinTexts {negated : Bool} {y : Syntax} (h : EndsIn n rank (.ahead negated y) k t) :
    EndsIn n rank (.ahead negated y.joinTexts) k t.joinTexts := by
  have hlength : ∀ a : Syntax, a.joinTexts.captures.length = a.captures.length := fun a => by
    simpa using congrArg List.length (numbers_joinTexts a)
  induction h with
  | @last a ha =>
    have hkept := (keeps_joinTexts a).grounded n rank ha
    cases a with
    | text cs f => exact .last (a := .text cs f) trivial
    | _ => exact hlength _ ▸ .last hkept
  | @more a b k ha _ ih =>
    have hkept := (keeps_joinTexts a).grounded n rank ha
    cases a with
    | text cs f =>
      rw [show (Syntax.text cs f).captures.length = 0 from rfl, Nat.zero_add]
      exact ih.join cs f
    | _ => exact hlength _ ▸ .more hkept ih

theorem EndsIn.foldTexts {negated : Bool} {y : Syntax} (h : EndsIn n rank (.ahead negated y) k t) :
    EndsIn n rank (.ahead negated (y.foldTexts false)) k (t.foldTexts false) := by
  have hlength : ∀ a : Syntax, (a.foldTexts false).captures.length = a.captures.length := fun a => by
    simpa using congrArg List.length (numbers_foldTexts false a)
  induction h with
  | @last a ha => exact hlength a ▸ .last ((keeps_foldTexts false a).grounded n rank ha)
  | @more a b k ha _ ih => exact hlength a ▸ .more ((keeps_foldTexts false a).grounded n rank ha) ih

/-- A row is settled piece by piece. -/
theorem EndsIn.settle {o : Overview} {before : Nat} {t' : Syntax} (h : EndsIn n rank x k t)
    (ht : o.settle before t = .ok t') :
    ∃ x' k', o.settle (before + k) x = .ok x' ∧ EndsIn n rank x' k' t' := by
  induction h generalizing before t' with
  | @last a ha =>
    obtain ⟨a', ha', ht⟩ := exists_of_bind ht
    obtain ⟨x', hx', ht⟩ := exists_of_bind ht
    cases ht
    exact ⟨x', _, hx', .last ((keeps_settle ha').grounded n rank ha)⟩
  | @more a b k ha _ ih =>
    obtain ⟨a', ha', ht⟩ := exists_of_bind ht
    obtain ⟨b', hb', ht⟩ := exists_of_bind ht
    cases ht
    obtain ⟨x', k', hx', hbehind⟩ := ih hb'
    rw [Nat.add_assoc] at hx'
    exact ⟨x', _, hx', .more ((keeps_settle ha').grounded n rank ha) hbehind⟩

/-- What stands behind a row stands among its pieces. -/
theorem EndsIn.among {size : Nat} {negated : Bool} {b : Syntax}
    (h : EndsIn n rank (.ahead negated (b.moved n)) k t) : Among n size b t := by
  have hcaptures : ∀ {a : Syntax}, a.Grounded n rank → ∀ c ∈ a.captures, c.1 ≤ n := fun ha c hc =>
    (grounded_captures ha c hc).1.2
  have hreferences : ∀ {a : Syntax}, a.Grounded n rank → ∀ m ∈ a.references, m ≤ n := fun ha m hm =>
    (grounded_references ha m hm).2
  induction h with
  | @last a ha =>
    refine ⟨⟨a.captures, [], ?_, hcaptures ha, by simp⟩, ⟨a.references, [], ?_, hreferences ha,
      by simp⟩⟩
    · rw [← captures_moved, List.append_nil]
      rfl
    · rw [← references_moved, List.append_nil]
      rfl
  | @more a b k ha _ ih =>
    obtain ⟨cs, cs', hcs, hbefore, hafter⟩ := ih.captures
    obtain ⟨ms, ms', hms, hbefore', hafter'⟩ := ih.references
    refine ⟨⟨a.captures ++ cs, cs', ?_, fun c hc => ?_, hafter⟩,
      ⟨a.references ++ ms, ms', ?_, fun m hm => ?_, hafter'⟩⟩
    · rw [Syntax.captures, hcs]
      simp only [List.append_assoc]
    · exact (List.mem_append.mp hc).elim (hcaptures ha c) (hbefore c)
    · rw [Syntax.references, hms]
      simp only [List.append_assoc]
    · exact (List.mem_append.mp hm).elim (hreferences ha m) (hbefore' m)

/-- **What stands behind a row is read where the row has been read**, which has read none but the
    first groups. -/
theorem EndsIn.run (h : EndsIn n rank x k t) {o : Overview} {text : Text} {origin : Nat} {fresh : Bool}
    {here : Place} {rest : Rest} {r : Place} (hpos : here.pos ≤ text.size)
    (hrun : (o.toNode fresh t).run text origin here rest = some r) :
    ∃ q : Place, (o.toNode fresh x).run text origin q rest = some r ∧ q.pos ≤ text.size ∧
      ∀ g, n < g → q.captures.find? g = here.captures.find? g := by
  have hpiece : ∀ {a b : Syntax} {here : Place}, a.Grounded n rank → here.pos ≤ text.size →
      (o.toNode fresh (.cat a b)).run text origin here rest = some r →
      ∃ q : Place, (o.toNode fresh b).run text origin q rest = some r ∧ q.pos ≤ text.size ∧
        ∀ g, n < g → q.captures.find? g = here.captures.find? g := by
    intro a b here ha hpos hrun
    obtain ⟨q, hon, hq⟩ := advances_run (o.toNode fresh a) here _ r hpos hrun
    refine ⟨q, hq, hon.le_size, fun g hg => hon.others g fun hmem => ?_⟩
    obtain ⟨c, hc, rfl⟩ := List.mem_map.mp (groups_toNode o fresh a hmem)
    exact absurd (grounded_captures ha c hc).1.2 (Nat.not_le_of_lt hg)
  induction h generalizing here with
  | last ha => exact hpiece ha hpos hrun
  | more ha _ ih =>
    obtain ⟨q, hq, hsize, hkept⟩ := hpiece ha hpos hrun
    obtain ⟨q', hq', hsize', hkept'⟩ := ih hsize hq
    exact ⟨q', hq', hsize', fun g hg => (hkept' g hg).trans (hkept g hg)⟩

end Rows

/-! ## 2. Looking ahead -/

section Looks

variable {n k : Nat} {rank : Nat → Nat} {t t' : Syntax} {p q : List Char × Syntax}

/-- **A pattern behind a row is settled there as it is by itself**, and what is run of it there is its
    tree, moved. -/
theorem EndsIn.settled (h : EndsIn n rank (.ahead false (p.2.moved n)) n t) (hp : Settles p q)
    (ht : t.settled = .ok t') : ∃ k, EndsIn n rank (.ahead false (q.2.moved n)) k t' ∧
      (compiledPart p q).node.MovedAs n (opens p.1) []
        ((t'.overview t.caselessGroups).toNode false (q.2.moved n)) := by
  obtain ⟨rank', hrank⟩ := hp.sound
  have hcase := fun g h1 (hg : g ≤ opens p.1) => h.among.caseless h1 hg
  have hready := h.joinTexts.foldTexts
  rw [joinTexts_moved, foldTexts_moved] at hready
  have hgrounded := (stage_ready p).keeps.grounded _ _ hrank
  have hmoved := settle_moved (hready.among.seenAs hgrounded hcase) hgrounded 0
  obtain ⟨x, k, hx, hrow⟩ := hready.settle ht
  obtain ⟨y, hy, hx⟩ := exists_of_bind hx
  cases hx
  rw [show y = q.2.moved n from Except.ok.inj (hy.symm.trans (hmoved.trans
    (congrArg (Except.map _) (settle_of_settles hp))))] at hrow
  have hgrounded' := (stage_settledPart hp.settled).keeps.grounded _ _ hrank
  exact ⟨k, hrow, toNode_movedAs (hrow.among.seenAs hgrounded' hcase) hgrounded' hp.steady false false
    [] (by simp)⟩

/-- **Where a row is read with a look ahead behind it, what it looks ahead at is read there.** -/
theorem EndsIn.looks (h : EndsIn n rank (.ahead false (q.2.moved n)) k t') {o : Overview}
    (hmoved : (compiledPart p q).node.MovedAs n (opens p.1) [] (o.toNode false (q.2.moved n)))
    {text : Text} {origin i : Nat} {r : Place} (hi : i ≤ text.size)
    (hrun : (o.toNode false t').run text origin ⟨i, []⟩ some = some r) :
    ((compiledPart p q).matchFrom text origin r.pos).isSome = true := by
  obtain ⟨here, hlook, _, hunread⟩ := h.run hi hrun
  replace hlook : afterLook false here some
      ((o.toNode false (q.2.moved n)).run text origin here some) = some r := hlook
  have hsame : Same n (opens p.1) here.captures [] ⟨here.pos, []⟩ here :=
    ⟨rfl, .start, fun g h1 _ _ => hunread (g + n) (by omega)⟩
  have hrel : Option.Rel (fun _ _ => True)
      ((compiledPart p q).node.run text origin ⟨here.pos, []⟩ some)
      ((o.toNode false (q.2.moved n)).run text origin here some) :=
    same_run hmoved text origin hsame fun _ _ _ => .some trivial
  generalize (o.toNode false (q.2.moved n)).run text origin here some = found at hlook hrel
  cases found with
  | none => cases hlook
  | some there =>
    cases hlook
    rw [Regex.matchFrom, Option.isSome_map]
    generalize (compiledPart p q).node.run text origin ⟨here.pos, []⟩ some = own at hrel ⊢
    cases hrel
    rfl

end Looks

section Ahead

variable {folded : Bool} {before first : String} {regex whole : Regex}

theorem exists_trees (h : looksAhead folded before first = true) : ∃ a n b k,
    readSyntax before.toList folded = .ok (a, n) ∧ readSyntax first.toList folded = .ok (b, k) ∧
      readSyntax (join [before, lookahead first]).toList folded =
        .ok (a.followedBy (.ahead false (b.moved n)), n + k) := by
  unfold looksAhead at h
  split at h
  · rename_i a n b k t ha hb ht
    exact ⟨a, n, b, k, ha, hb, ht.trans (congrArg _ (beq_iff_eq.mp h))⟩
  · cases h

/-- What a pattern is compiled to that is read as a tree with sound references. -/
theorem compiled_of_readSyntax {pattern : String} {t : Syntax} {n : Nat}
    (hc : compile pattern folded = .ok whole) (ht : readSyntax pattern.toList folded = .ok (t, n))
    (hr : ∀ m ∈ t.references, m ≤ n) : ∃ t', t.settled = .ok t' ∧
      whole = ⟨(t'.overview t.caselessGroups).toNode false t', n⟩ := by
  rw [compile, readPattern_of_readSyntax ht hr] at hc
  cases hs : t.settled with
  | error e => rw [hs] at hc; cases hc
  | ok t' =>
    rw [hs] at hc
    cases hc
    exact ⟨t', rfl, rfl⟩

/-- **Behind a match of a pattern with a look ahead, what it looks ahead at reads something**, wherever
    the search for that began. -/
theorem reads_ahead (h : looksAhead folded before first = true) (hbefore : Plain folded before)
    (hfirst : Plain folded first) (hr : compile first folded = .ok regex)
    (horigin : regex.node.ignoresOrigin = true)
    (hw : compile (join [before, lookahead first]) folded = .ok whole) {text : Text} {origin i : Nat}
    {m : Found} (hi : i ≤ text.size) (hm : whole.matchFrom text origin i = some m) (origin' : Nat) :
    (regex.matchFrom text origin' m.span.stop).isSome = true := by
  obtain ⟨a, n, b, k, ha, hb, hwhole⟩ := exists_trees h
  -- The two patterns by themselves.
  obtain ⟨p, q, hchars, hstanding, hsettles, rfl⟩ := exists_compiles hfirst hr
  have hown := hstanding.readSyntax
  rw [hchars, hb] at hown
  obtain ⟨rfl, rfl⟩ := Prod.mk.inj (Except.ok.inj hown)
  obtain ⟨rank', hrank'⟩ := hsettles.sound
  rw [hchars] at hrank'
  obtain ⟨rfl, a', hstanding'⟩ := exists_standing hbefore.clear ha folded
  obtain ⟨rfl, _⟩ := Prod.mk.inj (Except.ok.inj (ha.symm.trans hstanding'.readSyntax))
  obtain ⟨rank, hrank⟩ := exists_grounded hstanding'.holds
  have hlength : a.captures.length = opens before.toList := by
    simpa using congrArg List.length hstanding'.holds.numbers
  -- The row of both.
  obtain ⟨t, ht, rfl⟩ := compiled_of_readSyntax hw hwhole fun m hm => by
    rw [references_followedBy] at hm
    rcases List.mem_append.mp hm with hm | hm
    · exact Nat.le_add_right_of_le (grounded_references hrank m hm).2
    · rw [Syntax.references, references_moved] at hm
      obtain ⟨m', hm', rfl⟩ := List.mem_map.mp hm
      have := (grounded_references hrank' m' hm').2
      omega
  have hrow := endsIn_followedBy (x := .ahead false (p.2.moved (opens before.toList))) a hrank
  rw [hlength] at hrow
  obtain ⟨k, hrow', hmoved⟩ := hrow.settled hsettles ht
  obtain ⟨r, hrun, rfl⟩ := Option.map_eq_some_iff.mp hm
  have hlooks := hrow'.looks hmoved hi hrun
  rw [Regex.matchFrom] at hlooks ⊢
  rwa [run_origin horigin text origin' origin]

end Ahead

end Highlight.Pattern
