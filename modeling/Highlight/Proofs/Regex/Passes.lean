import Highlight.Proofs.Regex.Groups
import Highlight.Regex.Behind

/-!
# What is done to a tree before it is run

Between reading and running, the texts of a tree are joined and replaced by what they can read, and
loops in looks behind are made shorter. None of this minds by which numbers groups go, and nothing
refers to a group afterwards that did not refer to it before.

* `moved_row`, `moved_anyOf`, `joinTexts_moved`, `foldTexts_moved`, `shortened_moved` -- trees with
  their groups moved;
* `Syntax.uses` -- the groups of a tree, and those that it refers to from outside;
* `Syntax.Grounded` -- that these are among the first so many, and that a group uses groups of
  lower rank only;
* `exists_grounded` -- that the groups of a pattern that has been read have ranks;
* `Keeps` -- that a tree comes from another one, as far as groups go;
* `keeps_joinTexts`, `keeps_foldTexts`, `keeps_shortened` -- what is done to a tree.
-/

namespace Highlight.Regex

/-! ## 1. Rows and alternatives -/

section Moved

variable (offset : Nat)

theorem moved_row : ∀ as : List Syntax,
    (Syntax.row as).moved offset = Syntax.row (as.map (Syntax.moved offset))
  | [] => rfl
  | [_] => rfl
  | a :: b :: as => by
      simp only [Syntax.row, List.map_cons, moved_join, moved_row (b :: as)]

theorem moved_anyOf (a : Syntax) (bs : List Syntax) :
    (a.anyOf bs).moved offset = (a.moved offset).anyOf (bs.map (Syntax.moved offset)) := by
  induction bs generalizing a with
  | nil => rfl
  | cons b bs ih => simp only [Syntax.anyOf, Syntax.moved, List.map_cons, ih]

end Moved

/-! ## 2. What texts are replaced by -/

theorem isLeaf_lettersFor (c : Char) : (lettersFor c).isLeaf = true := by
  unfold lettersFor
  split
  · exact isLeaf_oneOf _
  · simp only [Syntax.isLeaf, isLeaf_oneOf, isLeaf_letters, Bool.and_self]

theorem isLeaf_joinedFor {cs : List Char} {a : Syntax} (h : joinedFor? cs = some a) :
    a.isLeaf = true := by
  unfold joinedFor? at h
  simp only at h
  split at h
  · cases h
  · cases h
    simp only [Syntax.isLeaf, isLeaf_oneOf, isLeaf_letters, Bool.and_self]

theorem isLeaf_piecesFor (cs : List Char) : ∀ a ∈ piecesFor cs, a.isLeaf = true := by
  fun_induction piecesFor cs with
  | case1 => simp
  | case2 c => simp [isLeaf_lettersFor]
  | case3 c d a h => simpa using isLeaf_joinedFor h
  | case4 c d h ih =>
    intro a ha
    rcases List.mem_cons.mp ha with rfl | ha
    · exact isLeaf_lettersFor c
    · exact ih a ha
  | case5 c d e cs a h ih =>
    intro b hb
    rcases List.mem_cons.mp hb with rfl | hb
    · exact isLeaf_joinedFor h
    · exact ih b hb
  | case6 c d e cs a h h' ih =>
    intro b hb
    rcases List.mem_cons.mp hb with rfl | hb
    · exact isLeaf_joinedFor h
    · exact ih b hb
  | case7 c d e cs h h' ih =>
    intro a ha
    rcases List.mem_cons.mp ha with rfl | ha
    · exact isLeaf_lettersFor c
    · exact ih a ha

/-- What a text is replaced by has no groups. -/
theorem isLeaf_folded (isBehind : Bool) (cs : List Char) :
    (Syntax.row (if isBehind then narrowPiecesFor cs else piecesFor cs)).isLeaf = true := by
  refine isLeaf_row fun a ha => ?_
  split at ha
  · obtain ⟨c, _, rfl⟩ := List.mem_map.mp ha
    exact isLeaf_oneOf _
  · exact isLeaf_piecesFor cs a ha

/-! ## 3. Moved groups -/

section Moved

variable (offset : Nat)

theorem joinTexts_moved (a : Syntax) :
    (a.moved offset).joinTexts = a.joinTexts.moved offset := by
  induction a with
  | cat a b iha ihb =>
    cases a with
    | text cs f => simp only [Syntax.moved, Syntax.joinTexts, moved_join, ihb]
    | set _ | anchor _ | never | again _ _ _ => simp only [Syntax.moved, Syntax.joinTexts, ihb]
    | _ => simpa only [Syntax.moved, Syntax.joinTexts, ihb, Syntax.cat.injEq, and_true] using iha
  | alt a b iha ihb => simp only [Syntax.moved, Syntax.joinTexts, iha, ihb]
  | group kind a ih | loop low high isLazy a ih | ahead negated a ih
  | behind negated width a ih => simp only [Syntax.moved, Syntax.joinTexts, ih]
  | _ => rfl

theorem loopOver_moved (low : Nat) (high : Option Nat) (isLazy : Bool) (a : Syntax) :
    Syntax.loopOver low high isLazy (a.moved offset) =
      (Syntax.loopOver low high isLazy a).moved offset := by
  cases a with
  | text cs folded =>
    simp only [Syntax.moved, Syntax.loopOver]
    split <;> rfl
  | _ => rfl

theorem foldTexts_moved (isBehind : Bool) (a : Syntax) :
    (a.moved offset).foldTexts isBehind = (a.foldTexts isBehind).moved offset := by
  induction a generalizing isBehind with
  | text cs folded =>
    cases folded with
    | true => exact (moved_of_isLeaf offset (isLeaf_folded isBehind cs)).symm
    | false => rfl
  | cat a b iha ihb | alt a b iha ihb => simp only [Syntax.moved, Syntax.foldTexts, iha, ihb]
  | group kind a ih | ahead negated a ih | behind negated width a ih =>
    simp only [Syntax.moved, Syntax.foldTexts, ih]
  | loop low high isLazy a ih =>
    simp only [Syntax.moved, Syntax.foldTexts, ih, loopOver_moved]
  | _ => rfl

theorem head?_moved (a : Syntax) : (a.moved offset).head? = a.head?.map (Syntax.moved offset) := by
  induction a with
  | text cs folded =>
    simp only [Syntax.moved, Syntax.head?]
    split <;> rfl
  | set t =>
    simp only [Syntax.moved, Syntax.head?]
    split <;> rfl
  | cat a b iha => exact iha
  | loop low high isLazy a ih =>
    simp only [Syntax.moved, Syntax.head?]
    split
    · rfl
    · exact ih
  | group kind a ih =>
    cases kind with
    | plain => rfl
    | _ => exact ih
  | ahead negated a ih =>
    cases negated with
    | true => rfl
    | false => exact ih
  | _ => rfl

theorem excludes_moved (a b : Syntax) :
    excludes (a.moved offset) (b.moved offset) = excludes a b := by
  cases a with
  | text cs f => cases b <;> rfl
  | set t => cases b with
    | text cs f => cases cs <;> rfl
    | _ => rfl
  | _ => rfl

theorem isStrict_moved (a : Syntax) : (a.moved offset).isStrict = a.isStrict := by
  cases a <;> rfl

theorem isSimple_moved (a : Syntax) : (a.moved offset).isSimple = a.isSimple := by
  cases a <;> rfl

theorem givesNothingBack_moved (a b : Syntax) :
    (a.moved offset).givesNothingBack (b.moved offset) = a.givesNothingBack b := by
  induction a with
  | group kind a ih =>
    cases kind with
    | capture n => exact ih
    | _ => rfl
  | loop low high isLazy a =>
    cases high <;> cases isLazy <;> try rfl
    simp only [Syntax.moved, Syntax.givesNothingBack, isStrict_moved, head?_moved]
    cases a.head? <;> cases b.head? <;>
      simp only [Option.map_some, Option.map_none, excludes_moved]
  | _ => rfl

theorem shortenedRow_moved (a : Syntax) :
    (a.moved offset).shortenedRow = a.shortenedRow.moved offset := by
  induction a with
  | loop low high isLazy a => simp only [Syntax.moved, Syntax.shortenedRow, isSimple_moved]
  | cat a b _ ihb =>
    cases a with
    | loop low high isLazy c =>
      have hback := givesNothingBack_moved offset (.loop low high isLazy c) b.first
      rw [moved_first, Syntax.moved] at hback
      simp only [Syntax.moved, Syntax.shortenedRow, isSimple_moved, hback, ihb]
      split
      · rfl
      · split <;> rfl
    | _ => rfl
  | _ => rfl

theorem shortenedEach_moved (a : Syntax) :
    (a.moved offset).shortenedEach = a.shortenedEach.moved offset := by
  induction a with
  | alt a b _ ihb =>
    simp only [Syntax.moved, Syntax.shortenedEach, shortenedRow_moved, ihb]
  | _ => exact shortenedRow_moved offset _

theorem shortened_moved (a : Syntax) :
    (a.moved offset).shortened = a.shortened.moved offset := by
  cases a with
  | group kind a =>
    cases kind with
    | plain => exact congrArg (Syntax.group .plain) (shortenedEach_moved offset a)
    | _ => rfl
  | _ => exact shortenedEach_moved offset _

end Moved

/-! ## 4. References and ranks -/

/-- The groups of a tree, and those that it refers to from outside. -/
def Syntax.uses : Syntax → List Nat
  | .cat a b | .alt a b => a.uses ++ b.uses
  | .group (.capture g) a => g :: a.uses
  | .group _ a | .loop _ _ _ a | .ahead _ a | .behind _ _ a => a.uses
  | .again groups _ isInner => if isInner then [] else groups
  | _ => []

/-- The groups of a tree and those that it refers to are among the first `n`. In a group there are
    groups of lower rank only, and references from outside to such groups only. -/
def Syntax.Grounded (n : Nat) (rank : Nat → Nat) : Syntax → Prop
  | .cat a b | .alt a b => a.Grounded n rank ∧ b.Grounded n rank
  | .group (.capture g) a =>
    (1 ≤ g ∧ g ≤ n) ∧ (∀ m ∈ a.uses, rank m < rank g) ∧ a.Grounded n rank
  | .group _ a | .loop _ _ _ a | .ahead _ a | .behind _ _ a => a.Grounded n rank
  | .again groups _ _ => ∀ m ∈ groups, 1 ≤ m ∧ m ≤ n
  | _ => True

theorem uses_group (kind : GroupKind) (a : Syntax) : a.uses ⊆ (Syntax.group kind a).uses := by
  cases kind with
  | capture g => exact List.subset_cons_self g _
  | _ => exact List.Subset.refl _

section Grounded

variable {n : Nat} {rank : Nat → Nat}

/-- What holds of the groups of a tree in which groups use lower ones. -/
theorem grounded_captures {a : Syntax} (h : a.Grounded n rank) : ∀ g ∈ a.captures,
    (1 ≤ g.1 ∧ g.1 ≤ n) ∧ (∀ m ∈ g.2.uses, rank m < rank g.1) ∧ g.2.Grounded n rank := by
  induction a with
  | cat a b iha ihb | alt a b iha ihb =>
    intro g hg
    rcases List.mem_append.mp hg with hg | hg
    · exact iha h.1 g hg
    · exact ihb h.2 g hg
  | group kind a ih =>
    cases kind with
    | capture m =>
      intro g hg
      rcases List.mem_cons.mp hg with rfl | hg
      · exact h
      · exact ih h.2.2 g hg
    | _ => exact ih h
  | loop low high isLazy a ih | ahead negated a ih | behind negated width a ih => exact ih h
  | _ => simp [Syntax.captures]

theorem grounded_uses {a : Syntax} (h : a.Grounded n rank) : ∀ m ∈ a.uses, 1 ≤ m ∧ m ≤ n := by
  induction a with
  | cat a b iha ihb | alt a b iha ihb =>
    intro m hm
    rcases List.mem_append.mp hm with hm | hm
    · exact iha h.1 m hm
    · exact ihb h.2 m hm
  | group kind a ih =>
    cases kind with
    | capture g =>
      intro m hm
      rcases List.mem_cons.mp hm with rfl | hm
      · exact h.1
      · exact ih h.2.2 m hm
    | _ => exact ih h
  | loop low high isLazy a ih | ahead negated a ih | behind negated width a ih => exact ih h
  | again groups folded isInner =>
    cases isInner with
    | true => simp [Syntax.uses]
    | false => exact h
  | _ => simp [Syntax.uses]

theorem grounded_references {a : Syntax} (h : a.Grounded n rank) :
    ∀ m ∈ a.references, 1 ≤ m ∧ m ≤ n := by
  induction a with
  | cat a b iha ihb | alt a b iha ihb =>
    intro m hm
    rcases List.mem_append.mp hm with hm | hm
    · exact iha h.1 m hm
    · exact ihb h.2 m hm
  | group kind a ih =>
    cases kind with
    | capture g => exact ih h.2.2
    | _ => exact ih h
  | loop low high isLazy a ih | ahead negated a ih | behind negated width a ih => exact ih h
  | again groups folded isInner => exact h
  | _ => simp [Syntax.references]

theorem grounded_of_isLeaf {a : Syntax} (h : a.isLeaf = true) : a.Grounded n rank := by
  induction a with
  | cat a b iha ihb | alt a b iha ihb =>
    simp only [Syntax.isLeaf, Bool.and_eq_true] at h
    exact ⟨iha h.1, ihb h.2⟩
  | text _ _ | set _ | anchor _ | never => trivial
  | _ => cases h

theorem uses_of_isLeaf {a : Syntax} (h : a.isLeaf = true) : a.uses = [] := by
  induction a with
  | cat a b iha ihb | alt a b iha ihb =>
    simp only [Syntax.isLeaf, Bool.and_eq_true] at h
    rw [Syntax.uses, iha h.1, ihb h.2, List.nil_append]
  | text _ _ | set _ | anchor _ | never => rfl
  | _ => cases h

end Grounded

/-! ## 5. The rank of a group -/

theorem closing_perm (a : Syntax) : a.closing.Perm (a.captures.map (·.1)) := by
  induction a with
  | cat a b iha ihb | alt a b iha ihb =>
    simp only [Syntax.closing, Syntax.captures, List.map_append]
    exact iha.append ihb
  | group kind a ih =>
    cases kind with
    | capture g =>
      simp only [Syntax.closing, Syntax.captures, List.map_cons]
      exact (List.perm_append_singleton g a.closing).trans (ih.cons g)
    | _ => exact ih
  | loop low high isLazy a ih | ahead negated a ih | behind negated width a ih => exact ih
  | _ => exact List.Perm.refl _

/-- What a tree uses has been closed before, or is closed in it. -/
theorem uses_of_ordered {a : Syntax} {done : List Nat} (h : a.Ordered done) :
    ∀ m ∈ a.uses, m ∈ done ++ a.closing := by
  induction a generalizing done with
  | cat a b iha ihb | alt a b iha ihb =>
    intro m hm
    simp only [Syntax.closing, ← List.append_assoc]
    rcases List.mem_append.mp hm with hm | hm
    · exact List.mem_append_left _ (iha h.1 m hm)
    · exact ihb h.2 m hm
  | group kind a ih =>
    cases kind with
    | capture g =>
      intro m hm
      simp only [Syntax.closing, ← List.append_assoc]
      rcases List.mem_cons.mp hm with rfl | hm
      · simp
      · exact List.mem_append_left _ (ih h m hm)
    | _ => exact ih h
  | loop low high isLazy a ih | ahead negated a ih | behind negated width a ih => exact ih h
  | again groups folded isInner =>
    cases isInner with
    | true => simp [Syntax.uses]
    | false => exact fun m hm => List.mem_append_left _ (h rfl m hm)
  | _ => simp [Syntax.uses]

theorem grounded_of_ordered {n : Nat} {rank : Nat → Nat} {a : Syntax} {done : List Nat}
    (h : a.Ordered done) (hclosing : ∀ m ∈ a.closing, 1 ≤ m ∧ m ≤ n)
    (hreferences : ∀ m ∈ a.references, 1 ≤ m ∧ m ≤ n)
    (hrank : (done ++ a.closing).Pairwise fun m m' => rank m < rank m') : a.Grounded n rank := by
  induction a generalizing done with
  | cat a b iha ihb | alt a b iha ihb =>
    simp only [Syntax.closing, ← List.append_assoc] at hrank
    exact ⟨iha h.1 (fun m hm => hclosing m (List.mem_append_left _ hm))
        (fun m hm => hreferences m (List.mem_append_left _ hm))
        (hrank.sublist (List.sublist_append_left _ _)),
      ihb h.2 (fun m hm => hclosing m (List.mem_append_right _ hm))
        (fun m hm => hreferences m (List.mem_append_right _ hm)) hrank⟩
  | group kind a ih =>
    cases kind with
    | capture g =>
      simp only [Syntax.closing, ← List.append_assoc] at hrank
      obtain ⟨hinner, _, hbefore⟩ := List.pairwise_append.mp hrank
      refine ⟨hclosing g (by simp [Syntax.closing]), fun m hm => ?_, ih h ?_ hreferences hinner⟩
      · exact hbefore m (uses_of_ordered (a := a) h m hm) g (by simp)
      · exact fun m hm => hclosing m (by simp [Syntax.closing, hm])
    | _ => exact ih h hclosing hreferences hrank
  | loop low high isLazy a ih | ahead negated a ih | behind negated width a ih =>
    exact ih h hclosing hreferences hrank
  | again groups folded isInner => exact hreferences
  | _ => trivial

/-- **The groups of a pattern that has been read have ranks**: the order in which they are
    closed. -/
theorem exists_grounded {n : Nat} {a : Syntax} (h : Holds 0 n [] a) :
    ∃ rank, a.Grounded n rank := by
  have hnodup : a.closing.Nodup := by
    rw [(closing_perm a).nodup_iff, h.numbers]
    exact List.nodup_range'
  refine ⟨a.closing.idxOf, grounded_of_ordered (h.ordered [] (by omega)) ?_ h.references ?_⟩
  · intro m hm
    have := h.mem_closing_iff.mp hm
    omega
  · rw [List.nil_append, List.pairwise_iff_getElem]
    intro i j hi hj hij
    rw [hnodup.idxOf_getElem i hi, hnodup.idxOf_getElem j hj]
    exact hij

/-! ## 6. Trees that come from others -/

/-- All groups that `b` has or uses `a` has or uses as well; where the groups of `a` use groups of
    lower rank only, so do those of `b`. -/
structure Keeps (a b : Syntax) : Prop where
  groups : b.captures.map (·.1) ⊆ a.captures.map (·.1)
  uses : b.uses ⊆ a.uses
  grounded : ∀ n rank, a.Grounded n rank → b.Grounded n rank

namespace Keeps

variable {a a' b b' : Syntax}

theorem refl (a : Syntax) : Keeps a a :=
  ⟨List.Subset.refl _, List.Subset.refl _, fun _ _ h => h⟩

theorem trans {c : Syntax} (h : Keeps a b) (h' : Keeps b c) : Keeps a c :=
  ⟨List.Subset.trans h'.groups h.groups, List.Subset.trans h'.uses h.uses,
    fun n rank hg => h'.grounded n rank (h.grounded n rank hg)⟩

theorem leaf (h : b.isLeaf = true) : Keeps a b where
  groups := by rw [captures_of_isLeaf h]; exact List.nil_subset _
  uses := by rw [uses_of_isLeaf h]; exact List.nil_subset _
  grounded := fun _ _ _ => grounded_of_isLeaf h

/-- Two trees that come from one. -/
theorem both (h : Keeps a b) (h' : Keeps a b') : Keeps a (.cat b b') where
  groups := by
    rw [Syntax.captures, List.map_append]
    exact List.append_subset.mpr ⟨h.groups, h'.groups⟩
  uses := List.append_subset.mpr ⟨h.uses, h'.uses⟩
  grounded := fun n rank hg => ⟨h.grounded n rank hg, h'.grounded n rank hg⟩

theorem cat (h : Keeps a a') (h' : Keeps b b') : Keeps (.cat a b) (.cat a' b') where
  groups := by
    rw [Syntax.captures, Syntax.captures, List.map_append, List.map_append]
    exact List.append_subset.mpr ⟨List.subset_append_of_subset_left _ h.groups,
      List.subset_append_of_subset_right _ h'.groups⟩
  uses := List.append_subset.mpr ⟨List.subset_append_of_subset_left _ h.uses,
    List.subset_append_of_subset_right _ h'.uses⟩
  grounded := fun n rank hg => ⟨h.grounded n rank hg.1, h'.grounded n rank hg.2⟩

theorem alt (h : Keeps a a') (h' : Keeps b b') : Keeps (.alt a b) (.alt a' b') where
  groups := (h.cat h').groups
  uses := (h.cat h').uses
  grounded := (h.cat h').grounded

theorem group (kind : GroupKind) (h : Keeps a a') : Keeps (.group kind a) (.group kind a') where
  groups := by
    cases kind with
    | capture g => exact List.cons_subset_cons g h.groups
    | _ => exact h.groups
  uses := by
    cases kind with
    | capture g => exact List.cons_subset_cons g h.uses
    | _ => exact h.uses
  grounded := by
    intro n rank hg
    cases kind with
    | capture g =>
      exact ⟨hg.1, fun m hm => hg.2.1 m (h.uses hm), h.grounded n rank hg.2.2⟩
    | _ => exact h.grounded n rank hg

theorem loop (low : Nat) (high high' : Option Nat) (isLazy : Bool) (h : Keeps a a') :
    Keeps (.loop low high isLazy a) (.loop low high' isLazy a') :=
  ⟨h.groups, h.uses, h.grounded⟩

theorem ahead (negated : Bool) (h : Keeps a a') : Keeps (.ahead negated a) (.ahead negated a') :=
  ⟨h.groups, h.uses, h.grounded⟩

theorem behind (negated : Bool) (width width' : Nat) (h : Keeps a a') :
    Keeps (.behind negated width a) (.behind negated width' a') :=
  ⟨h.groups, h.uses, h.grounded⟩

/-- Texts side by side that are made one. -/
theorem join (a b : Syntax) : Keeps (.cat a b) (a.join b) := by
  unfold Syntax.join
  split
  · split
    · exact leaf rfl
    · exact refl _
  · split
    · exact ⟨List.Subset.refl _, List.Subset.refl _, fun _ _ hg => ⟨trivial, hg.2.2⟩⟩
    · exact refl _
  · exact refl _

/-- Where every piece comes from the same tree the row does. -/
theorem row : ∀ {as : List Syntax}, (∀ b ∈ as, Keeps a b) → Keeps a (.row as)
  | [], _ => leaf rfl
  | [b], h => h b (by simp)
  | b :: c :: as, h => by
      have hb := h b (by simp)
      have hrow := row fun d hd => h d (List.mem_cons_of_mem b hd)
      exact (hb.both hrow).trans (join b (.row (c :: as)))

theorem anyOf {bs : List Syntax} (hb : Keeps a b) (h : ∀ c ∈ bs, Keeps a c) :
    Keeps a (b.anyOf bs) := by
  induction bs generalizing b with
  | nil => exact hb
  | cons c bs ih =>
    have hrest := ih (h c (by simp)) fun d hd => h d (List.mem_cons_of_mem c hd)
    have hboth := hb.both hrest
    exact ⟨hboth.groups, hboth.uses, hboth.grounded⟩

end Keeps

/-! ## 7. What is done to a tree -/

theorem keeps_joinTexts (a : Syntax) : Keeps a a.joinTexts := by
  induction a with
  | cat a b iha ihb =>
    cases a with
    | text cs f => exact ((Keeps.refl _).cat ihb).trans (.join _ _)
    | _ => exact iha.cat ihb
  | alt a b iha ihb => exact iha.alt ihb
  | group kind a ih => exact ih.group kind
  | loop low high isLazy a ih => exact ih.loop low high high isLazy
  | ahead negated a ih => exact ih.ahead negated
  | behind negated width a ih => exact ih.behind negated width width
  | _ => exact .refl _

theorem keeps_loopOver (low : Nat) (high : Option Nat) (isLazy : Bool) {a b : Syntax}
    (h : Keeps a b) : Keeps (.loop low high isLazy a) (.loopOver low high isLazy b) := by
  cases b with
  | text cs folded =>
    unfold Syntax.loopOver
    simp only
    split
    · exact .leaf rfl
    · exact h.loop low high high isLazy
  | _ => exact h.loop low high high isLazy

theorem keeps_foldTexts (isBehind : Bool) (a : Syntax) : Keeps a (a.foldTexts isBehind) := by
  induction a generalizing isBehind with
  | text cs folded =>
    cases folded with
    | true => exact .leaf (isLeaf_folded isBehind cs)
    | false => exact .refl _
  | cat a b iha ihb => exact (iha isBehind).cat (ihb isBehind)
  | alt a b iha ihb => exact (iha isBehind).alt (ihb isBehind)
  | group kind a ih => exact (ih isBehind).group kind
  | loop low high isLazy a ih => exact keeps_loopOver low high isLazy (ih isBehind)
  | ahead negated a ih => exact (ih isBehind).ahead negated
  | behind negated width a ih => exact (ih true).behind negated width width
  | _ => exact .refl _

theorem keeps_shortenedRow (a : Syntax) : Keeps a a.shortenedRow := by
  induction a with
  | loop low high isLazy a => exact (Keeps.refl a).loop low high _ isLazy
  | cat a b _ ihb =>
    cases a with
    | loop low high isLazy c =>
      simp only [Syntax.shortenedRow]
      split
      · exact .refl _
      · refine ((Keeps.refl c).loop low high _ isLazy).cat ?_
        split
        · exact ihb
        · exact .refl b
    | _ => exact .refl _
  | _ => exact .refl _

theorem keeps_shortenedEach (a : Syntax) : Keeps a a.shortenedEach := by
  induction a with
  | alt a b _ ihb => exact (keeps_shortenedRow a).alt ihb
  | _ => exact keeps_shortenedRow _

/-- **Nothing refers to a group of shorter loops that did not do so before.** -/
theorem keeps_shortened (a : Syntax) : Keeps a a.shortened := by
  cases a with
  | group kind a =>
    cases kind with
    | plain => exact (keeps_shortenedEach a).group .plain
    | _ => exact .refl _
  | _ => exact keeps_shortenedEach _

end Highlight.Regex
