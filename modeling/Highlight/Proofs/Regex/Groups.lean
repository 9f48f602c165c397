import Highlight.Proofs.Regex.Moved

/-!
# The groups of a pattern

In which order the groups of a pattern are opened and closed, and which of them its references ask
for.

* `Syntax.closing` -- the groups in the order in which they are closed;
* `Syntax.Ordered` -- that a reference which does not stand inside its group is to one already
  closed;
* `Alike` -- trees that differ in repetitions only have the same groups;
* `captures_moved`, `references_moved` -- the groups and references of a moved tree.
-/

namespace Highlight.Regex

/-! ## 1. Closing -/

/-- The groups that remember what they have read, inner ones first. -/
def Syntax.closing : Syntax → List Nat
  | .cat a b | .alt a b => a.closing ++ b.closing
  | .group (.capture n) a => a.closing ++ [n]
  | .group _ a | .loop _ _ _ a | .ahead _ a | .behind _ _ a => a.closing
  | _ => []

/-- Each reference that stands inside none of its groups is to groups that have been closed before
    it: those in `done`, and those to its left. -/
def Syntax.Ordered (done : List Nat) : Syntax → Prop
  | .cat a b | .alt a b => a.Ordered done ∧ b.Ordered (done ++ a.closing)
  | .group _ a | .loop _ _ _ a | .ahead _ a | .behind _ _ a => a.Ordered done
  | .again groups _ isInner => isInner = false → ∀ n ∈ groups, n ∈ done
  | _ => True

/-! ## 2. Trees with the same groups -/

/-- Two trees that open, close and refer to the same groups in the same order. -/
structure Alike (a b : Syntax) : Prop where
  captures : b.captures = a.captures
  references : b.references = a.references
  closing : b.closing = a.closing
  ordered : ∀ done, a.Ordered done → b.Ordered done

namespace Alike

theorem refl (a : Syntax) : Alike a a := ⟨rfl, rfl, rfl, fun _ h => h⟩

theorem trans {a b c : Syntax} (h : Alike a b) (h' : Alike b c) : Alike a c :=
  ⟨h'.captures.trans h.captures, h'.references.trans h.references, h'.closing.trans h.closing,
    fun done hd => h'.ordered done (h.ordered done hd)⟩

theorem loop (low : Nat) (high : Option Nat) (isLazy : Bool) (a : Syntax) :
    Alike a (.loop low high isLazy a) := ⟨rfl, rfl, rfl, fun _ h => h⟩

theorem unloop (low : Nat) (high : Option Nat) (isLazy : Bool) (a : Syntax) :
    Alike (.loop low high isLazy a) a := ⟨rfl, rfl, rfl, fun _ h => h⟩

theorem mark (m : Mark) (a : Syntax) : Alike a (m.loop a) := by
  cases m <;> exact loop _ _ _ a

theorem atomicIf (isAtomic : Bool) (a : Syntax) : Alike a (a.atomicIf isAtomic) := by
  cases isAtomic
  · exact refl a
  · exact ⟨rfl, rfl, rfl, fun _ h => h⟩

theorem held (a : Syntax) : Alike a a.held := by
  cases a <;> exact ⟨rfl, rfl, rfl, fun _ h => h⟩

theorem overLoop {r : Repeat} {low : Nat} {high : Option Nat} {isLazy : Bool} {a b : Syntax}
    (h : r.overLoop low high isLazy a = .ok b) : Alike a b := by
  unfold Repeat.overLoop at h
  split at h
  · split at h <;> cases h
    · exact mark _ a
    · exact (mark _ a).trans (mark _ _)
  · cases h
    exact (loop _ _ _ a).trans (loop _ _ _ _)
  · split at h
    · split at h <;> cases h
      exact loop _ _ _ a
    · cases h
      exact (loop _ _ _ a).trans (loop _ _ _ _)

/-- **A repetition leaves the groups of what it repeats.** -/
theorem apply {r : Repeat} {grouped : Bool} {a b : Syntax} (h : r.apply grouped a = .ok b) :
    Alike a b := by
  unfold Repeat.apply at h
  split at h
  · cases h
    exact refl a
  · cases a with
    | text cs folded =>
      simp only at h
      split at h
      · cases h
        cases r.isAtomic <;> exact ⟨rfl, rfl, rfl, fun _ _ => ⟨trivial, trivial⟩⟩
      · cases h
        exact (loop _ _ _ _).trans (atomicIf _ _)
    | loop low high isLazy c =>
      simp only at h
      cases hc : r.overLoop low high isLazy c with
      | error e => rw [hc] at h; cases h
      | ok d =>
        rw [hc] at h
        cases h
        exact ((unloop _ _ _ c).trans (overLoop hc)).trans (atomicIf _ _)
    | _ =>
      cases h
      exact (loop _ _ _ _).trans (atomicIf _ _)

end Alike

/-! ## 3. Rows -/

theorem captures_followedBy : ∀ a b : Syntax,
    (a.followedBy b).captures = a.captures ++ b.captures
  | .cat a b, c => by
      simp only [Syntax.followedBy, Syntax.captures, captures_followedBy b c, List.append_assoc]
  | .text _ _, _ | .set _, _ | .anchor _, _ | .never, _ | .alt _ _, _ | .group _ _, _
  | .loop _ _ _ _, _ | .ahead _ _, _ | .behind _ _ _, _ | .again _ _ _, _ => rfl

theorem references_followedBy : ∀ a b : Syntax,
    (a.followedBy b).references = a.references ++ b.references
  | .cat a b, c => by
      simp only [Syntax.followedBy, Syntax.references, references_followedBy b c,
        List.append_assoc]
  | .text _ _, _ | .set _, _ | .anchor _, _ | .never, _ | .alt _ _, _ | .group _ _, _
  | .loop _ _ _ _, _ | .ahead _ _, _ | .behind _ _ _, _ | .again _ _ _, _ => rfl

theorem ordered_followedBy : ∀ (a b : Syntax) (done : List Nat), a.Ordered done →
    b.Ordered (done ++ a.closing) → (a.followedBy b).Ordered done
  | .cat a b, c, done, ha, hb => by
      refine ⟨ha.1, ordered_followedBy b c _ ha.2 ?_⟩
      rw [List.append_assoc]
      exact hb
  | .text _ _, _, _, ha, hb | .set _, _, _, ha, hb | .anchor _, _, _, ha, hb
  | .never, _, _, ha, hb | .alt _ _, _, _, ha, hb | .group _ _, _, _, ha, hb
  | .loop _ _ _ _, _, _, ha, hb | .ahead _ _, _, _, ha, hb | .behind _ _ _, _, _, ha, hb
  | .again _ _ _, _, _, ha, hb => ⟨ha, hb⟩

/-! ## 4. Groups by their numbers -/

theorem mem_closing {n : Nat} (a : Syntax) : n ∈ a.closing ↔ n ∈ a.captures.map (·.1) := by
  induction a with
  | cat a b iha ihb | alt a b iha ihb =>
    simp only [Syntax.closing, Syntax.captures, List.map_append, List.mem_append, iha, ihb]
  | group kind a ih =>
    cases kind with
    | capture m =>
      simp only [Syntax.closing, Syntax.captures, List.map_cons, List.mem_append, List.mem_cons,
        List.not_mem_nil, or_false, ih]
      exact or_comm
    | _ => exact ih
  | loop low high isLazy a ih | ahead negated a ih | behind negated width a ih => exact ih
  | _ => exact Iff.rfl

theorem captures_of_isLeaf {a : Syntax} (h : a.isLeaf = true) : a.captures = [] := by
  induction a with
  | cat a b iha ihb | alt a b iha ihb =>
    simp only [Syntax.isLeaf, Bool.and_eq_true] at h
    rw [Syntax.captures, iha h.1, ihb h.2, List.nil_append]
  | text _ _ | set _ | anchor _ | never => rfl
  | _ => cases h

theorem references_of_isLeaf {a : Syntax} (h : a.isLeaf = true) : a.references = [] := by
  induction a with
  | cat a b iha ihb | alt a b iha ihb =>
    simp only [Syntax.isLeaf, Bool.and_eq_true] at h
    rw [Syntax.references, iha h.1, ihb h.2, List.nil_append]
  | text _ _ | set _ | anchor _ | never => rfl
  | _ => cases h

theorem ordered_of_isLeaf {a : Syntax} (h : a.isLeaf = true) (done : List Nat) :
    a.Ordered done := by
  induction a generalizing done with
  | cat a b iha ihb | alt a b iha ihb =>
    simp only [Syntax.isLeaf, Bool.and_eq_true] at h
    exact ⟨iha h.1 done, ihb h.2 _⟩
  | text _ _ | set _ | anchor _ | never => trivial
  | _ => cases h

/-- The groups of a tree have the numbers above `n` up to `n'`, in this order; its references are to
    these groups or to earlier ones, and to none that stands open but for those in `opened`. -/
structure Holds (n n' : Nat) (opened : List Nat) (a : Syntax) : Prop where
  le : n ≤ n'
  numbers : a.captures.map (·.1) = List.range' (n + 1) (n' - n)
  references : ∀ m ∈ a.references, 1 ≤ m ∧ m ≤ n'
  ordered : ∀ done, (∀ m, 1 ≤ m → m ≤ n → m ∉ opened → m ∈ done) → a.Ordered done

namespace Holds

variable {n n' n'' : Nat} {opened : List Nat} {a b : Syntax}

theorem alike (h : Holds n n' opened a) (hab : Alike a b) : Holds n n' opened b where
  le := h.le
  numbers := by rw [hab.captures, h.numbers]
  references := by rw [hab.references]; exact h.references
  ordered := fun done hd => hab.ordered done (h.ordered done hd)

/-- A tree without groups and references. -/
theorem leaf (h : a.isLeaf = true) : Holds n n opened a where
  le := Nat.le_refl n
  numbers := by rw [captures_of_isLeaf h, Nat.sub_self]; rfl
  references := by simp [references_of_isLeaf h]
  ordered := fun done _ => ordered_of_isLeaf h done

theorem mem_closing_iff (h : Holds n n' opened a) {m : Nat} :
    m ∈ a.closing ↔ n + 1 ≤ m ∧ m ≤ n' := by
  have hle := h.le
  rw [mem_closing, h.numbers, List.mem_range'_1]
  omega

theorem behind_closing (h : Holds n n' opened a) {done : List Nat}
    (hd : ∀ m, 1 ≤ m → m ≤ n → m ∉ opened → m ∈ done) :
    ∀ m, 1 ≤ m → m ≤ n' → m ∉ opened → m ∈ done ++ a.closing := by
  intro m h1 hm ho
  rw [List.mem_append, h.mem_closing_iff]
  by_cases hn : m ≤ n
  · exact .inl (hd m h1 hn ho)
  · exact .inr (by omega)

theorem numbers_append (h : Holds n n' opened a) (h' : Holds n' n'' opened b) :
    (a.captures ++ b.captures).map (·.1) = List.range' (n + 1) (n'' - n) := by
  have hle := h.le
  have hle' := h'.le
  rw [List.map_append, h.numbers, h'.numbers]
  have : n' + 1 = (n + 1) + 1 * (n' - n) := by omega
  rw [this, List.range'_append]
  congr 1
  omega

theorem references_append (h : Holds n n' opened a) (h' : Holds n' n'' opened b) :
    ∀ m ∈ a.references ++ b.references, 1 ≤ m ∧ m ≤ n'' := by
  intro m hm
  rcases List.mem_append.mp hm with hm | hm
  · exact ⟨(h.references m hm).1, Nat.le_trans (h.references m hm).2 h'.le⟩
  · exact h'.references m hm

theorem cat (h : Holds n n' opened a) (h' : Holds n' n'' opened b) :
    Holds n n'' opened (.cat a b) where
  le := Nat.le_trans h.le h'.le
  numbers := h.numbers_append h'
  references := h.references_append h'
  ordered := fun done hd => ⟨h.ordered done hd, h'.ordered _ (h.behind_closing hd)⟩

theorem alt (h : Holds n n' opened a) (h' : Holds n' n'' opened b) :
    Holds n n'' opened (.alt a b) where
  le := Nat.le_trans h.le h'.le
  numbers := h.numbers_append h'
  references := h.references_append h'
  ordered := fun done hd => ⟨h.ordered done hd, h'.ordered _ (h.behind_closing hd)⟩

theorem followedBy (h : Holds n n' opened a) (h' : Holds n' n'' opened b) :
    Holds n n'' opened (a.followedBy b) where
  le := Nat.le_trans h.le h'.le
  numbers := by rw [captures_followedBy]; exact h.numbers_append h'
  references := by rw [references_followedBy]; exact h.references_append h'
  ordered := fun done hd =>
    ordered_followedBy a b done (h.ordered done hd) (h'.ordered _ (h.behind_closing hd))

theorem capture (h : Holds (n + 1) n' ((n + 1) :: opened) a) :
    Holds n n' opened (.group (.capture (n + 1)) a) where
  le := Nat.le_of_succ_le h.le
  numbers := by
    have hle := h.le
    obtain ⟨k, rfl⟩ := Nat.exists_eq_add_of_le hle
    rw [Syntax.captures, List.map_cons, h.numbers, Nat.add_sub_cancel_left,
      show n + 1 + k - n = k + 1 by omega, List.range'_succ]
  references := h.references
  ordered := fun done hd => h.ordered done fun m h1 hm ho => by
    rw [List.mem_cons, not_or] at ho
    exact hd m h1 (by omega) ho.2

end Holds

/-! ## 5. Moved groups -/

theorem captures_moved (offset : Nat) (a : Syntax) :
    (a.moved offset).captures =
      a.captures.map fun g => (g.1 + offset, g.2.moved offset) := by
  induction a with
  | cat a b iha ihb | alt a b iha ihb =>
    simp only [Syntax.moved, Syntax.captures, iha, ihb, List.map_append]
  | group kind a ih =>
    cases kind <;> simp only [Syntax.moved, GroupKind.moved, Syntax.captures, ih, List.map_cons]
  | loop low high isLazy a ih | ahead negated a ih | behind negated width a ih => exact ih
  | _ => rfl

theorem references_moved (offset : Nat) (a : Syntax) :
    (a.moved offset).references = a.references.map (· + offset) := by
  induction a with
  | cat a b iha ihb | alt a b iha ihb =>
    simp only [Syntax.moved, Syntax.references, iha, ihb, List.map_append]
  | group kind a ih | loop low high isLazy a ih | ahead negated a ih
  | behind negated width a ih => exact ih
  | _ => rfl

end Highlight.Regex
