import Highlight.Proofs.Regex.Grammar

/-!
# Reading merged patterns

What the reader makes of merged patterns: one alternative for each, which is the tree of the pattern
by itself in a group of its own, with its groups moved. That is so where each of them is clear; only
the nesting counts from further outside, so that a pattern can be too deep there.

* `renumbered_zero`, `length_renumbered` -- references that are moved, or not;
* `Standing`, `exists_standing` -- a clear pattern, which means the same wherever it stands;
* `readPiece_wrapped`, `readBranch_wrapped` -- a pattern in a group of its own;
* `mergedText`, `mergedTree`, `readParts_merged` -- patterns one after another;
* `toList_merge`, `readSyntax_merged`, `fits_of_readSyntax` -- the whole text.
-/

namespace Highlight.Pattern

open Regex

/-! ## 1. References that are not moved -/

/-- The digits of a reference do not begin with zero. -/
theorem digits_of_reference {c : Char} {cs ds : List Char}
    (h : (nextPiece c cs).1 = .reference ds) :
    ds ≠ [] ∧ (∀ d ∈ ds, d.isDigit = true) ∧ ds.head? ≠ some '0' := by
  have hmain : ∀ d more, isLeading d = true → (nextPiece '\\' (d :: more)).1 = .reference ds →
      ds ≠ [] ∧ (∀ d ∈ ds, d.isDigit = true) ∧ ds.head? ≠ some '0' := by
    intro d more hd h
    rw [nextPiece_reference hd] at h
    cases h
    obtain ⟨hdig, hz⟩ := Regex.isDigit_leading hd
    refine ⟨by simp, ?_, by simpa using hz⟩
    intro e he
    rcases List.mem_cons.mp he with rfl | he
    · exact hdig
    · exact List.all_eq_true.mp List.all_takeWhile e he
  by_cases hc : c = '\\'
  · subst hc
    cases cs with
    | nil => cases h
    | cons d more =>
      by_cases hd : isLeading d = true
      · exact hmain d more hd h
      · rw [Bool.not_eq_true] at hd
        by_cases hn : d = '\n'
        · subst hn
          cases h
        · rw [nextPiece_escaped hd hn] at h
          cases h
  · exfalso
    unfold nextPiece at h
    split at h
    · split at h <;> cases h
    · cases h
    · cases h
    · exact hc rfl
    · cases h

section Shift

variable {opened : Nat} {c : Char} {cs : List Char} {ps : List Piece}
  (h : (nextPiece c cs).1.isClear opened ps = true)

include h

theorem toDigits_of_clear {ds : List Char} (hp : (nextPiece c cs).1 = .reference ds) :
    Nat.toDigits 10 (groupNumber ds) = ds := by
  obtain ⟨hne, hd, hz⟩ := digits_of_reference hp
  rw [hp] at h
  simp only [Piece.isClear, Bool.and_eq_true, decide_eq_true_eq] at h
  rw [groupNumber_digits hd h.1, Text.toDigits_ofDigits ds hne hd hz]

/-- A reference that is not moved keeps its digits. -/
theorem text_shift_zero : ((nextPiece c cs).1.shift 0).text = (nextPiece c cs).1.text := by
  cases hp : (nextPiece c cs).1 with
  | reference ds => rw [Piece.shift, Nat.add_zero, toDigits_of_clear h hp]
  | _ => rfl

/-- A reference that is moved has no fewer digits. -/
theorem length_shift (offset : Nat) :
    (nextPiece c cs).1.text.length ≤ ((nextPiece c cs).1.shift offset).text.length := by
  cases hp : (nextPiece c cs).1 with
  | reference ds =>
    have hle : (Nat.toDigits 10 (groupNumber ds)).length ≤
        (Nat.toDigits 10 (groupNumber ds + offset)).length := by
      rw [Nat.length_toDigits_le_iff (by decide) Nat.length_toDigits_pos]
      refine Nat.lt_of_le_of_lt (Nat.le_add_right _ offset) ?_
      exact (Nat.length_toDigits_le_iff (by decide) Nat.length_toDigits_pos).mp (Nat.le_refl _)
    rw [toDigits_of_clear h hp] at hle
    simpa [Piece.shift, Piece.text] using hle
  | _ => exact Nat.le_refl _

end Shift

/-- **Nothing is moved by nothing.** -/
theorem renumbered_zero {opened : Nat} {cs : List Char} (h : Clear opened cs) :
    renumbered 0 cs = cs := by
  induction hn : cs.length using Nat.strongRecOn generalizing opened cs with
  | ind n ih =>
    cases cs with
    | nil => rfl
    | cons c cs =>
      have hl := length_nextPiece c cs
      simp only [List.length_cons] at hn
      obtain ⟨hp, hcs⟩ := clear_cons h
      rw [renumbered_cons, text_shift_zero hp, ih _ (by omega) hcs rfl, text_nextPiece]

/-- A text does not become shorter when its references are moved. -/
theorem length_renumbered (offset : Nat) {opened : Nat} {cs : List Char} (h : Clear opened cs) :
    cs.length ≤ (renumbered offset cs).length := by
  induction hn : cs.length using Nat.strongRecOn generalizing opened cs with
  | ind n ih =>
    cases cs with
    | nil => simp at hn; omega
    | cons c cs =>
      have hl := length_nextPiece c cs
      have ht := congrArg List.length (text_nextPiece c cs)
      simp only [List.length_cons, List.length_append] at hn ht
      obtain ⟨hp, hcs⟩ := clear_cons h
      have hi := ih _ (by omega) hcs rfl
      have hs := length_shift hp offset
      rw [renumbered_cons, List.length_append]
      omega

/-! ## 2. Patterns by themselves -/

/-- The tree that a pattern is read as, on its own and in every setting, unless it is too deep
    there: the same but for the numbers of the groups. -/
structure Standing (flags : Flags) (cs : List Char) (a : Syntax) : Prop where
  clear : Clear 0 cs
  alone : ∀ spare, readAlternatives (readingSteps cs.length + spare) 0 flags ⟨cs, 0, [], []⟩ =
    .ok (a, ⟨[], opens cs, [], []⟩)
  inside : Everywhere true
    (fun _ spare => readAlternatives (readingSteps cs.length + spare) 2 flags) ⟨cs, 0, [], []⟩
    (fun C => a.moved C.offset) ⟨[], opens cs, [], []⟩ Setting.Closes
  holds : Holds 0 (opens cs) [] a
  whole : ¬ IsCut cs

theorem progress_alone {s : Progress} (h : Clear s.groups s.rest) :
    Setting.alone.progress s = s := by
  have ht : Setting.alone.text s.rest = s.rest := by
    show renumbered 0 s.rest ++ [] = s.rest
    rw [renumbered_zero h, List.append_nil]
  have ho : s.opened.map (· + Setting.alone.offset) ++ Setting.alone.outer = s.opened := by
    show s.opened.map (· + 0) ++ [] = s.opened
    simp
  simp only [Setting.progress, ht, ho]
  rfl

theorem closes_alone : Setting.alone.Closes := by simp [Setting.Closes, Setting.alone]

theorem moved_zero (a : Syntax) : a.moved 0 = a := by
  induction a with
  | cat a b iha ihb | alt a b iha ihb => rw [Syntax.moved, iha, ihb]
  | group kind a ih => cases kind <;> rw [Syntax.moved, ih] <;> rfl
  | loop low high isLazy a ih | ahead negated a ih | behind negated width a ih =>
    rw [Syntax.moved, ih]
  | again groups folded isInner => simp [Syntax.moved]
  | _ => rfl

theorem readSyntax_ok {cs : List Char} {folded : Bool} {a : Syntax} {n : Nat}
    (h : readSyntax cs folded = .ok (a, n)) :
    ∃ s, readAlternatives (readingSteps cs.length) 0 ⟨folded, false⟩ ⟨cs, 0, [], []⟩ = .ok (a, s) ∧
      s.rest = [] ∧ s.groups = n := by
  unfold readSyntax at h
  simp only [bind, Except.bind] at h
  split at h
  · cases h
  · rename_i x hx
    obtain ⟨b, s⟩ := x
    cases h
    obtain ⟨b, s1, hb, hx⟩ := reading_bind_ok hx
    rw [reading_bind_eq rest_eq] at hx
    cases hr : s1.rest with
    | cons c w => rw [hr] at hx; cases hx
    | nil =>
      rw [hr] at hx
      cases hx
      exact ⟨_, hb, hr, rfl⟩

theorem readSyntax_of_alternatives {cs : List Char} {folded : Bool} {a : Syntax} {n : Nat}
    (h : readAlternatives (readingSteps cs.length) 0 ⟨folded, false⟩ ⟨cs, 0, [], []⟩ =
      .ok (a, ⟨[], n, [], []⟩)) : readSyntax cs folded = .ok (a, n) := by
  have hw : readWhole ⟨folded, false⟩ cs.length ⟨cs, 0, [], []⟩ = .ok (a, ⟨[], n, [], []⟩) :=
    (reading_bind_eq h).trans (reading_bind_eq rest_eq)
  unfold readSyntax
  rw [show (readWhole ⟨folded, false⟩ cs.length).run ⟨cs, 0, [], []⟩ = _ from hw]
  rfl

/-- **A clear pattern that can be read means the same in every setting**, whatever the flags. -/
theorem exists_standing {cs : List Char} {folded : Bool} {x : Syntax} {n : Nat}
    (hcl : Clear 0 cs) (h : readSyntax cs folded = .ok (x, n)) (folded' : Bool) :
    n = opens cs ∧ ∃ a, Standing ⟨folded', false⟩ cs a := by
  obtain ⟨s, hs, hrest, hn⟩ := readSyntax_ok h
  have hfine : Fine ⟨cs, 0, [], []⟩ := ⟨hcl, rfl⟩
  obtain ⟨_, ⟨a, rfl, _, hgo, hholds⟩, hall⟩ :=
    (show Carried _ ⟨folded', false⟩ _ from carried (readingSteps cs.length)).alternatives hfine x s hs
  have hgroups : s.groups = opens cs := by
    have := hgo.opens
    rw [hrest] at this
    simpa [opens, openings] using this
  have hs' : s = ⟨[], opens cs, [], []⟩ := by
    rw [← hgroups, ← hrest, ← hgo.fine.names]
    exact congrArg (Progress.mk s.rest s.groups s.names) hgo.opened
  rw [hgroups] at hholds hn
  subst hs'
  refine ⟨hn.symm, a, hcl, fun spare => ?_, (hall 2).mono fun _ hC _ => hC, hholds,
    fun hcut => not_isCut_nil (hgo.cut hcut)⟩
  rcases hall 0 with h0 | ⟨h0, _⟩
  · have := h0 .alone (fun _ => closes_alone) spare
    rw [progress_alone hcl, progress_alone clear_nil] at this
    exact this.trans (by simp only [Setting.alone, moved_zero])
  · cases h0

theorem Standing.readSyntax {cs : List Char} {folded : Bool} {a : Syntax}
    (h : Standing ⟨folded, false⟩ cs a) : readSyntax cs folded = .ok (a, opens cs) :=
  readSyntax_of_alternatives (h.alone 0)

/-! ## 3. Patterns in a group -/

theorem reading_bind_congr {α β : Type} {x y : Reading α} {k : α → Reading β} {s s' : Progress}
    (h : x s = y s') : (x >>= k) s = (y >>= k) s' := by
  simp only [bind, StateT.bind, h]

/-- What stands behind a pattern in a group: nothing, or a bar. -/
def Parts (more : List Char) : Prop := ∀ c, more.head? = some c → c = '|'

/-- No pattern that can be read begins with a question mark. -/
theorem not_question_of_read {flags : Flags} {cs : List Char} {r : Syntax × Progress}
    (h : readAlternatives (readingSteps cs.length) 0 flags ⟨cs, 0, [], []⟩ = .ok r) :
    cs.head? ≠ some '?' := by
  intro hq
  obtain ⟨w, rfl⟩ := List.head?_eq_some_iff.mp hq
  have hsteps : readingSteps ('?' :: w).length = (4 * w.length + 5) + 1 + 1 + 1 := by
    simp only [readingSteps, List.length_cons]
    omega
  rw [hsteps, readAlternatives_succ, if_neg (by decide)] at h
  obtain ⟨_, s1, hb, _⟩ := reading_bind_ok h
  rw [readBranch_succ, reading_bind_eq (skipComments_eq (by rintro _ ⟨⟩)),
    reading_bind_eq atRowEnd_eq] at hb
  obtain ⟨_, s2, hp, _⟩ := reading_bind_ok hb
  rw [readPiece_succ, reading_bind_eq rest_eq,
    reading_bind_eq (readText_nil (skipComments_eq (by rintro _ ⟨⟩)) rfl)] at hp
  cases hp

theorem not_question {flags : Flags} {cs : List Char} {a : Syntax} (h : Standing flags cs a) :
    cs.head? ≠ some '?' := not_question_of_read (h.alone 0)

section Opening

variable {flags : Flags} {f depth g : Nat} {names : List (List Char × Nat)} {opened : List Nat}
  {c : Char} {w : List Char}

/-- The steps that lead into a group and on from it. -/
theorem readPiece_opening (hc : c ≠ '?') :
    readPiece (f + 2) depth flags ⟨'(' :: c :: w, g, names, opened⟩ =
      (do
        let b ← readAlternatives f depth flags
        closeGroup
        modify fun s => { s with opened := s.opened.erase (g + 1) }
        repeated depth false (.group (.capture (g + 1)) b) : Reading Syntax)
        ⟨c :: w, g + 1, names, (g + 1) :: opened⟩ := by
  have hskip : skipComments ⟨'(' :: c :: w, g, names, opened⟩ =
      .ok ((), ⟨'(' :: c :: w, g, names, opened⟩) :=
    skipComments_eq (by rintro _ ⟨⟩; exact hc rfl)
  rw [readPiece_succ, reading_bind_eq rest_eq, reading_bind_eq (readText_nil hskip rfl)]
  refine (reading_bind_eq rest_eq).trans ?_
  refine (reading_bind_eq (lift_eq (readHead_capture flags hc w))).trans ?_
  refine (reading_bind_eq (goOn_eq _)).trans ?_
  show (readGroup (f + 1) depth flags (.capture none) >>= repeated depth false) _ = _
  rw [readGroup_capture]
  simp only [bind_assoc, pure_bind]
  refine (reading_bind_eq (a := g + 1) (t := ⟨c :: w, g + 1, names, (g + 1) :: opened⟩) rfl).trans ?_
  rfl

/-- A branch that begins with a group. -/
theorem readBranch_opening (hc : c ≠ '?') :
    readBranch (f + 1) depth flags ⟨'(' :: c :: w, g, names, opened⟩ =
      (do
        let a ← readPiece f depth flags
        if ← atRowEnd then return a else return .cat a (← readRow f depth flags) : Reading Syntax)
        ⟨'(' :: c :: w, g, names, opened⟩ := by
  have hskip : skipComments ⟨'(' :: c :: w, g, names, opened⟩ =
      .ok ((), ⟨'(' :: c :: w, g, names, opened⟩) :=
    skipComments_eq (by rintro _ ⟨⟩; exact hc rfl)
  rw [readBranch_succ, reading_bind_eq hskip, reading_bind_eq atRowEnd_eq]
  rfl

end Opening

/-- Where a pattern stands in the group with number `g + 1`. -/
def inGroup (g : Nat) (more : List Char) : Setting :=
  ⟨g + 1, ')' :: more, [g + 1], by simp, by simp⟩

theorem closes_inGroup (g : Nat) (more : List Char) : (inGroup g more).Closes := by
  simp [Setting.Closes, inGroup]

theorem text_inGroup (g : Nat) (more cs : List Char) :
    wrapped (g + 1) (pieces cs) ++ more = '(' :: (inGroup g more).text cs := by
  rw [wrapped_pieces, Setting.text]
  simp [inGroup]

section Wrapped

variable {flags : Flags} {cs more : List Char} {a : Syntax} {g f : Nat}

theorem progress_inGroup (g : Nat) (more : List Char) (s : Progress) (hn : s.names = [])
    (ho : s.opened = []) :
    (inGroup g more).progress s =
      ⟨(inGroup g more).text s.rest, g + 1 + s.groups, [], [g + 1]⟩ := by
  simp only [Setting.progress, hn, ho, inGroup, Nat.add_comm s.groups]
  rfl

/-- A pattern in a group begins with something other than a question mark. -/
theorem exists_text_inGroup (h : Standing flags cs a) :
    ∃ c w, (inGroup g more).text cs = c :: w ∧ c ≠ '?' := by
  cases hcs : cs with
  | nil => exact ⟨')', more, rfl, by decide⟩
  | cons c w =>
    obtain ⟨w', hw'⟩ := List.head?_eq_some_iff.mp ((inGroup g more).head?_text_cons c w)
    refine ⟨c, w', hw', ?_⟩
    rintro rfl
    exact not_question h (by rw [hcs]; rfl)

/-- The steps that lead up to a pattern in a group, and on from it. -/
theorem readPiece_inGroup (h : Standing flags cs a) :
    readPiece (f + 2) 2 flags ⟨'(' :: (inGroup g more).text cs, g, [], []⟩ =
      (do
        let b ← readAlternatives f 2 flags
        closeGroup
        modify fun s => { s with opened := s.opened.erase (g + 1) }
        repeated 2 false (.group (.capture (g + 1)) b) : Reading Syntax)
        ((inGroup g more).progress ⟨cs, 0, [], []⟩) := by
  obtain ⟨c, w, hw, hc⟩ := @exists_text_inGroup flags cs more a g h
  rw [progress_inGroup g more _ rfl rfl]
  simp only [hw, Nat.add_zero]
  exact readPiece_opening hc

/-- A text before which no repetition and no comment begins. -/
structure Unrepeated (more : List Char) : Prop where
  comment : ∀ w, more ≠ '(' :: '?' :: '#' :: w
  repetition : readRepeat more = .ok none

theorem unrepeated_nil : Unrepeated [] := ⟨fun _ h => (by cases h), rfl⟩

theorem Unrepeated.skip {s : Progress} (h : Unrepeated s.rest) : skipComments s = .ok ((), s) :=
  skipComments_eq h.comment

/-- Nothing is repeated where no repetition follows. -/
theorem repeated_none {s : Progress} {depth : Nat} {grouped : Bool} {a : Syntax}
    (h : Unrepeated s.rest) : repeated depth grouped a s = .ok (a, s) :=
  (reading_bind_eq rest_eq).trans (readRepeats_none h.skip h.repetition)

theorem Parts.unrepeated (h : Parts more) : Unrepeated more := by
  refine ⟨fun w hw => ?_, ?_⟩
  · cases h '(' (by rw [hw]; rfl)
  · cases hm : more with
    | nil => rfl
    | cons c w => rw [h c (by rw [hm]; rfl)]; rfl

theorem Parts.endsRow (h : Parts more) : Regex.endsRow more = true := by
  cases hm : more with
  | nil => rfl
  | cons c w => rw [h c (by rw [hm]; rfl)]; rfl

/-- A branch that begins with a group. -/
theorem readBranch_group (h : Standing flags cs a) :
    readBranch (f + 1) 2 flags ⟨wrapped (g + 1) (pieces cs) ++ more, g, [], []⟩ =
      (do
        let a ← readPiece f 2 flags
        if ← atRowEnd then return a else return .cat a (← readRow f 2 flags) : Reading Syntax)
        ⟨wrapped (g + 1) (pieces cs) ++ more, g, [], []⟩ := by
  obtain ⟨c, w, hw, hc⟩ := @exists_text_inGroup flags cs more a g h
  rw [text_inGroup, hw]
  exact readBranch_opening hc

/-- **A pattern in a group of its own is the group of its tree, moved.** -/
theorem readPiece_wrapped (h : Standing flags cs a) (hmore : Unrepeated more)
    (hf : readingSteps cs.length ≤ f)
    (hin : ∀ C : Setting, C.Closes → ∀ spare,
      readAlternatives (readingSteps cs.length + spare) 2 flags (C.progress ⟨cs, 0, [], []⟩) =
        .ok (a.moved C.offset, C.progress ⟨[], opens cs, [], []⟩)) :
    readPiece (f + 2) 2 flags ⟨wrapped (g + 1) (pieces cs) ++ more, g, [], []⟩ =
      .ok (.group (.capture (g + 1)) (a.moved (g + 1)), ⟨more, g + 1 + opens cs, [], []⟩) := by
  obtain ⟨spare, rfl⟩ := Nat.exists_eq_add_of_le hf
  rw [text_inGroup, readPiece_inGroup h,
    reading_bind_eq (hin (inGroup g more) (closes_inGroup g more) spare),
    progress_inGroup g more _ rfl rfl]
  refine (reading_bind_eq (a := ()) (t := ⟨more, g + 1 + opens cs, [], [g + 1]⟩) rfl).trans ?_
  refine (reading_bind_eq (a := ()) (t := ⟨more, g + 1 + opens cs, [], []⟩) ?_).trans ?_
  · show Except.ok ((), (⟨more, g + 1 + opens cs, [], [g + 1].erase (g + 1)⟩ : Progress)) = _
    rw [List.erase_cons_head]
  exact repeated_none hmore

/-- A pattern that is too deep in every setting is so in a group of its own. -/
theorem readPiece_deep (h : Standing flags cs a) (hf : readingSteps cs.length ≤ f)
    (hin : ∀ C : Setting, C.Closes → ∀ spare,
      readAlternatives (readingSteps cs.length + spare) 2 flags (C.progress ⟨cs, 0, [], []⟩) =
        .error .tooDeep) :
    readPiece (f + 2) 2 flags ⟨wrapped (g + 1) (pieces cs) ++ more, g, [], []⟩ =
      .error .tooDeep := by
  obtain ⟨spare, rfl⟩ := Nat.exists_eq_add_of_le hf
  rw [text_inGroup, readPiece_inGroup h]
  exact reading_bind_error (hin (inGroup g more) (closes_inGroup g more) spare)

theorem readBranch_wrapped (h : Standing flags cs a) (hmore : Parts more)
    (hf : readingSteps cs.length ≤ f)
    (hin : ∀ C : Setting, C.Closes → ∀ spare,
      readAlternatives (readingSteps cs.length + spare) 2 flags (C.progress ⟨cs, 0, [], []⟩) =
        .ok (a.moved C.offset, C.progress ⟨[], opens cs, [], []⟩)) :
    readBranch (f + 3) 2 flags ⟨wrapped (g + 1) (pieces cs) ++ more, g, [], []⟩ =
      .ok (.group (.capture (g + 1)) (a.moved (g + 1)), ⟨more, g + 1 + opens cs, [], []⟩) := by
  rw [readBranch_group h, reading_bind_eq (readPiece_wrapped h hmore.unrepeated hf hin),
    reading_bind_eq atRowEnd_eq, hmore.endsRow]
  rfl

theorem readBranch_deep (h : Standing flags cs a) (hf : readingSteps cs.length ≤ f)
    (hin : ∀ C : Setting, C.Closes → ∀ spare,
      readAlternatives (readingSteps cs.length + spare) 2 flags (C.progress ⟨cs, 0, [], []⟩) =
        .error .tooDeep) :
    readBranch (f + 3) 2 flags ⟨wrapped (g + 1) (pieces cs) ++ more, g, [], []⟩ =
      .error .tooDeep := by
  rw [readBranch_group h]
  exact reading_bind_error (readPiece_deep h hf hin)

end Wrapped

/-! ## 4. Merged patterns -/

/-- Patterns, each in a group of its own and with its references moved, with bars between them, when
    `g` groups stand before the first. -/
def mergedText : Nat → List (List Char) → List Char
  | _, [] => []
  | g, [cs] => wrapped (g + 1) (pieces cs)
  | g, cs :: ds :: more =>
    wrapped (g + 1) (pieces cs) ++ '|' :: mergedText (g + 1 + opens cs) (ds :: more)

/-- The tree of merged patterns, each of which has a tree of its own. -/
def mergedTree : Nat → List (List Char × Syntax) → Syntax
  | _, [] => .empty
  | g, [p] => .group (.capture (g + 1)) (p.2.moved (g + 1))
  | g, p :: q :: more =>
    .alt (.group (.capture (g + 1)) (p.2.moved (g + 1)))
      (mergedTree (g + 1 + opens p.1) (q :: more))

/-- How many groups merged patterns have, with those before them. -/
def mergedGroups (g : Nat) (parts : List (List Char × Syntax)) : Nat :=
  parts.foldl (fun g p => g + 1 + opens p.1) g

/-- A pattern that is not too deep in a group of its own. -/
def Fits (flags : Flags) (p : List Char × Syntax) : Prop :=
  ∀ C : Setting, C.Closes → ∀ spare,
    readAlternatives (readingSteps p.1.length + spare) 2 flags (C.progress ⟨p.1, 0, [], []⟩) =
      .ok (p.2.moved C.offset, C.progress ⟨[], opens p.1, [], []⟩)

theorem length_wrapped {cs : List Char} (g : Nat) (h : Clear 0 cs) :
    cs.length + 2 ≤ (wrapped g (pieces cs)).length := by
  have := length_renumbered g h
  rw [wrapped_pieces]
  simp only [List.length_cons, List.length_append, List.length_nil]
  omega

section Merged

variable {flags : Flags}

/-- The alternatives of merged patterns, from one of them on. -/
def readParts (flags : Flags) (last : Syntax → Syntax) (f : Nat) : Reading Syntax :=
  readBranch f 2 flags >>= readBar (readFurther f 2 flags) last

theorem readParts_cons {last : Syntax → Syntax} {p q : List Char × Syntax}
    {parts : List (List Char × Syntax)} {g f : Nat} (h : Standing flags p.1 p.2)
    (hp : Fits flags p) (hf : readingSteps p.1.length + 3 ≤ f + 1) :
    readParts flags last (f + 1) ⟨mergedText g ((p :: q :: parts).map (·.1)), g, [], []⟩ =
      (readParts flags Syntax.held f >>= fun b =>
        pure (.alt (.group (.capture (g + 1)) (p.2.moved (g + 1))) b) : Reading Syntax)
        ⟨mergedText (g + 1 + opens p.1) ((q :: parts).map (·.1)), g + 1 + opens p.1, [], []⟩ := by
  obtain ⟨n, hn⟩ := Nat.exists_eq_add_of_le hf
  have hbar : Parts ('|' :: mergedText (g + 1 + opens p.1) ((q :: parts).map (·.1))) := by
    intro c hc
    cases hc
    rfl
  have hfit := readBranch_wrapped (g := g) (f := readingSteps p.1.length + n) h hbar
    (Nat.le_add_right _ _) hp
  rw [show readingSteps p.1.length + n + 3 = f + 1 by omega] at hfit
  refine (reading_bind_eq hfit).trans ?_
  rw [readBar_eq]
  simp only [List.head?_cons, beq_self_eq_true, if_true, List.tail_cons]
  rw [readFurther_succ]
  rfl

theorem readParts_singleton {last : Syntax → Syntax} (hlast : ∀ k a, last (.group k a) = .group k a)
    {p : List Char × Syntax} {g f : Nat} (h : Standing flags p.1 p.2) (hp : Fits flags p)
    (hf : readingSteps p.1.length + 3 ≤ f) :
    readParts flags last f ⟨mergedText g [p.1], g, [], []⟩ =
      .ok (mergedTree g [p], ⟨[], mergedGroups g [p], [], []⟩) := by
  obtain ⟨n, hn⟩ := Nat.exists_eq_add_of_le hf
  have hend : Parts [] := by
    intro c hc
    cases hc
  have hfit := readBranch_wrapped (g := g) (f := readingSteps p.1.length + n) h hend
    (Nat.le_add_right _ _) hp
  rw [show readingSteps p.1.length + n + 3 = f by omega, List.append_nil] at hfit
  refine (reading_bind_eq hfit).trans ?_
  rw [readBar_eq, hlast]
  rfl

/-- **Merged patterns are read one after another.** -/
theorem readParts_merged : ∀ (parts : List (List Char × Syntax)) {last : Syntax → Syntax} (g f : Nat),
    (∀ k a, last (.group k a) = .group k a) → parts ≠ [] →
    (∀ p ∈ parts, Standing flags p.1 p.2 ∧ Fits flags p) →
    4 * (mergedText g (parts.map (·.1))).length ≤ f →
    readParts flags last f ⟨mergedText g (parts.map (·.1)), g, [], []⟩ =
      .ok (mergedTree g parts, ⟨[], mergedGroups g parts, [], []⟩)
  | [], _, _, _, _, hne, _, _ => absurd rfl hne
  | [p], last, g, f, hlast, _, h, hf => by
      obtain ⟨hst, hp⟩ := h p (by simp)
      have hlen := length_wrapped (g + 1) hst.clear
      refine readParts_singleton hlast hst hp ?_
      simp only [List.map_cons, List.map_nil, mergedText] at hf
      simp only [readingSteps]
      omega
  | p :: q :: parts, last, g, f, hlast, _, h, hf => by
      obtain ⟨hst, hp⟩ := h p (by simp)
      have hlen := length_wrapped (g + 1) hst.clear
      simp only [List.map_cons, mergedText, List.length_append, List.length_cons] at hf
      obtain ⟨f, rfl⟩ : ∃ n, f = n + 1 := ⟨f - 1, by omega⟩
      rw [readParts_cons hst hp (by simp only [readingSteps]; omega)]
      refine (reading_bind_eq (readParts_merged (q :: parts) (g + 1 + opens p.1) f (fun _ _ => rfl)
        (by simp) (fun r hr => h r (List.mem_cons_of_mem p hr)) ?_)).trans ?_
      · simp only [List.map_cons]
        omega
      · rfl

/-- **Where merged patterns can be read none of them is too deep.** -/
theorem fits_of_readParts : ∀ (parts : List (List Char × Syntax)) {last : Syntax → Syntax} (g f : Nat)
    {r : Syntax × Progress}, (∀ p ∈ parts, Standing flags p.1 p.2) →
    4 * (mergedText g (parts.map (·.1))).length ≤ f →
    readParts flags last f ⟨mergedText g (parts.map (·.1)), g, [], []⟩ = .ok r →
    ∀ p ∈ parts, Fits flags p
  | [], _, _, _, _, _, _, _, p, hp => by cases hp
  | p :: parts, last, g, f, r, h, hf, hr, p', hp' => by
      have hst := h p (by simp)
      have hlen := length_wrapped (g + 1) hst.clear
      obtain ⟨more, hmore⟩ : ∃ more, mergedText g ((p :: parts).map (·.1)) =
          wrapped (g + 1) (pieces p.1) ++ more := by
        cases parts with
        | nil => exact ⟨[], (List.append_nil _).symm⟩
        | cons q parts => exact ⟨_, rfl⟩
      have hf1 : 4 * p.1.length + 8 ≤ f := by
        rw [hmore, List.length_append] at hf
        omega
      have hfits : Fits flags p := by
        rcases hst.inside with hin | ⟨_, hin⟩
        · exact hin
        · exfalso
          obtain ⟨n, rfl⟩ := Nat.exists_eq_add_of_le hf1
          have hdeep : readBranch (4 * p.1.length + 5 + n + 3) 2 flags
              ⟨wrapped (g + 1) (pieces p.1) ++ more, g, [], []⟩ = .error .tooDeep :=
            readBranch_deep hst (by simp only [readingSteps]; omega) hin
          rw [show 4 * p.1.length + 5 + n + 3 = 4 * p.1.length + 8 + n by omega, ← hmore] at hdeep
          rw [readParts, reading_bind_error hdeep] at hr
          cases hr
      rcases List.mem_cons.mp hp' with rfl | hp'
      · exact hfits
      · cases parts with
        | nil => cases hp'
        | cons q parts =>
          obtain ⟨f, rfl⟩ : ∃ n, f = n + 1 := ⟨f - 1, by omega⟩
          rw [readParts_cons hst hfits (by simp only [readingSteps]; omega)] at hr
          obtain ⟨b, s1, hb, _⟩ := reading_bind_ok hr
          refine fits_of_readParts (q :: parts) (g + 1 + opens p.1) f
            (fun r hr => h r (List.mem_cons_of_mem p hr)) ?_ hb p' hp'
          simp only [List.map_cons, mergedText, List.length_append, List.length_cons] at hf ⊢
          omega

end Merged

/-! ## 5. The whole text -/

theorem toList_intercalate_wrapAll : ∀ (g : Nat) (patterns : List String),
    (String.intercalate "|" (wrapAll g patterns)).toList = mergedText g (patterns.map String.toList)
  | _, [] => rfl
  | g, [p] => by
      simp [wrapAll, mergedText]
  | g, p :: q :: patterns => by
      have ih := toList_intercalate_wrapAll (g + 1 + opens p.toList) (q :: patterns)
      rw [String.toList_intercalate] at ih ⊢
      rw [List.map_cons, List.map_cons, mergedText]
      simp only [List.map_cons] at ih
      rw [← ih]
      simp [wrapAll, opens]

/-- **The merged text is each pattern in a group, with bars between.** -/
theorem toList_merge (patterns : List String) :
    (merge patterns "|").toList = mergedText 0 (patterns.map String.toList) :=
  toList_intercalate_wrapAll 0 patterns

section Whole

variable {folded : Bool} {parts : List (List Char × Syntax)}

/-- **Merged patterns that are not too deep are read as their trees, each in a group.** -/
theorem readSyntax_merged (h : ∀ p ∈ parts, Standing ⟨folded, false⟩ p.1 p.2) (hne : parts ≠ [])
    (hfits : ∀ p ∈ parts, Fits ⟨folded, false⟩ p) :
    readSyntax (mergedText 0 (parts.map (·.1))) folded =
      .ok (mergedTree 0 parts, mergedGroups 0 parts) := by
  refine readSyntax_of_alternatives ?_
  rw [readingSteps, readAlternatives_succ, if_neg (by decide)]
  exact readParts_merged parts 0 _ (fun _ _ => rfl) hne (fun p hp => ⟨h p hp, hfits p hp⟩)
    (Nat.le_add_right _ 3)

/-- **Where the merged text can be read no pattern is too deep.** -/
theorem fits_of_readSyntax {r : Syntax × Nat} (h : ∀ p ∈ parts, Standing ⟨folded, false⟩ p.1 p.2)
    (hr : readSyntax (mergedText 0 (parts.map (·.1))) folded = .ok r) :
    ∀ p ∈ parts, Fits ⟨folded, false⟩ p := by
  obtain ⟨s, hs, _⟩ := readSyntax_ok hr
  rw [readingSteps, readAlternatives_succ, if_neg (by decide)] at hs
  exact fits_of_readParts parts 0 _ h (Nat.le_add_right _ 3) hs

end Whole

end Highlight.Pattern
