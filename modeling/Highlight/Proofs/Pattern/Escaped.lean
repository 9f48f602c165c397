import Highlight.Proofs.Pattern.Compiled
import Highlight.Proofs.Pattern.Rewriting
import Highlight.Proofs.Regex.Extent
import Highlight.Proofs.Text.Boundaries

/-!
# Escaped text

What is escaped is meant to be read as it stands. Here it is cut into pieces, which are characters
and nothing else, and it is read, character by character, up to the parenthesis that ends it or to
the end of the pattern.

* `pieces_escapeChars`, `renumbered_escapeChars` -- the pieces, none of which is changed;
* `wrapAll_escape` -- what merging makes of escaped text and of the patterns behind it;
* `readText_escapeChars`, `readAlternatives_escapeChars` -- **it is read as the text that was
  escaped**;
* `compile_escape`, `matchFrom_escape` -- what it matches by itself.
-/

namespace Highlight.Pattern

open Regex

/-! ## 1. The pieces of escaped text -/

/-- The piece that a character becomes when it is escaped. -/
def Piece.ofChar (c : Char) : Piece := if isSpecial c then .escaped c else .plain c

section Pieces

variable {c : Char} {cs : List Char}

/-- The characters that are escaped. -/
def specials : List Char :=
  ['-', '/', '\\', '^', '$', '*', '+', '?', '.', '(', ')', '|', '[', ']', '\x7b', '\x7d']

theorem mem_specials (h : isSpecial c = true) : c ∈ specials := List.contains_iff_mem.mp h

theorem escapeChars_special (h : isSpecial c = true) (cs : List Char) :
    escapeChars (c :: cs) = '\\' :: c :: escapeChars cs := if_pos h

theorem escapeChars_other (h : isSpecial c = false) (cs : List Char) :
    escapeChars (c :: cs) = c :: escapeChars cs := if_neg (by simp [h])

/-- What is not escaped is no character that a pattern gives a meaning. -/
theorem ne_of_not_special {d : Char} (h : isSpecial c = false) (hd : isSpecial d = true) : c ≠ d := by
  rintro rfl
  cases h.symm.trans hd

theorem isBare_of_not_special (h : isSpecial c = false) : isBare c = true := by
  simp only [isBare, Bool.and_eq_true, bne_iff_ne]
  exact ⟨⟨ne_of_not_special h rfl, ne_of_not_special h rfl⟩, ne_of_not_special h rfl⟩

/-- **The pieces of escaped text are its characters.** -/
theorem pieces_escapeChars (cs : List Char) : pieces (escapeChars cs) = cs.map Piece.ofChar := by
  induction cs with
  | nil => rfl
  | cons c cs ih =>
    rw [List.map_cons, ← ih, Piece.ofChar]
    cases h : isSpecial c with
    | true =>
      have hall : (specials.all fun d => isLeading d == false && d != '\n') = true := by decide
      obtain ⟨hleading, hnewline⟩ := (Bool.and_eq_true _ _).mp
        (List.all_eq_true.mp hall c (mem_specials h))
      rw [escapeChars_special h, pieces_cons,
        nextPiece_escaped (beq_iff_eq.mp hleading) (bne_iff_ne.mp hnewline)]
      rfl
    | false =>
      rw [escapeChars_other h, pieces_cons, nextPiece_bare (isBare_of_not_special h)]
      rfl

theorem opens_escapeChars (cs : List Char) : opens (escapeChars cs) = 0 := by
  rw [opens, pieces_escapeChars, openings, List.countP_map]
  refine List.countP_eq_zero.mpr fun c _ => ?_
  simp only [Function.comp_apply, Piece.ofChar]
  cases isSpecial c <;> exact Bool.false_ne_true

/-- Renumbering changes nothing in escaped text. -/
theorem renumbered_escapeChars (offset : Nat) (cs : List Char) :
    renumbered offset (escapeChars cs) = escapeChars cs := by
  rw [renumbered, pieces_escapeChars]
  induction cs with
  | nil => rfl
  | cons c cs ih =>
    rw [List.map_cons, List.flatMap_cons, ih, Piece.ofChar]
    cases h : isSpecial c with
    | true => rw [escapeChars_special h]; rfl
    | false => rw [escapeChars_other h]; rfl

end Pieces

theorem parenthesised_toList (s : String) : parenthesised s.toList = "(" ++ s ++ ")" := by
  rw [← String.toList_inj]
  simp [parenthesised]

theorem toList_escape (v : String) : (escape v).toList = escapeChars v.toList :=
  String.toList_ofList

/-- **Merging puts escaped text in parentheses and leaves it as it is**; the patterns behind it move
    by the one group that these make. -/
theorem wrapAll_escape (v : String) (before after : List String) :
    wrapAll 0 (before ++ escape v :: after) =
      wrapAll 0 before ++ parenthesised (escape v).toList :: wrapAll (openedBy before + 1) after := by
  rw [wrapAll_append, Nat.zero_add, wrapAll, toList_escape]
  refine congrArg (_ ++ ·) (congrArg₂ List.cons ?_ ?_)
  · rw [wrapped_pieces, renumbered_escapeChars]
    rfl
  · rw [show openings (pieces (escapeChars v.toList)) = 0 from opens_escapeChars _]

/-! ## 2. Reading -/

/-- What stands behind a text that fills a group or a pattern: nothing, or the parenthesis that
    closes the group. -/
def Ended (more : List Char) : Prop := ∀ c, more.head? = some c → c = ')'

theorem Ended.eq {more : List Char} (h : Ended more) : more = [] ∨ ∃ w, more = ')' :: w := by
  cases more with
  | nil => exact .inl rfl
  | cons c w => exact .inr ⟨w, by rw [h c rfl]⟩

theorem Ended.unrepeated {more : List Char} (h : Ended more) : Unrepeated more := by
  rcases h.eq with rfl | ⟨w, rfl⟩
  · exact unrepeated_nil
  · exact ⟨fun _ h => (by cases h), rfl⟩

section Reading

variable {c : Char} {cs more : List Char} {s : Progress} {groups : Nat}

theorem isPlainEscape_special (h : isSpecial c = true) (groups : Nat) (cs : List Char) :
    isPlainEscape groups (c :: cs) = true := by
  have hspecial := mem_specials h
  simp only [specials, List.mem_cons, List.not_mem_nil, or_false] at hspecial
  rcases hspecial with rfl | rfl | rfl | rfl | rfl | rfl | rfl | rfl | rfl | rfl | rfl | rfl | rfl |
    rfl | rfl | rfl <;> rfl

theorem readRepeat_other (h : isSpecial c = false) (cs : List Char) :
    readRepeat (c :: cs) = .ok none := by
  unfold readRepeat
  split
  · rename_i heq
    cases heq
    cases h
  · rename_i heq
    cases heq
    cases h
  · rename_i heq
    cases heq
    cases h
  · rename_i heq
    cases heq
    cases h
  · rfl

/-- Each character of escaped text is read as itself. -/
theorem readPlain_escapeChars (groups : Nat) (c : Char) (cs more : List Char) :
    readPlain groups (escapeChars (c :: cs) ++ more) = .ok (some (c, escapeChars cs ++ more)) := by
  cases h : isSpecial c with
  | true =>
    rw [escapeChars_special h, List.cons_append, List.cons_append, readPlain_escaped,
      if_pos (isPlainEscape_special h _ _)]
  | false =>
    have hplain : ¬ announces.contains c = true := by
      intro hc
      have hall : announces.all isSpecial = true := by decide
      exact ne_of_not_special h (List.all_eq_true.mp hall c (List.contains_iff_mem.mp hc)) rfl
    rw [escapeChars_other h, List.cons_append, readPlain_unescaped (ne_of_not_special h rfl),
      if_neg hplain, readRepeat_other h]
    rfl

/-- No comment begins in escaped text. -/
theorem skipComments_escapeChars (hmore : Ended more) (hs : s.rest = escapeChars cs ++ more) :
    skipComments s = .ok ((), s) := by
  refine skipComments_eq fun w hw => ?_
  rw [hs] at hw
  cases cs with
  | nil => exact hmore.unrepeated.comment w hw
  | cons c cs =>
    cases h : isSpecial c with
    | true =>
      rw [escapeChars_special h] at hw
      cases hw
    | false =>
      rw [escapeChars_other h] at hw
      exact ne_of_not_special h rfl (List.cons.inj hw).1

theorem readText_escapeChars (hmore : Ended more) : ∀ (cs : List Char) {f : Nat} {s : Progress},
    cs.length ≤ f → s.rest = escapeChars cs ++ more →
    readText f s = .ok (cs, { s with rest := more })
  | [], f, s, _, hs => by
      have hskip := skipComments_escapeChars hmore hs
      obtain ⟨rest, groups, names, opened⟩ := s
      cases hs
      refine readText_nil hskip ?_
      rcases hmore.eq with rfl | ⟨w, rfl⟩ <;> rfl
  | c :: cs, f + 1, s, hf, hs => by
      refine (readText_cons (skipComments_escapeChars hmore hs) (hs ▸ readPlain_escapeChars _ c cs more)).trans ?_
      exact reading_bind_eq (readText_escapeChars hmore cs (Nat.le_of_succ_le_succ hf) rfl)

theorem length_le_escapeChars (cs : List Char) : cs.length ≤ (escapeChars cs).length := by
  induction cs with
  | nil => exact Nat.le_refl 0
  | cons c cs ih =>
    cases h : isSpecial c with
    | true =>
      rw [escapeChars_special h]
      simp only [List.length_cons]
      omega
    | false =>
      rw [escapeChars_other h]
      exact Nat.succ_le_succ ih

/-- **Escaped text is read as the text that was escaped.** -/
theorem readBranch_escapeChars (hmore : Ended more) {f depth : Nat} {isDotAll : Bool}
    (hs : s.rest = escapeChars cs ++ more) :
    readBranch (f + 2) depth ⟨false, isDotAll⟩ s = .ok (.text cs false, { s with rest := more }) := by
  have hend : ∀ s' : Progress, s'.rest = more → atRowEnd s' = .ok (true, s') := by
    rintro s' rfl
    rw [atRowEnd_eq]
    rcases hmore.eq with h | ⟨w, h⟩ <;> rw [h] <;> rfl
  rw [readBranch_succ, reading_bind_eq (skipComments_escapeChars hmore hs)]
  cases cs with
  | nil =>
    rw [reading_bind_eq (hend s hs)]
    obtain ⟨rest, groups, names, opened⟩ := s
    cases hs
    rfl
  | cons c cs =>
    have hpiece : readPiece (f + 1) depth ⟨false, isDotAll⟩ s =
        .ok (.text (c :: cs) false, { s with rest := more }) := by
      rw [readPiece_succ, reading_bind_eq rest_eq, hs]
      refine (reading_bind_eq (readText_escapeChars hmore (c :: cs) ?_ hs)).trans
        (repeated_none hmore.unrepeated)
      have := length_le_escapeChars (c :: cs)
      rw [List.length_append]
      omega
    have hgoes : atRowEnd s = .ok (false, s) := by
      rw [atRowEnd_eq, hs]
      refine congrArg (fun e => Except.ok (e, s)) ?_
      cases h : isSpecial c with
      | true => rw [escapeChars_special h]; rfl
      | false =>
        rw [escapeChars_other h, List.cons_append, endsRow, List.head?_cons, Option.all_some,
          beq_eq_false_iff_ne.mpr (ne_of_not_special h rfl),
          beq_eq_false_iff_ne.mpr (ne_of_not_special h rfl), Bool.or_self]
    rw [reading_bind_eq hgoes]
    refine (reading_bind_eq hpiece).trans ?_
    exact reading_bind_eq (hend _ rfl)

theorem readAlternatives_escapeChars (hmore : Ended more) {f depth : Nat} {isDotAll : Bool}
    (hdepth : depth + 2 ≤ maxNesting) (hs : s.rest = escapeChars cs ++ more) :
    readAlternatives (f + 3) depth ⟨false, isDotAll⟩ s =
      .ok (.text cs false, { s with rest := more }) := by
  rw [readAlternatives_succ, if_neg (Nat.not_lt.mpr hdepth),
    reading_bind_eq (readBranch_escapeChars hmore hs), readBar_eq]
  rcases hmore.eq with rfl | ⟨w, rfl⟩ <;> rfl

end Reading

/-! ## 3. What escaped text matches -/

theorem readSyntax_escapeChars (cs : List Char) :
    readSyntax (escapeChars cs) false = .ok (.text cs false, 0) := by
  refine readSyntax_of_alternatives ?_
  have hended : Ended [] := fun _ h => by cases h
  exact readAlternatives_escapeChars hended (f := 4 * (escapeChars cs).length + 1) (by decide)
    (List.append_nil _).symm

/-- **Escaped text can be compiled**, and means the text that was escaped. -/
theorem compile_escape (v : String) : compile (escape v) false = .ok ⟨.text v.toList, 0⟩ := by
  rw [compile, toList_escape, readPattern_of_readSyntax (readSyntax_escapeChars _)
    fun _ h => absurd h List.not_mem_nil]
  rfl

section Matches

variable {text : Text} {i : Nat}

/-- That a text goes on with some characters. -/
def GoesOnWith (text : Text) (i : Nat) (cs : List Char) : Prop := cs <+: text.toList.drop i

theorem standsAt_iff (text : Text) : ∀ (cs : List Char) (i : Nat),
    standsAt text cs i = true ↔ GoesOnWith text i cs
  | [], i => ⟨fun _ => List.nil_prefix, fun _ => rfl⟩
  | c :: cs, i => by
      have ih := standsAt_iff text cs (i + 1)
      unfold GoesOnWith at ih ⊢
      rw [standsAt, Bool.and_eq_true, beq_iff_eq, ih]
      cases h : text.toList.drop i with
      | nil =>
        rw [From.getElem? h]
        simp
      | cons d ds =>
        rw [From.getElem? h, From.next h, List.cons_prefix_cons, List.head?_cons, Option.some_inj,
          eq_comm]

theorem slice_of_goesOnWith {v : String} (h : GoesOnWith text i v.toList) :
    text.slice i (i + v.length) = v := by
  rw [Text.slice, Array.toList_extract, List.extract_eq_take_drop, Nat.add_sub_cancel_left,
    ← String.length_toList, ← List.prefix_iff_eq_take.mp h, String.ofList_toList]

/-- What is matched takes as many bytes as the text that was escaped. -/
theorem byteOffset_of_goesOnWith {v : String} (hi : i ≤ text.size)
    (h : GoesOnWith text i v.toList) :
    text.byteOffset (i + v.length) = text.byteOffset i + v.utf8ByteSize := by
  have hlength := standsAt_le v.toList i hi ((standsAt_iff text _ i).mpr h)
  rw [String.length_toList] at hlength
  rw [← Text.byteOffset_add_slice text (Nat.le_add_right i _) hlength, slice_of_goesOnWith h]

/-- **Escaped text matches where a text goes on with it**, and nowhere else. -/
theorem matchFrom_escape (v : String) (text : Text) (origin i : Nat) (m : Found) :
    (⟨.text v.toList, 0⟩ : Regex).matchFrom text origin i = some m ↔
      GoesOnWith text i v.toList ∧ m = ⟨⟨i, i + v.length⟩, []⟩ := by
  have hrun : (Node.text v.toList).run text origin ⟨i, []⟩ some =
      if standsAt text v.toList i then some ⟨i + v.length, []⟩ else none := by
    simp only [Node.run, Place.move, String.length_toList]
  rw [Regex.matchFrom, hrun, ← standsAt_iff]
  by_cases h : standsAt text v.toList i = true
  · rw [if_pos h, Option.map_some, Option.some_inj, eq_comm]
    exact (and_iff_right h).symm
  · rw [if_neg h]
    exact ⟨fun hnone => (by cases hnone), fun hand => absurd hand.1 h⟩

end Matches

end Highlight.Pattern
