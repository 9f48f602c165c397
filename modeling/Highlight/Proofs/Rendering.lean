import Highlight.Proofs.Text.Lines

/-!
# The caret under an excerpt

A rendered fault ends in two lines: the line of the text that the fault lies in, without its
indentation, and a caret under it. The excerpt is shown in characters, and the dashes that lead up to
the caret are as many as the bytes before the place.

* `gutter`, `margin` -- what stands to the left of the excerpt, and of the caret;
* `excerpt_at` -- the three lines of an excerpt;
* `caret_counts_bytes` -- **where the caret stands**, and when that is under the character;
* `caret_misses_character` -- a character of two bytes moves it to the right.
-/

namespace Highlight.Fault

open Highlight.Text (LinePlace byteLength lastLine linesOf lineAt)

/-! ## 1. Taking spaces away -/

theorem dropSpaces_append {c : Char} (hc : c ≠ ' ') (p cs : List Char) :
    dropSpaces (p ++ c :: cs) = dropSpaces p ++ c :: cs := by
  induction p with
  | nil => simp [dropSpaces, hc]
  | cons d p ih =>
    rcases Decidable.em (d = ' ') with rfl | hd
    · exact ih
    · simp [dropSpaces, hd]

theorem dropSpaces_subset (p : List Char) : dropSpaces p ⊆ p :=
  (List.dropWhile_sublist _).subset

/-- The spaces that are taken away take a byte each. -/
theorem byteLength_dropSpaces (p : List Char) :
    byteLength p - (p.length - (dropSpaces p).length) = byteLength (dropSpaces p) := by
  induction p with
  | nil => rfl
  | cons d p ih =>
    have hshorter : (dropSpaces p).length ≤ p.length := (List.dropWhile_sublist _).length_le
    rcases Decidable.em (d = ' ') with rfl | hd
    · have hdrop : dropSpaces (' ' :: p) = dropSpaces p := rfl
      have hspace : ' '.utf8Size = 1 := rfl
      rw [hdrop, ← ih, Text.byteLength_cons, List.length_cons, hspace]
      omega
    · have hdrop : dropSpaces (d :: p) = d :: p := by simp [dropSpaces, hd]
      rw [hdrop, Nat.sub_self, Nat.sub_zero]

theorem dropEnd_append {c : Char} (hc : Unicode.isSpace c = false) (p cs : List Char) :
    dropEnd (p ++ c :: cs) = p ++ c :: dropEnd cs := by
  rw [dropEnd, dropEnd, List.reverse_append, List.reverse_cons, List.append_assoc,
    List.dropWhile_append]
  split
  · rename_i hempty
    rw [List.isEmpty_iff.mp hempty]
    simp [hc]
  · simp

theorem dropEnd_subset (cs : List Char) : dropEnd cs ⊆ cs := fun _ hd =>
  List.mem_reverse.mp ((List.dropWhile_sublist _).subset (List.mem_reverse.mp hd))

/-- What ends a line is taken away. -/
theorem newline_notMem_dropEnd {cs : List Char} (h : '\n' ∉ cs.dropLast) : '\n' ∉ dropEnd cs := by
  rcases List.eq_nil_or_concat cs with rfl | ⟨p, d, rfl⟩
  · simp [dropEnd]
  · rw [List.concat_eq_append] at h ⊢
    rw [List.dropLast_concat] at h
    intro hmem
    cases hd : Unicode.isSpace d with
    | true =>
      have hdrop : dropEnd (p ++ [d]) = dropEnd p := by simp [dropEnd, hd]
      rw [hdrop] at hmem
      exact h (dropEnd_subset p hmem)
    | false =>
      rcases List.mem_append.mp (dropEnd_subset _ hmem) with hp | hlast
      · exact h hp
      · obtain rfl := List.mem_singleton.mp hlast
        exact absurd hd (by decide)

/-! ## 2. The lines of an excerpt -/

/-- What stands to the left of an excerpt in its line. -/
def gutter (number : Nat) : List Char := (toString number).toList ++ [' ', '|', ' ']

/-- What stands to the left of the caret in its line, or of the dashes that lead up to it. -/
def margin (number : Nat) : List Char :=
  List.replicate ((toString number).toList.length + 1) ' ' ++ ['|', ' ']

theorem length_margin (number : Nat) : (margin number).length = (gutter number).length := by
  simp [margin, gutter]

theorem newline_notMem_number (number : Nat) : '\n' ∉ (toString number).toList := by
  intro h
  have hdigits : (toString number).toList = Nat.toDigits 10 number := by
    show (String.ofList _).toList = _
    rw [String.toList_ofList]
  rw [hdigits] at h
  exact absurd (Nat.isDigit_of_mem_toDigits (by decide) (by decide) h) (by decide)

theorem newline_notMem_gutter (number : Nat) : '\n' ∉ gutter number := by
  rw [gutter, List.mem_append, not_or]
  exact ⟨newline_notMem_number number, by decide⟩

theorem newline_notMem_margin (number : Nat) : '\n' ∉ margin number := by
  rw [margin, List.mem_append, not_or]
  exact ⟨fun h => absurd (List.eq_of_mem_replicate h) (by decide), by decide⟩

/-- **An excerpt has three lines**: an empty one, what is shown of the line, and the caret. -/
theorem excerpt_eq (place : LinePlace) : excerpt place =
    List.replicate ((toString place.number).toList.length + 1) ' ' ++ ['|', '\n'] ++
      (gutter place.number ++ dropEnd (dropSpaces place.line) ++ ['\n']) ++
      (margin place.number ++ List.replicate (caretWidth place - 1) '-' ++ ['^', '\n']) := by
  simp [excerpt, gutter, margin, alignRight]

/-- A text that ends in two lines has these lines. -/
theorem linesOf_two {xs l l' : List Char} (hxs : Text.IsClosed xs) (hl : '\n' ∉ l) (hl' : '\n' ∉ l') :
    linesOf (xs ++ (l ++ ['\n']) ++ (l' ++ ['\n'])) =
      linesOf xs ++ [l ++ ['\n'], l' ++ ['\n']] := by
  have hclosed : Text.IsClosed (xs ++ (l ++ ['\n'])) := .inr ⟨xs ++ l, (List.append_assoc ..).symm⟩
  have hone : ∀ {l : List Char}, '\n' ∉ l → linesOf (l ++ ['\n']) = [l ++ ['\n']] := fun hl =>
    Text.linesOf_append_open hl (Text.linesOf_newline [])
  rw [Text.linesOf_append hclosed, Text.linesOf_append hxs, hone hl, hone hl', List.append_assoc]
  rfl

/-- **A rendered fault ends in an excerpt and a caret under it**, where it has a place. -/
theorem linesOf_render {f : Fault} {code : String} {place : LinePlace}
    (hplace : lineAt code f.position.offset = some place)
    (hline : '\n' ∉ dropEnd (dropSpaces place.line)) : ∃ head, linesOf (f.render code).toList = head ++
      [gutter place.number ++ dropEnd (dropSpaces place.line) ++ ['\n'],
        margin place.number ++ List.replicate (caretWidth place - 1) '-' ++ ['^', '\n']] := by
  -- the first line of the excerpt stands with what comes before it
  let opening := (f.headline ++ "-> " ++ f.position.language ++ "\n").toList ++
    (List.replicate ((toString place.number).toList.length + 1) ' ' ++ ['|'])
  have htext : (f.render code).toList = (opening ++ ['\n']) ++
      (gutter place.number ++ dropEnd (dropSpaces place.line) ++ ['\n']) ++
      (margin place.number ++ List.replicate (caretWidth place - 1) '-' ++ ['^'] ++ ['\n']) := by
    simp only [render, hplace, String.toList_append, String.toList_ofList, excerpt_eq, opening]
    simp
  have hcaret : '\n' ∉ margin place.number ++ List.replicate (caretWidth place - 1) '-' ++ ['^'] := by
    simp only [List.mem_append, not_or]
    exact ⟨⟨newline_notMem_margin _, fun h => absurd (List.eq_of_mem_replicate h) (by decide)⟩,
      by decide⟩
  have hexcerpt : '\n' ∉ gutter place.number ++ dropEnd (dropSpaces place.line) := by
    rw [List.mem_append, not_or]
    exact ⟨newline_notMem_gutter _, hline⟩
  refine ⟨linesOf (opening ++ ['\n']), ?_⟩
  rw [htext, linesOf_two (.inr ⟨opening, rfl⟩) hexcerpt hcaret, List.append_assoc _ ['^']]
  rfl

/-! ## 3. Where the caret stands -/

/-- A text takes as many bytes as it has characters where each of them takes a single byte. -/
theorem byteLength_eq_length_iff (cs : List Char) :
    byteLength cs = cs.length ↔ ∀ c ∈ cs, c.utf8Size = 1 := by
  have hle : ∀ cs : List Char, cs.length ≤ byteLength cs := fun cs => by
    induction cs with
    | nil => exact Nat.le_refl 0
    | cons c cs ih =>
      have hpos := c.utf8Size_pos
      rw [List.length_cons, Text.byteLength_cons]
      omega
  induction cs with
  | nil => simp
  | cons c cs ih =>
    have hpos := c.utf8Size_pos
    have hrest := hle cs
    rw [Text.byteLength_cons, List.length_cons]
    refine Iff.trans ?_ (List.forall_mem_cons.trans (and_congr_right fun _ => ih.symm)).symm
    omega

variable {f : Fault} {code : String} {before after : List Char} {c : Char}

/-- What is found at the offset of a character, and how wide the caret under it is. -/
theorem place_of_character (hcode : code.toList = before ++ c :: after)
    (hoffset : f.position.offset = byteLength before) (hc : Unicode.isSpace c = false) :
    ∃ place tail, lineAt code f.position.offset = some place ∧
      place.number = before.count '\n' + 1 ∧
      dropSpaces place.line = dropSpaces (lastLine before) ++ c :: tail ∧
      '\n' ∉ (c :: tail).dropLast ∧
      caretWidth place = byteLength (dropSpaces (lastLine before)) + 1 := by
  obtain ⟨tail, rest, hlines, hplace⟩ := Text.lineAt_inside (k := 0) hcode c.utf8Size_pos
  have hspace : c ≠ ' ' := by
    rintro rfl
    exact absurd hc (by decide)
  have hinner := (Text.isLines_linesOf (c :: after)).inner (c :: tail)
    (by rw [hlines]; exact List.mem_cons_self)
  rw [Nat.add_zero, ← hoffset] at hplace
  refine ⟨_, tail, hplace, rfl, dropSpaces_append hspace _ _, hinner.2, ?_⟩
  have hshorter : (dropSpaces (lastLine before)).length ≤ (lastLine before).length :=
    (List.dropWhile_sublist _).length_le
  have hremoved : (lastLine before ++ c :: tail).length -
      (dropSpaces (lastLine before ++ c :: tail)).length =
      (lastLine before).length - (dropSpaces (lastLine before)).length := by
    rw [dropSpaces_append hspace, List.length_append, List.length_append]
    omega
  show byteLength (lastLine before) - _ + 1 = _
  rw [hremoved, byteLength_dropSpaces]

/-- **The dashes before the caret are as many as the bytes before the place**, from where the line is
    no longer indented. A fault that lies at a character other than white space is rendered if the
    caret is not too wide. Then it ends in the line of the character, without its indentation, and in
    a line with the caret; and the caret stands under the character just where every character before
    it takes a single byte. -/
theorem caret_counts_bytes (hcode : code.toList = before ++ c :: after)
    (hoffset : f.position.offset = byteLength before) (hc : Unicode.isSpace c = false) :
    (f.render? code = none ↔ maxWidth ≤ byteLength (dropSpaces (lastLine before))) ∧
    ∀ shown, f.render? code = some shown → ∃ head rest,
      linesOf shown.toList = head ++
        [gutter (before.count '\n' + 1) ++ dropSpaces (lastLine before) ++ c :: rest ++ ['\n'],
          margin (before.count '\n' + 1) ++
            List.replicate (byteLength (dropSpaces (lastLine before))) '-' ++ ['^', '\n']] ∧
      ((margin (before.count '\n' + 1) ++
          List.replicate (byteLength (dropSpaces (lastLine before))) '-').length =
        (gutter (before.count '\n' + 1) ++ dropSpaces (lastLine before)).length ↔
        ∀ d ∈ dropSpaces (lastLine before), d.utf8Size = 1) := by
  obtain ⟨place, tail, hplace, hnumber, hline, htail, hwidth⟩ :=
    place_of_character hcode hoffset hc
  have hrender : f.render? code =
      if maxWidth < byteLength (dropSpaces (lastLine before)) + 1 then none
      else some (f.render code) := by
    simp only [render?, hplace, Option.any_some, hwidth, decide_eq_true_eq]
  refine ⟨?_, fun shown hshown => ?_⟩
  · rw [hrender]
    split <;> simp <;> omega
  · have hshown : f.render code = shown := by
      rw [hrender] at hshown
      split at hshown
      · cases hshown
      · exact Option.some.inj hshown
    have hend : dropEnd (dropSpaces place.line) =
        dropSpaces (lastLine before) ++ c :: dropEnd tail := by
      rw [hline, dropEnd_append hc]
    have hnewline : '\n' ∉ dropEnd (dropSpaces place.line) := by
      rw [hline]
      refine newline_notMem_dropEnd ?_
      rw [List.dropLast_append_of_ne_nil (List.cons_ne_nil _ _), List.mem_append, not_or]
      exact ⟨fun h => Text.newline_notMem_lastLine before (dropSpaces_subset _ h), htail⟩
    obtain ⟨head, hlines⟩ := linesOf_render hplace hnewline
    rw [hshown, hend, hnumber, hwidth, Nat.add_sub_cancel, ← List.append_assoc (gutter _)] at hlines
    refine ⟨head, dropEnd tail, hlines, ?_⟩
    rw [List.length_append, List.length_append, length_margin, List.length_replicate,
      Nat.add_left_cancel_iff]
    exact byteLength_eq_length_iff _

/-- Behind three letters and a space, in an indented second line, the caret stands under the
    character. -/
theorem caret_under_second_line : ∃ shown head rest,
    render? ⟨.illegalLexeme "!" "<unnamed>", ⟨14, "ini"⟩⟩ "key = 1\n  bad ! value\n" = some shown ∧
    linesOf shown.toList = head ++
      ["2 | bad !".toList ++ rest ++ ['\n'], "  | ----^\n".toList] := by
  obtain ⟨hnone, hsome⟩ := @caret_counts_bytes ⟨.illegalLexeme "!" "<unnamed>", ⟨14, "ini"⟩⟩
    "key = 1\n  bad ! value\n" "key = 1\n  bad ".toList " value\n".toList '!' (by decide)
    (by decide) (by decide)
  cases hshown : render? ⟨.illegalLexeme "!" "<unnamed>", ⟨14, "ini"⟩⟩ "key = 1\n  bad ! value\n" with
  | none => exact absurd (hnone.mp hshown) (by decide)
  | some shown =>
    obtain ⟨head, rest, hlines, -⟩ := hsome shown hshown
    exact ⟨shown, head, rest, rfl, hlines⟩

/-- **A character of two bytes moves the caret to the right**: in the excerpt the character that is
    forbidden has five characters before it, and the caret six. -/
theorem caret_misses_character :
    "é!".toList = ['é'] ++ '!' :: [] ∧ byteLength ['é'] = 2 ∧ Unicode.isSpace '!' = false ∧
    render? ⟨.illegalLexeme "!" "<unnamed>", ⟨2, "l"⟩⟩ "é!" = some
      ("Error: IllegalLexeme (Enable safe mode or ignore illegals to highlight malformed input)\n" ++
        "-> l\n" ++ "  |\n" ++ "1 | é!\n" ++ "  | --^\n") ∧
    "1 | é!\n".toList.idxOf '!' ≠ "  | --^\n".toList.idxOf '^' := by
  refine ⟨by decide, by decide, by decide, ?_, by decide⟩
  decide +kernel

end Highlight.Fault
