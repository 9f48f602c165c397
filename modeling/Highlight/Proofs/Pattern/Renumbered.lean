import Highlight.Proofs.Pattern.Joined

/-!
# Renumbered patterns are clear

A pattern with its references moved falls into the same pieces, but for the numbers in them. So it is
clear where the groups that it refers to now stand before it, and a group of its own that is put
around it is a piece of its own. Numbers that no index can hold are the only exception.

* `classBody?_renumbered` -- a class that is never closed stays so;
* `nextPiece_renumbered`, `pieces_renumbered` -- the pieces of a pattern with its references moved;
* `clear_renumbered`, `clear_wrapped` -- such a pattern is clear, and in a group of its own.
-/

namespace Highlight.Pattern

open Regex

/-! ## 1. Numbers -/

theorem isLeading_of_isDigit {c : Char} (hd : c.isDigit = true) (hz : c ≠ '0') :
    isLeading c = true := by
  by_contra h
  exact hz (eq_zero_of_not_leading (by simpa using h) hd)

theorem isDigit_toDigits {n : Nat} {c : Char} (h : c ∈ Nat.toDigits 10 n) : c.isDigit = true :=
  Nat.isDigit_of_mem_toDigits (by decide) (by decide) h

/-- The number that the digits of a number write, if an index can hold it. -/
theorem groupNumber_toDigits {n : Nat} (h : n ≤ Text.maxCount) :
    groupNumber (Nat.toDigits 10 n) = n := by
  unfold groupNumber
  rw [Text.digitsFrom?_digits _ 0 fun c hc => isDigit_toDigits hc]
  rw [Nat.ofDigitChars_toDigits (by decide) (by decide), Option.getD_some]
  exact if_pos h

/-! ## 2. Pieces -/

/-- A class ends where its body ends, whatever stands behind it. -/
theorem classBody?_body : ∀ {cs body after : List Char} (ds : List Char),
    classBody? cs = some (body, after) → classBody? (body ++ ']' :: ds) = some (body, ds) := by
  intro cs
  fun_induction classBody? cs with
  | case1 => intro body after ds h; cases h
  | case2 cs => intro body after ds h; cases h; rfl
  | case3 => intro body after ds h; cases h
  | case4 cs c h' => intro body after ds h; cases h
  | case5 c cs h' ih =>
    intro body after ds h
    obtain ⟨⟨b, a⟩, hb, he⟩ := Option.map_eq_some_iff.mp h
    cases he
    rw [List.cons_append, List.cons_append, classBody?, if_neg h', ih ds hb]
    rfl
  | case6 c cs h1 h2 h3 ih =>
    intro body after ds h
    obtain ⟨⟨b, a⟩, hb, he⟩ := Option.map_eq_some_iff.mp h
    cases he
    have hback : c ≠ '\\' := by
      rintro rfl
      cases cs with
      | nil => exact h2 rfl rfl
      | cons d cs => exact h3 d cs rfl rfl
    rw [List.cons_append, classBody?, ih ds hb]
    · rfl
    · exact h1
    · exact fun he => absurd he hback
    · exact fun _ _ he => absurd he hback

theorem takeWhile_digits {ds rest : List Char} (hd : ∀ c ∈ ds, c.isDigit = true)
    (hrest : ∀ c, rest.head? = some c → c.isDigit = false) :
    (ds ++ rest).takeWhile Char.isDigit = ds ∧ (ds ++ rest).dropWhile Char.isDigit = rest := by
  rw [List.takeWhile_append_of_pos hd, List.dropWhile_append_of_pos hd]
  cases rest with
  | nil => exact ⟨List.append_nil ds, rfl⟩
  | cons c rest =>
    have hc := hrest c rfl
    rw [List.takeWhile_cons_of_neg (by simp [hc]), List.dropWhile_cons_of_neg (by simp [hc])]
    exact ⟨List.append_nil ds, rfl⟩

theorem classBody?_char {c : Char} (hclose : c ≠ ']') (hback : c ≠ '\\') (cs : List Char) :
    classBody? (c :: cs) = none ↔ classBody? cs = none := by
  rw [classBody?, Option.map_eq_none_iff]
  · exact hclose
  · exact fun h => absurd h hback
  · exact fun _ _ h => absurd h hback

theorem classBody?_escaped {c : Char} (hn : c ≠ '\n') (cs : List Char) :
    classBody? ('\\' :: c :: cs) = none ↔ classBody? cs = none := by
  rw [classBody?, if_neg (by simpa using hn), Option.map_eq_none_iff]

theorem classBody?_digits {ds : List Char} (hd : ∀ c ∈ ds, c.isDigit = true) (cs : List Char) :
    classBody? (ds ++ cs) = none ↔ classBody? cs = none := by
  induction ds with
  | nil => rfl
  | cons d ds ih =>
    have hne : ∀ e : Char, e.isDigit = false → d ≠ e := by
      rintro e he rfl
      rw [hd d (by simp)] at he
      cases he
    rw [List.cons_append, classBody?_char (hne _ (by decide)) (hne _ (by decide)),
      ih fun c hc => hd c (List.mem_cons_of_mem d hc)]

/-- A bracket that opens no class stands before what it stood before. -/
theorem renumbered_unclosed (offset : Nat) {cs : List Char} (h : classBody? cs = none) :
    renumbered offset ('[' :: cs) = '[' :: renumbered offset cs := by
  rw [renumbered_cons, show nextPiece '[' cs = (.plain '[', cs) by simp only [nextPiece, h]]
  rfl

/-- The digits of a moved reference. -/
theorem exists_toDigits (n : Nat) : ∃ e es, Nat.toDigits 10 n = e :: es ∧
    ∀ c ∈ e :: es, c.isDigit = true := by
  cases h : Nat.toDigits 10 n with
  | nil => exact absurd h Nat.toDigits_ne_nil
  | cons e es => exact ⟨e, es, rfl, fun c hc => isDigit_toDigits (h ▸ hc)⟩

/-- A class that is never closed is not closed by moving the references behind its bracket. -/
theorem classBody?_renumbered (offset : Nat) {cs : List Char} (h : classBody? cs = none) :
    classBody? (renumbered offset cs) = none := by
  induction hn : cs.length using Nat.strongRecOn generalizing cs with
  | ind n ih =>
    cases cs with
    | nil => rfl
    | cons c cs =>
      simp only [List.length_cons] at hn
      by_cases hc : isBare c = true
      · have hback : c ≠ '\\' := by rintro rfl; cases hc
        have hclose : c ≠ ']' := by rintro rfl; cases h
        rw [classBody?_char hclose hback] at h
        rw [renumbered_bare offset hc, classBody?_char hclose hback]
        exact ih _ (by omega) h rfl
      rcases begins_of_not_bare hc with rfl | rfl | rfl
      · rw [classBody?_char (by decide) (by decide)] at h
        rw [renumbered_unclosed offset h, classBody?_char (by decide) (by decide)]
        exact ih _ (by omega) h rfl
      · rw [classBody?_char (by decide) (by decide)] at h
        by_cases hq : cs.head? = some '?'
        · obtain ⟨w, rfl⟩ := List.head?_eq_some_iff.mp hq
          have := ih _ (by omega) h rfl
          rw [renumbered_bare offset (by decide)] at this
          rw [renumbered_special]
          exact (classBody?_char (by decide) (by decide) _).mpr this
        · rw [renumbered_opening offset hq]
          exact (classBody?_char (by decide) (by decide) _).mpr (ih _ (by omega) h rfl)
      · cases cs with
        | nil => exact h
        | cons d cs =>
          simp only [List.length_cons] at hn
          by_cases hd : isLeading d = true
          · have hdig := (isDigit_leading hd).1
            have hnot : ∀ e : Char, e.isDigit = true → e ≠ '\n' := by
              rintro e he rfl
              cases he
            obtain ⟨e, es, heq, hes⟩ :=
              exists_toDigits (groupNumber (d :: cs.takeWhile Char.isDigit) + offset)
            have hlen := (List.dropWhile_sublist Char.isDigit (l := cs)).length_le
            rw [classBody?_escaped (hnot d hdig), ← List.takeWhile_append_dropWhile (p := Char.isDigit)
              (l := cs), classBody?_digits (fun c hc => List.all_eq_true.mp List.all_takeWhile c hc)] at h
            rw [renumbered_reference offset hd, heq, List.cons_append,
              classBody?_escaped (hnot e (hes e (by simp))),
              classBody?_digits fun c hc => hes c (List.mem_cons_of_mem e hc)]
            exact ih _ (by omega) h rfl
          · rw [renumbered_escaped offset (by simpa using hd)]
            by_cases hnl : d = '\n'
            · subst hnl
              rfl
            · rw [classBody?_escaped hnl] at h ⊢
              exact ih _ (by omega) h rfl

/-- The first piece of a pattern with its references moved is its first piece, moved. -/
theorem nextPiece_renumbered {offset : Nat} (hpos : 0 < offset) (c : Char) (cs : List Char) :
    ∃ c' cs', renumbered offset (c :: cs) = c' :: cs' ∧ nextPiece c' cs' =
      ((nextPiece c cs).1.shift offset, renumbered offset (nextPiece c cs).2) := by
  by_cases hc : isBare c = true
  · refine ⟨c, _, renumbered_bare offset hc cs, ?_⟩
    rw [nextPiece_bare hc, nextPiece_bare hc]
    rfl
  rcases begins_of_not_bare hc with rfl | rfl | rfl
  · cases hb : classBody? cs with
    | none =>
      refine ⟨'[', _, renumbered_unclosed offset hb, ?_⟩
      simp only [nextPiece, hb, classBody?_renumbered offset hb]
      rfl
    | some r =>
      refine ⟨'[', _, renumbered_class offset hb, ?_⟩
      simp only [nextPiece, hb, classBody?_body (renumbered offset r.2) hb]
      rfl
  · by_cases hq : cs.head? = some '?'
    · obtain ⟨w, rfl⟩ := List.head?_eq_some_iff.mp hq
      exact ⟨'(', _, renumbered_special offset w, rfl⟩
    · refine ⟨'(', _, renumbered_opening offset hq, ?_⟩
      rw [nextPiece_opening hq, nextPiece_opening (by rwa [head?_renumbered])]
      rfl
  · cases cs with
    | nil => exact ⟨'\\', [], rfl, rfl⟩
    | cons d cs =>
      by_cases hd : isLeading d = true
      · have hrest : ∀ c, (renumbered offset (cs.dropWhile Char.isDigit)).head? = some c →
            c.isDigit = false := fun c hc => no_digit_dropWhile cs c (by rwa [head?_renumbered] at hc)
        obtain ⟨e, es, heq, hes⟩ :=
          exists_toDigits (groupNumber (d :: cs.takeWhile Char.isDigit) + offset)
        have hzero : e ≠ '0' := by
          have := Text.head_toDigits (groupNumber (d :: cs.takeWhile Char.isDigit) + offset) (by omega)
          simpa [heq] using this
        obtain ⟨htake, hdrop⟩ := takeWhile_digits
          (fun f hf => hes f (List.mem_cons_of_mem e hf)) hrest
        refine ⟨'\\', _, renumbered_reference offset hd cs, ?_⟩
        rw [nextPiece_reference hd, Piece.shift, heq, List.cons_append,
          nextPiece_reference (isLeading_of_isDigit (hes e List.mem_cons_self) hzero), htake, hdrop]
      · rw [Bool.not_eq_true] at hd
        refine ⟨'\\', _, renumbered_escaped offset hd cs, ?_⟩
        by_cases hn : d = '\n'
        · subst hn
          rw [show nextPiece '\\' ('\n' :: cs) = (.plain '\\', '\n' :: cs) from rfl,
            renumbered_bare offset (by decide)]
          rfl
        · rw [nextPiece_escaped hd hn, nextPiece_escaped hd hn]
          rfl

/-- **A pattern with its references moved falls into the same pieces**, but for the references. -/
theorem pieces_renumbered {offset : Nat} (hpos : 0 < offset) (cs : List Char) :
    pieces (renumbered offset cs) = (pieces cs).map (Piece.shift offset) := by
  induction hn : cs.length using Nat.strongRecOn generalizing cs with
  | ind n ih =>
    cases cs with
    | nil => rfl
    | cons c cs =>
      have hl := length_nextPiece c cs
      simp only [List.length_cons] at hn
      obtain ⟨c', cs', heq, hnext⟩ := nextPiece_renumbered hpos c cs
      rw [heq, pieces_cons, hnext, pieces_cons, List.map_cons]
      exact congrArg _ (ih _ (by omega) _ rfl)

theorem openings_shift (offset : Nat) (ps : List Piece) :
    openings (ps.map (Piece.shift offset)) = openings ps := by
  rw [openings, openings, List.countP_map]
  refine List.countP_congr fun p _ => ?_
  cases p <;> simp [Piece.shift]

section Clear

variable {opened offset : Nat} {p : Piece} {ps qs : List Piece}

/-- A piece that is what the reader takes it for is so with the references moved. -/
theorem isClear_shift (h : p.isClear opened ps = true) (hle : opened + offset ≤ Text.maxCount) :
    (p.shift offset).isClear (opened + offset) (ps.map (Piece.shift offset)) = true := by
  cases p with
  | reference digits =>
    simp only [Piece.isClear, Bool.and_eq_true, decide_eq_true_eq] at h
    have hnumber := groupNumber_toDigits (show groupNumber digits + offset ≤ Text.maxCount by omega)
    simp only [Piece.shift, Piece.isClear, hnumber, Bool.and_eq_true, decide_eq_true_eq]
    omega
  | special =>
    rcases isClear_special.mp h with ⟨c, w, rfl, hc⟩ | ⟨c, w, rfl, hc⟩
    · exact isClear_special.mpr (.inl ⟨c, _, rfl, hc⟩)
    · exact isClear_special.mpr (.inr ⟨c, _, rfl, hc⟩)
  | escaped c =>
    by_cases hc : c = 'c'
    · subst hc
      obtain ⟨d, w, rfl | rfl⟩ := isClear_control.mp h
      · exact isClear_control.mpr ⟨d, _, .inl rfl⟩
      · exact isClear_control.mpr ⟨d, _, .inr rfl⟩
    by_cases hx : c = 'x'
    · subst hx
      obtain ⟨hne, hrun⟩ := isClear_hex.mp h
      refine isClear_hex.mpr ⟨by simpa using hne, fun a b digits w heq => ?_⟩
      obtain ⟨q1, ps1, rfl, h1, heq⟩ := List.map_eq_cons_iff.mp heq
      obtain ⟨q2, ps2, rfl, h2, heq⟩ := List.map_eq_cons_iff.mp heq
      obtain ⟨q3, ps3, rfl, h3, -⟩ := List.map_eq_cons_iff.mp heq
      cases q1 <;> cases h1
      cases q2 <;> cases h2
      cases q3 <;> cases h3
      exact hrun a b _ ps3 rfl
    · exact (isClear_letter hc hx).trans ((isClear_letter hc hx).symm.trans h)
  | _ => exact h

theorem isClear_map_shift (h : isClear opened ps = true)
    (hle : opened + openings ps + offset ≤ Text.maxCount) :
    isClear (opened + offset) (ps.map (Piece.shift offset)) = true := by
  induction ps generalizing opened with
  | nil => rfl
  | cons p ps ih =>
    simp only [isClear, Bool.and_eq_true] at h
    have hopening : (p.shift offset == .opening) = (p == .opening) := by
      cases p <;> rfl
    simp only [openings, List.countP_cons] at hle ih
    simp only [List.map_cons, isClear, Bool.and_eq_true, hopening]
    refine ⟨isClear_shift h.1 (by omega), ?_⟩
    cases ho : p == .opening with
    | true =>
      rw [ho] at h hle
      simp only [if_true] at h hle ⊢
      rw [Nat.add_right_comm]
      exact ih h.2 (by omega)
    | false =>
      rw [ho] at h hle
      simp only [Bool.false_eq_true, if_false] at h hle ⊢
      exact ih h.2 (by omega)

end Clear

/-! ## 3. Clear patterns -/

section Renumbered

variable {opened offset : Nat} (hpos : 0 < offset) {cs : List Char}

include hpos

/-- **A clear pattern with its references moved is clear** behind as many groups more. -/
theorem clear_renumbered (h : Clear opened cs) (hle : opened + opens cs + offset ≤ Text.maxCount) :
    Clear (opened + offset) (renumbered offset cs) := by
  unfold Clear
  rw [pieces_renumbered hpos]
  exact isClear_map_shift h hle

theorem opens_renumbered (cs : List Char) : opens (renumbered offset cs) = opens cs := by
  rw [opens, pieces_renumbered hpos, openings_shift, opens]

theorem not_isCut_renumbered (hcut : ¬ IsCut cs) : ¬ IsCut (renumbered offset cs) := by
  intro hcut'
  unfold IsCut at hcut hcut'
  rw [pieces_renumbered hpos, List.getLast?_map] at hcut'
  obtain ⟨p, hp, hshift⟩ := Option.map_eq_some_iff.mp hcut'
  cases p <;> cases hshift
  exact hcut hp

end Renumbered

/-- **A clear pattern in a group of its own is clear** before what is clear behind its groups. -/
theorem clear_wrapped {g : Nat} {cs more : List Char} (h : Clear 0 cs) (hcut : ¬ IsCut cs)
    (hq : cs.head? ≠ some '?') (hmore : Clear (g + 1 + opens cs) more)
    (hle : g + 1 + opens cs ≤ Text.maxCount) :
    Clear g (wrapped (g + 1) (pieces cs) ++ more) ∧
      opens (wrapped (g + 1) (pieces cs) ++ more) = 1 + opens cs + opens more := by
  have hle' : 0 + opens cs + (g + 1) ≤ Text.maxCount := by omega
  have hclear := clear_renumbered (Nat.succ_pos g) h hle'
  rw [Nat.zero_add] at hclear
  have htext : wrapped (g + 1) (pieces cs) ++ more =
      '(' :: (renumbered (g + 1) cs ++ ')' :: more) := by
    rw [wrapped_pieces]
    simp
  have hhead : (renumbered (g + 1) cs ++ ')' :: more).head? ≠ some '?' := by
    rw [List.head?_append, head?_renumbered]
    cases hcs : cs.head? with
    | none => simp
    | some c => rw [hcs] at hq; exact hq
  have hpieces : pieces (wrapped (g + 1) (pieces cs) ++ more) =
      .opening :: (pieces (renumbered (g + 1) cs) ++ .plain ')' :: pieces more) := by
    rw [htext, pieces_cons, nextPiece_opening hhead,
      pieces_joined rfl more hclear (not_isCut_renumbered (Nat.succ_pos g) hcut)]
  refine ⟨?_, ?_⟩
  · unfold Clear
    rw [hpieces]
    simp only [isClear, Bool.and_eq_true]
    refine ⟨rfl, isClear_append rfl hclear ?_⟩
    rw [show openings (pieces (renumbered (g + 1) cs)) = opens cs from
      opens_renumbered (Nat.succ_pos g) cs]
    exact hmore
  · have hopens := opens_renumbered (Nat.succ_pos g) cs
    simp only [opens, openings] at hopens ⊢
    rw [hpieces, List.countP_cons, List.countP_append, List.countP_cons, hopens]
    simp
    omega

end Highlight.Pattern
