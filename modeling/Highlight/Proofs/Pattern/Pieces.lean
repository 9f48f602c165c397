import Highlight.Pattern.Renumber

/-!
# The pieces of a pattern

How a pattern falls into pieces, and which patterns fall into the pieces that their reader sees.

* `pieces_cons` -- the pieces of a text, one after another;
* `renumbered` -- a text with its references moved, and what that leaves in place;
* `isClear` -- that each piece is what the reader takes it for;
* `IsCut` -- a text that ends in the middle of an escape;
* `Stops`, `exists_stretch` -- the plain characters before the next piece that is more than one.
-/

namespace Highlight.Pattern

/-! ## 1. Cutting -/

/-- A class is its body between brackets. -/
theorem text_classBody : ∀ (cs body after : List Char), classBody? cs = some (body, after) →
    body ++ ']' :: after = cs := by
  intro cs
  fun_induction classBody? cs with
  | case1 => intro body after h; cases h
  | case2 cs => intro body after h; cases h; rfl
  | case3 => intro body after h; cases h
  | case4 cs c h' => intro body after h; cases h
  | case5 c cs h' ih =>
    intro body after h
    obtain ⟨⟨b, a⟩, hb, he⟩ := Option.map_eq_some_iff.mp h
    cases he
    simp only [List.cons_append, ih _ _ hb]
  | case6 c cs h1 h2 h3 ih =>
    intro body after h
    obtain ⟨⟨b, a⟩, hb, he⟩ := Option.map_eq_some_iff.mp h
    cases he
    simp only [List.cons_append, ih _ _ hb]

/-- A piece is a part of the text: what it was cut from is its own text and what follows. -/
theorem text_nextPiece (c : Char) (cs : List Char) :
    (nextPiece c cs).1.text ++ (nextPiece c cs).2 = c :: cs := by
  fun_cases nextPiece c cs with
  | case1 cs body after h =>
    simp only [Piece.text, List.cons_append, List.append_assoc, List.nil_append]
    rw [text_classBody _ _ _ h]
  | case5 d cs h => simp [Piece.text, List.takeWhile_append_dropWhile]
  | _ => rfl

theorem length_nextPiece (c : Char) (cs : List Char) :
    (nextPiece c cs).2.length ≤ cs.length := by
  fun_cases nextPiece c cs with
  | case1 cs body after h =>
    rw [← text_classBody _ _ _ h]
    simp only [List.length_append, List.length_cons]
    omega
  | case5 d cs h =>
    have := (List.dropWhile_sublist Char.isDigit (l := cs)).length_le
    simp only [List.length_cons]
    omega
  | _ => simp

/-- Fuel beyond the length of the text changes nothing. -/
theorem piecesFrom_eq : ∀ (fuel fuel' : Nat) (cs : List Char), cs.length ≤ fuel →
    cs.length ≤ fuel' → piecesFrom fuel cs = piecesFrom fuel' cs
  | 0, 0, _, _, _ => rfl
  | 0, fuel' + 1, [], _, _ => rfl
  | fuel + 1, 0, [], _, _ => rfl
  | fuel + 1, fuel' + 1, [], _, _ => rfl
  | fuel + 1, fuel' + 1, c :: cs, h, h' => by
      have hl := length_nextPiece c cs
      simp only [List.length_cons] at h h'
      simp only [piecesFrom]
      rw [piecesFrom_eq fuel fuel' _ (by omega) (by omega)]

/-- **The pieces of a text are its first piece and those of what follows it.** -/
theorem pieces_cons (c : Char) (cs : List Char) :
    pieces (c :: cs) = (nextPiece c cs).1 :: pieces (nextPiece c cs).2 := by
  have hl := length_nextPiece c cs
  simp only [pieces, List.length_cons, piecesFrom]
  rw [piecesFrom_eq _ _ _ hl (Nat.le_refl _)]

@[simp] theorem pieces_nil : pieces [] = [] := rfl

/-- The pieces together are the text. -/
theorem text_pieces (cs : List Char) : (pieces cs).flatMap Piece.text = cs := by
  induction h : cs.length using Nat.strongRecOn generalizing cs with
  | ind n ih =>
    cases cs with
    | nil => rfl
    | cons c cs =>
      have hl := length_nextPiece c cs
      simp only [List.length_cons] at h
      rw [pieces_cons, List.flatMap_cons, ih _ (by omega) _ rfl, text_nextPiece]

/-! ## 2. Moving the references -/

/-- A text with its references moved. -/
def renumbered (offset : Nat) (cs : List Char) : List Char :=
  (pieces cs).flatMap fun p => (p.shift offset).text

theorem wrapped_pieces (offset : Nat) (cs : List Char) :
    wrapped offset (pieces cs) = '(' :: (renumbered offset cs ++ [')']) := rfl

/-- Whether a character is a piece wherever it stands. -/
def isBare (c : Char) : Bool := c != '[' && c != '(' && c != '\\'

/-- A character that is not bare begins a class, a group or an escape. -/
theorem begins_of_not_bare {c : Char} (h : ¬ isBare c = true) : c = '[' ∨ c = '(' ∨ c = '\\' := by
  rw [Bool.not_eq_true] at h
  simpa only [isBare, Bool.and_eq_false_iff, bne_eq_false_iff_eq, or_assoc] using h

/-- Whether a character begins a number. -/
def isLeading (c : Char) : Bool := '1' ≤ c && c ≤ '9'

theorem nextPiece_bare {c : Char} (h : isBare c = true) (cs : List Char) :
    nextPiece c cs = (.plain c, cs) := by
  simp only [isBare, Bool.and_eq_true, bne_iff_ne, ne_eq] at h
  obtain ⟨⟨h1, h2⟩, h3⟩ := h
  fun_cases nextPiece c cs <;> simp_all

theorem nextPiece_opening {cs : List Char} (h : cs.head? ≠ some '?') :
    nextPiece '(' cs = (.opening, cs) := by
  cases cs with
  | nil => rfl
  | cons d cs =>
    have hd : d ≠ '?' := by simpa using h
    simp only [nextPiece]
    split <;> simp_all

theorem nextPiece_reference {d : Char} (h : isLeading d = true) (cs : List Char) :
    nextPiece '\\' (d :: cs) =
      (.reference (d :: cs.takeWhile Char.isDigit), cs.dropWhile Char.isDigit) := by
  exact if_pos h

theorem nextPiece_escaped {d : Char} (h : isLeading d = false) (hn : d ≠ '\n') (cs : List Char) :
    nextPiece '\\' (d :: cs) = (.escaped d, cs) := by
  have h' : ('1' ≤ d && d ≤ '9') = false := h
  simp only [nextPiece, h', Bool.false_eq_true, if_false, beq_iff_eq, if_neg hn]

section Renumbered

variable (offset : Nat)

@[simp] theorem renumbered_nil : renumbered offset [] = [] := rfl

theorem renumbered_cons (c : Char) (cs : List Char) :
    renumbered offset (c :: cs) =
      ((nextPiece c cs).1.shift offset).text ++ renumbered offset (nextPiece c cs).2 := by
  rw [renumbered, pieces_cons, List.flatMap_cons, renumbered]

theorem renumbered_bare {c : Char} (h : isBare c = true) (cs : List Char) :
    renumbered offset (c :: cs) = c :: renumbered offset cs := by
  rw [renumbered_cons, nextPiece_bare h]
  rfl

theorem renumbered_opening {cs : List Char} (h : cs.head? ≠ some '?') :
    renumbered offset ('(' :: cs) = '(' :: renumbered offset cs := by
  rw [renumbered_cons, nextPiece_opening h]
  rfl

theorem renumbered_special (cs : List Char) :
    renumbered offset ('(' :: '?' :: cs) = '(' :: '?' :: renumbered offset cs := by
  rw [renumbered_cons]
  rfl

theorem renumbered_class {cs body after : List Char} (h : classBody? cs = some (body, after)) :
    renumbered offset ('[' :: cs) = '[' :: (body ++ ']' :: renumbered offset after) := by
  have hp : nextPiece '[' cs = (.cls body, after) := by simp only [nextPiece, h]
  rw [renumbered_cons, hp]
  simp only [Piece.shift, Piece.text, List.cons_append, List.append_assoc, List.nil_append]

theorem renumbered_reference {d : Char} (h : isLeading d = true) (cs : List Char) :
    renumbered offset ('\\' :: d :: cs) =
      '\\' :: (Nat.toDigits 10 (groupNumber (d :: cs.takeWhile Char.isDigit) + offset) ++
        renumbered offset (cs.dropWhile Char.isDigit)) := by
  rw [renumbered_cons, nextPiece_reference h]
  rfl

/-- A backslash that begins no reference stands before what it stood before. -/
theorem renumbered_escaped {d : Char} (h : isLeading d = false) (cs : List Char) :
    renumbered offset ('\\' :: d :: cs) = '\\' :: d :: renumbered offset cs := by
  by_cases hn : d = '\n'
  · subst hn
    rw [renumbered_cons, show nextPiece '\\' ('\n' :: cs) = (.plain '\\', '\n' :: cs) from rfl]
    simp only [Piece.shift, Piece.text, List.cons_append, List.nil_append]
    rw [renumbered_bare offset (by decide)]
  · rw [renumbered_cons, nextPiece_escaped h hn]
    rfl

/-- Moving the references leaves the first character. -/
theorem head?_renumbered (cs : List Char) : (renumbered offset cs).head? = cs.head? := by
  cases cs with
  | nil => rfl
  | cons c cs =>
    have ht := text_nextPiece c cs
    rw [renumbered_cons]
    cases hp : (nextPiece c cs).1 <;> rw [hp] at ht <;>
      simp only [Piece.text, Piece.shift, List.cons_append, List.nil_append, List.cons.injEq] at ht ⊢
      <;> simp only [List.head?_cons, ht.1]

end Renumbered

/-! ## 3. Clear patterns -/

/-- Whether a class ends where it seems to: no bracket stands in its body but behind a backslash,
    and no control escape takes the bracket that closes it. -/
def classIsClear : List Char → Bool
  | [] => true
  | ['\\'] | ['\\', 'c'] => false
  | '\\' :: _ :: cs => classIsClear cs
  | '[' :: _ | ']' :: _ => false
  | _ :: cs => classIsClear cs

/-- Whether a piece is what the reader takes it for, by the pieces after it and the number of groups
    opened before it. References are to groups already opened; of the groups with a question mark
    only those that hold together and the looks remain, of the classes those that no bracket is
    opened in and that do not begin with the one that would close them. -/
def Piece.isClear (opened : Nat) (p : Piece) (ps : List Piece) : Bool :=
  match p, ps with
  | .cls body, _ => body != [] && body != ['^'] && classIsClear body
  | .opening, _ => true
  | .special, .plain '<' :: .plain c :: _ => c == '=' || c == '!'
  | .special, .plain c :: _ => [':', '=', '!', '>'].contains c
  | .special, _ => false
  | .reference digits, _ => 1 ≤ groupNumber digits && groupNumber digits ≤ opened
  | .escaped 'c', .plain _ :: _ => true
  | .escaped 'c', .escaped _ :: _ => true
  | .escaped 'c', _ => false
  | .escaped 'x', [] => false
  | .escaped 'x', .plain a :: .plain b :: .reference _ :: _ =>
    !(Unicode.isHexDigit a && Unicode.isHexDigit b && '8' ≤ a)
  | .escaped 'x', _ => true
  | .escaped c, _ => !(['k', 'g', 'K'].contains c)
  | .plain c, _ => c != '['

/-- Whether each piece is what the reader takes it for, when `opened` groups stand before. -/
def isClear : Nat → List Piece → Bool
  | _, [] => true
  | opened, p :: ps =>
    p.isClear opened ps && isClear (if p == .opening then opened + 1 else opened) ps

/-- A text whose pieces are what the reader takes them for. -/
def Clear (opened : Nat) (cs : List Char) : Prop := isClear opened (pieces cs) = true

/-- How many numbered groups a text opens. -/
def opens (cs : List Char) : Nat := openings (pieces cs)

section Clear

variable {opened : Nat}

theorem clear_nil : Clear opened [] := rfl

theorem clear_cons {c : Char} {cs : List Char} (h : Clear opened (c :: cs)) :
    (nextPiece c cs).1.isClear opened (pieces (nextPiece c cs).2) = true ∧
      Clear (if (nextPiece c cs).1 == .opening then opened + 1 else opened)
        (nextPiece c cs).2 := by
  unfold Clear at h
  rw [pieces_cons] at h
  simp only [isClear, Bool.and_eq_true] at h
  exact h

theorem opens_cons (c : Char) (cs : List Char) :
    opens (c :: cs) =
      opens (nextPiece c cs).2 + if (nextPiece c cs).1 == .opening then 1 else 0 := by
  simp only [opens, openings, pieces_cons, List.countP_cons]

theorem clear_bare {c : Char} {cs : List Char} (hc : isBare c = true)
    (h : Clear opened (c :: cs)) : Clear opened cs ∧ opens (c :: cs) = opens cs := by
  have h' := clear_cons h
  rw [opens_cons]
  rw [nextPiece_bare hc] at h' ⊢
  exact ⟨h'.2, rfl⟩

theorem clear_opening {cs : List Char} (hc : cs.head? ≠ some '?')
    (h : Clear opened ('(' :: cs)) :
    Clear (opened + 1) cs ∧ opens ('(' :: cs) = opens cs + 1 := by
  have h' := clear_cons h
  rw [opens_cons]
  rw [nextPiece_opening hc] at h' ⊢
  exact ⟨h'.2, rfl⟩

theorem clear_special {cs : List Char} (h : Clear opened ('(' :: '?' :: cs)) :
    Clear opened cs ∧ opens ('(' :: '?' :: cs) = opens cs ∧
      Piece.special.isClear opened (pieces cs) = true := by
  have h' := clear_cons h
  rw [opens_cons]
  exact ⟨h'.2, rfl, h'.1⟩

/-- An opening bracket begins a class. -/
theorem clear_class {cs : List Char} (h : Clear opened ('[' :: cs)) :
    ∃ body after, classBody? cs = some (body, after) ∧ Clear opened after ∧
      opens ('[' :: cs) = opens after ∧ body ≠ [] ∧ body ≠ ['^'] ∧ classIsClear body = true := by
  have h' := clear_cons h
  rw [opens_cons]
  cases hb : classBody? cs with
  | none =>
    have hp : nextPiece '[' cs = (.plain '[', cs) := by simp only [nextPiece, hb]
    rw [hp] at h'
    cases h'.1
  | some r =>
    obtain ⟨body, after⟩ := r
    have hp : nextPiece '[' cs = (.cls body, after) := by simp only [nextPiece, hb]
    rw [hp] at h' ⊢
    have hc := h'.1
    simp only [Piece.isClear, Bool.and_eq_true, bne_iff_ne, ne_eq] at hc
    exact ⟨body, after, rfl, h'.2, rfl, hc.1.1, hc.1.2, hc.2⟩

theorem clear_reference {d : Char} {cs : List Char} (hd : isLeading d = true)
    (h : Clear opened ('\\' :: d :: cs)) :
    Clear opened (cs.dropWhile Char.isDigit) ∧
      opens ('\\' :: d :: cs) = opens (cs.dropWhile Char.isDigit) ∧
      1 ≤ groupNumber (d :: cs.takeWhile Char.isDigit) ∧
      groupNumber (d :: cs.takeWhile Char.isDigit) ≤ opened := by
  have h' := clear_cons h
  rw [opens_cons]
  rw [nextPiece_reference hd] at h' ⊢
  have hc := h'.1
  simp only [Piece.isClear, Bool.and_eq_true, decide_eq_true_eq] at hc
  exact ⟨h'.2, rfl, hc.1, hc.2⟩

theorem isClear_escaped {d : Char} {cs : List Char} (hd : isLeading d = false) (hn : d ≠ '\n')
    (h : Clear opened ('\\' :: d :: cs)) : (Piece.escaped d).isClear opened (pieces cs) = true := by
  have h' := clear_cons h
  rw [nextPiece_escaped hd hn] at h'
  exact h'.1

theorem clear_escaped {d : Char} {cs : List Char} (hd : isLeading d = false)
    (h : Clear opened ('\\' :: d :: cs)) :
    Clear opened cs ∧ opens ('\\' :: d :: cs) = opens cs := by
  have h' := clear_cons h
  rw [opens_cons]
  by_cases hn : d = '\n'
  · subst hn
    obtain ⟨hc, ho⟩ := clear_bare (by decide) h'.2
    exact ⟨hc, ho⟩
  · rw [nextPiece_escaped hd hn] at h' ⊢
    exact ⟨h'.2, rfl⟩

/-- A control escape goes on with a plain character or another escape. -/
theorem clear_control {cs : List Char} (h : Clear opened ('\\' :: 'c' :: cs)) :
    ∃ e more, cs = e :: more ∧
      (isBare e = true ∨ e = '\\' ∧ ∀ f, more.head? = some f → isLeading f = false) := by
  have hc := isClear_escaped (by decide) (by decide) h
  obtain ⟨hcs, _⟩ := clear_escaped (by decide) h
  cases cs with
  | nil => cases hc
  | cons e more =>
    refine ⟨e, more, rfl, ?_⟩
    by_cases he : isBare e = true
    · exact .inl he
    rw [pieces_cons] at hc
    rcases begins_of_not_bare he with rfl | rfl | rfl
    · obtain ⟨body, after, hb, _⟩ := clear_class hcs
      rw [show nextPiece '[' more = (.cls body, after) by simp only [nextPiece, hb]] at hc
      cases hc
    · by_cases hq : more.head? = some '?'
      · obtain ⟨w, rfl⟩ := List.head?_eq_some_iff.mp hq
        cases hc
      · rw [nextPiece_opening hq] at hc
        cases hc
    · refine .inr ⟨rfl, fun f hf => ?_⟩
      obtain ⟨w, rfl⟩ := List.head?_eq_some_iff.mp hf
      by_cases hl : isLeading f = true
      · rw [nextPiece_reference hl] at hc
        cases hc
      · simpa using hl

end Clear

/-! ## 4. Texts that are cut -/

/-- A text that ends with a backslash which escapes nothing. -/
def IsCut (cs : List Char) : Prop := (pieces cs).getLast? = some (.plain '\\')

theorem not_isCut_nil : ¬ IsCut [] := by simp [IsCut]

/-- Where a text is cut, what stands behind its first piece is, unless that is the backslash. -/
theorem isCut_next {c : Char} {cs : List Char} (h : IsCut (c :: cs))
    (hp : (nextPiece c cs).1 ≠ .plain '\\') : IsCut (nextPiece c cs).2 := by
  unfold IsCut at h ⊢
  rw [pieces_cons] at h
  cases hps : pieces (nextPiece c cs).2 with
  | nil =>
    rw [hps, List.getLast?_singleton] at h
    exact absurd (Option.some.inj h) hp
  | cons q qs => rwa [hps, List.getLast?_cons_cons] at h

theorem isCut_bare {c : Char} {cs : List Char} (hc : isBare c = true) (h : IsCut (c :: cs)) :
    IsCut cs := by
  have hnext := isCut_next h
  rw [nextPiece_bare hc] at hnext
  refine hnext fun he => ?_
  cases he
  cases hc

theorem isCut_escaped {d : Char} {cs : List Char} (hd : isLeading d = false)
    (h : IsCut ('\\' :: d :: cs)) : IsCut cs := by
  by_cases hn : d = '\n'
  · subst hn
    refine isCut_bare (c := '\n') (by decide) ?_
    unfold IsCut at h ⊢
    rwa [pieces_cons, show nextPiece '\\' ('\n' :: cs) = (.plain '\\', '\n' :: cs) from rfl,
      pieces_cons '\n', List.getLast?_cons_cons, ← pieces_cons] at h
  · have hnext := isCut_next h
    rw [nextPiece_escaped hd hn] at hnext
    exact hnext (by rintro ⟨⟩)

theorem isCut_reference {d : Char} {cs : List Char} (hd : isLeading d = true)
    (h : IsCut ('\\' :: d :: cs)) : IsCut (cs.dropWhile Char.isDigit) := by
  have hnext := isCut_next h
  rw [nextPiece_reference hd] at hnext
  exact hnext (by rintro ⟨⟩)

theorem isCut_class {cs body after : List Char} (hb : classBody? cs = some (body, after))
    (h : IsCut ('[' :: cs)) : IsCut after := by
  have hnext := isCut_next h
  rw [show nextPiece '[' cs = (.cls body, after) by simp only [nextPiece, hb]] at hnext
  exact hnext (by rintro ⟨⟩)

theorem isCut_opening {cs : List Char} (hc : cs.head? ≠ some '?') (h : IsCut ('(' :: cs)) :
    IsCut cs := by
  have hnext := isCut_next h
  rw [nextPiece_opening hc] at hnext
  exact hnext (by rintro ⟨⟩)

theorem isCut_special {cs : List Char} (h : IsCut ('(' :: '?' :: cs)) : IsCut cs :=
  isCut_next h (by rintro ⟨⟩)

/-! ## 5. Stretches of plain characters -/

/-- A text that does not begin with a plain character, or begins with one that closes a group or a
    class or ends an alternative. -/
def Stops (cs : List Char) : Prop :=
  ∀ c, cs.head? = some c → isBare c = false ∨ c = ')' ∨ c = ']' ∨ c = '|'

theorem renumbered_stretch (offset : Nat) {u : List Char} (hu : ∀ c ∈ u, isBare c = true)
    (v : List Char) : renumbered offset (u ++ v) = u ++ renumbered offset v := by
  induction u with
  | nil => rfl
  | cons c u ih =>
    rw [List.cons_append, renumbered_bare offset (hu c (by simp)),
      ih fun d hd => hu d (List.mem_cons_of_mem c hd)]
    rfl

theorem clear_stretch {opened : Nat} {u : List Char} (hu : ∀ c ∈ u, isBare c = true)
    {v : List Char} (h : Clear opened (u ++ v)) :
    Clear opened v ∧ opens (u ++ v) = opens v := by
  induction u with
  | nil => exact ⟨h, rfl⟩
  | cons c u ih =>
    obtain ⟨h', ho⟩ := clear_bare (hu c (by simp)) h
    obtain ⟨h'', ho'⟩ := ih (fun d hd => hu d (List.mem_cons_of_mem c hd)) h'
    exact ⟨h'', ho.trans ho'⟩

theorem isCut_stretch {u : List Char} (hu : ∀ c ∈ u, isBare c = true) {v : List Char}
    (h : IsCut (u ++ v)) : IsCut v := by
  induction u with
  | nil => exact h
  | cons c u ih =>
    exact ih (fun d hd => hu d (List.mem_cons_of_mem c hd)) (isCut_bare (hu c (by simp)) h)

/-- A text is a stretch of plain characters and what stops it. -/
theorem exists_stretch (cs : List Char) :
    ∃ u v, cs = u ++ v ∧ (∀ c ∈ u, isBare c = true) ∧
      ∀ c, v.head? = some c → isBare c = false := by
  induction cs with
  | nil => exact ⟨[], [], rfl, by simp, by simp⟩
  | cons c cs ih =>
    by_cases hc : isBare c = true
    · obtain ⟨u, v, rfl, hu, hv⟩ := ih
      refine ⟨c :: u, v, rfl, ?_, hv⟩
      intro d hd
      rcases List.mem_cons.mp hd with rfl | hd
      · exact hc
      · exact hu d hd
    · refine ⟨[], c :: cs, rfl, by simp, ?_⟩
      intro d hd
      cases hd
      simpa using hc

end Highlight.Pattern
