import Highlight.Proofs.Pattern.Merged
import Highlight.Proofs.Regex.Alternatives

/-!
# Reading joined patterns

Patterns with bars between them, in no groups of their own. What the reader makes of them are the
alternatives of each of them by itself, one after another, with their groups moved: where each of
them is clear and none of them has references behind groups of others, which nothing moves along.

* `pieces_joined`, `clear_joined` -- the pieces of a pattern before a bar;
* `exists_rows` -- the alternatives of a pattern, at its end and before a bar;
* `joinedText`, `Apart` -- patterns with bars between them, and which of them nothing has to be moved in;
* `readParts_joined` -- **joined patterns are read alternative by alternative**;
* `heldText`, `readSyntax_held` -- a pattern in a group without a number.
-/

namespace Highlight.Pattern

open Regex

/-! ## 1. Pieces before a bar

So they are before a parenthesis that closes a group. -/

/-- A character that ends an alternative. -/
def isEnding (e : Char) : Bool := e == '|' || e == ')'

theorem ending_cases {e : Char} (he : isEnding e = true) : e = '|' ∨ e = ')' := by
  simpa [isEnding] using he

theorem isBare_ending {e : Char} (he : isEnding e = true) : isBare e = true := by
  rcases ending_cases he with rfl | rfl <;> rfl

theorem classBody?_append : ∀ {cs body after : List Char} (ds : List Char),
    classBody? cs = some (body, after) → classBody? (cs ++ ds) = some (body, after ++ ds) := by
  intro cs
  fun_induction classBody? cs with
  | case1 => intro body after ds h; cases h
  | case2 cs => intro body after ds h; cases h; rfl
  | case3 => intro body after ds h; cases h
  | case4 cs c h' => intro body after ds h; cases h
  | case5 c cs h' ih =>
    intro body after ds h
    obtain ⟨⟨b, a⟩, hb, he⟩ := Option.map_eq_some_iff.mp h
    cases he
    rw [List.cons_append, List.cons_append, classBody?, if_neg h', ih ds hb]
    rfl
  | case6 c cs h1 h2 h3 ih =>
    intro body after ds h
    obtain ⟨⟨b, a⟩, hb, he⟩ := Option.map_eq_some_iff.mp h
    cases he
    have hnext : ∀ d w, c = '\\' → cs ++ ds ≠ d :: w := by
      rintro d w rfl
      cases cs with
      | nil => exact absurd rfl (h2 rfl)
      | cons e cs => exact absurd rfl (h3 e cs rfl)
    rw [List.cons_append, classBody?, ih ds hb]
    · rfl
    · exact h1
    · rintro rfl he
      exact h2 rfl (List.append_eq_nil_iff.mp he).1
    · exact hnext

/-- The first piece of a text is that of the text before a bar, where it is no bracket and no
    backslash alone. -/
theorem nextPiece_append {e c : Char} (he : isEnding e = true) {cs : List Char} (ds : List Char)
    (hclass : (nextPiece c cs).1 ≠ .plain '[') (hcut : c = '\\' → cs ≠ []) :
    nextPiece c (cs ++ e :: ds) = ((nextPiece c cs).1, (nextPiece c cs).2 ++ e :: ds) := by
  by_cases hc : isBare c = true
  · rw [nextPiece_bare hc, nextPiece_bare hc]
  rcases begins_of_not_bare hc with rfl | rfl | rfl
  · cases hb : classBody? cs with
    | none =>
      rw [show nextPiece '[' cs = (.plain '[', cs) by simp only [nextPiece, hb]] at hclass
      exact absurd rfl hclass
    | some r =>
      obtain ⟨body, after⟩ := r
      simp only [nextPiece, hb, classBody?_append (e :: ds) hb]
  · by_cases hq : cs.head? = some '?'
    · obtain ⟨w, rfl⟩ := List.head?_eq_some_iff.mp hq
      rfl
    · have hq' : (cs ++ e :: ds).head? ≠ some '?' := by
        cases cs with
        | nil => rcases ending_cases he with rfl | rfl <;> simp
        | cons d cs => simpa using hq
      rw [nextPiece_opening hq, nextPiece_opening hq']
  · cases cs with
    | nil => exact absurd rfl (hcut rfl)
    | cons d cs =>
      by_cases hd : isLeading d = true
      · have hbar : ∀ p : Char → Bool, p e = false →
            (cs ++ e :: ds).takeWhile p = cs.takeWhile p ∧
              (cs ++ e :: ds).dropWhile p = cs.dropWhile p ++ e :: ds := by
          intro p hp
          clear hclass hcut
          induction cs with
          | nil => simp [hp]
          | cons f cs ih =>
            simp only [List.cons_append, List.takeWhile_cons, List.dropWhile_cons, ih.1, ih.2]
            split <;> simp
        obtain ⟨h1, h2⟩ := hbar Char.isDigit (by rcases ending_cases he with rfl | rfl <;> rfl)
        rw [List.cons_append, nextPiece_reference hd, nextPiece_reference hd, h1, h2]
      · rw [Bool.not_eq_true] at hd
        by_cases hn : d = '\n'
        · subst hn
          rfl
        · rw [List.cons_append, nextPiece_escaped hd hn, nextPiece_escaped hd hn]

/-- A text is cut where what follows its first piece is. -/
theorem isCut_of_next {c : Char} {cs : List Char} (h : IsCut (nextPiece c cs).2) :
    IsCut (c :: cs) := by
  unfold IsCut at h ⊢
  rw [pieces_cons]
  cases hps : pieces (nextPiece c cs).2 with
  | nil => rw [hps] at h; cases h
  | cons q qs => rwa [List.getLast?_cons_cons, ← hps]

/-- **A bar is a piece of its own** behind a clear text that is whole. -/
theorem pieces_joined {e : Char} (he : isEnding e = true) {opened : Nat} {cs : List Char}
    (ds : List Char) (h : Clear opened cs) (hcut : ¬ IsCut cs) :
    pieces (cs ++ e :: ds) = pieces cs ++ .plain e :: pieces ds := by
  induction hn : cs.length using Nat.strongRecOn generalizing opened cs with
  | ind n ih =>
    cases cs with
    | nil => rw [List.nil_append, pieces_cons, nextPiece_bare (isBare_ending he)]; rfl
    | cons c cs =>
      have hl := length_nextPiece c cs
      simp only [List.length_cons] at hn
      obtain ⟨hp, hcs⟩ := clear_cons h
      have hclass : (nextPiece c cs).1 ≠ .plain '[' := by
        intro he
        rw [he] at hp
        cases hp
      have hback : c = '\\' → cs ≠ [] := by
        rintro rfl rfl
        exact hcut rfl
      rw [List.cons_append, pieces_cons, nextPiece_append he ds hclass hback, pieces_cons c cs,
        List.cons_append, ih _ (by omega) hcs (fun hc => hcut (isCut_of_next hc)) rfl]

section Clear

variable {opened opened' : Nat} {p : Piece} {ps qs : List Piece}

theorem isClear_special : Piece.special.isClear opened ps = true ↔
    (∃ c w, ps = .plain '<' :: .plain c :: w ∧ (c == '=' || c == '!') = true) ∨
      ∃ c w, ps = .plain c :: w ∧ [':', '=', '!', '>'].contains c = true := by
  constructor
  · intro h
    unfold Piece.isClear at h
    split at h <;> simp_all
  · rintro (⟨c, w, rfl, hc⟩ | ⟨c, w, rfl, hc⟩)
    · exact hc
    · simp only [List.contains_iff_mem, List.mem_cons, List.not_mem_nil, or_false] at hc
      rcases hc with rfl | rfl | rfl | rfl <;> rfl

theorem isClear_control : (Piece.escaped 'c').isClear opened ps = true ↔
    ∃ c w, ps = .plain c :: w ∨ ps = .escaped c :: w := by
  constructor
  · intro h
    cases ps with
    | nil => cases h
    | cons q ps =>
      cases q with
      | plain c => exact ⟨c, ps, .inl rfl⟩
      | escaped c => exact ⟨c, ps, .inr rfl⟩
      | _ => cases h
  · rintro ⟨c, w, rfl | rfl⟩ <;> rfl

theorem isClear_hex : (Piece.escaped 'x').isClear opened ps = true ↔
    ps ≠ [] ∧ ∀ a b digits w, ps = .plain a :: .plain b :: .reference digits :: w →
      (Unicode.isHexDigit a && Unicode.isHexDigit b && '8' ≤ a) = false := by
  by_cases hr : ∃ a b digits w, ps = .plain a :: .plain b :: .reference digits :: w
  · obtain ⟨a, b, digits, w, rfl⟩ := hr
    show (!(Unicode.isHexDigit a && Unicode.isHexDigit b && decide ('8' ≤ a))) = true ↔ _
    rw [Bool.not_eq_true']
    refine ⟨fun h => ⟨by simp, ?_⟩, fun h => h.2 a b digits w rfl⟩
    rintro _ _ _ _ ⟨⟩
    exact h
  · have hiff : (Piece.escaped 'x').isClear opened ps = true ↔ ps ≠ [] := by
      simp only [Piece.isClear]
      split <;> grind
    rw [hiff]
    exact ⟨fun h => ⟨h, fun a b digits w he => absurd ⟨a, b, digits, w, he⟩ hr⟩, And.left⟩

theorem isClear_letter {c : Char} (hc : c ≠ 'c') (hx : c ≠ 'x') :
    (Piece.escaped c).isClear opened ps = !(['k', 'g', 'K'].contains c) := by
  unfold Piece.isClear
  split <;> simp_all

/-- What a piece is does not depend on the groups before it, but for references to them. -/
theorem isClear_behind (hle : opened ≤ opened') (h : p.isClear opened ps = true) :
    p.isClear opened' ps = true := by
  cases p with
  | reference digits =>
    simp only [Piece.isClear, Bool.and_eq_true, decide_eq_true_eq] at h ⊢
    omega
  | special => exact isClear_special.mpr (isClear_special.mp h)
  | escaped c =>
    by_cases hc : c = 'c'
    · subst hc
      exact isClear_control.mpr (isClear_control.mp h)
    by_cases hx : c = 'x'
    · subst hx
      exact isClear_hex.mpr (isClear_hex.mp h)
    · rw [isClear_letter hc hx] at h ⊢
      exact h
  | _ => exact h

/-- A piece that is what the reader takes it for is so before a bar. -/
theorem isClear_before {e : Char} (he : isEnding e = true) (qs : List Piece)
    (h : p.isClear opened ps = true) : p.isClear opened (ps ++ .plain e :: qs) = true := by
  cases p with
  | special =>
    rcases isClear_special.mp h with ⟨c, w, rfl, hc⟩ | ⟨c, w, rfl, hc⟩
    · exact isClear_special.mpr (.inl ⟨c, _, rfl, hc⟩)
    · exact isClear_special.mpr (.inr ⟨c, _, rfl, hc⟩)
  | escaped c =>
    by_cases hc : c = 'c'
    · subst hc
      obtain ⟨d, w, rfl | rfl⟩ := isClear_control.mp h
      · exact isClear_control.mpr ⟨d, _, .inl rfl⟩
      · exact isClear_control.mpr ⟨d, _, .inr rfl⟩
    by_cases hx : c = 'x'
    · subst hx
      obtain ⟨hne, hrun⟩ := isClear_hex.mp h
      refine isClear_hex.mpr ⟨by simp, fun a b digits w heq => ?_⟩
      match ps with
      | [] => exact absurd rfl hne
      | [_] =>
        cases heq
        rcases ending_cases he with rfl | rfl <;> simp [Unicode.isHexDigit]
      | [_, _] => cases heq
      | _ :: _ :: _ :: ps =>
        cases heq
        exact hrun a b digits ps rfl
    · rw [isClear_letter hc hx] at h ⊢
      exact h
  | _ => exact h

/-- Pieces that are clear are so behind more groups. -/
theorem isClear_mono (hle : opened ≤ opened') (h : isClear opened ps = true) :
    isClear opened' ps = true := by
  induction ps generalizing opened opened' with
  | nil => rfl
  | cons p ps ih =>
    simp only [isClear, Bool.and_eq_true] at h ⊢
    exact ⟨isClear_behind hle h.1, ih (by split <;> omega) h.2⟩

theorem isClear_append {e : Char} (he : isEnding e = true) (h : isClear opened ps = true)
    (hqs : isClear (opened + openings ps) qs = true) :
    isClear opened (ps ++ .plain e :: qs) = true := by
  induction ps generalizing opened with
  | nil =>
    simp only [List.nil_append, isClear, Bool.and_eq_true]
    exact ⟨by rcases ending_cases he with rfl | rfl <;> rfl, hqs⟩
  | cons p ps ih =>
    simp only [isClear, Bool.and_eq_true] at h
    simp only [List.cons_append, isClear, Bool.and_eq_true]
    refine ⟨isClear_before he qs h.1, ih h.2 ?_⟩
    have hopened : (if p == .opening then opened + 1 else opened) + openings ps =
        opened + openings (p :: ps) := by
      simp only [openings, List.countP_cons]
      split <;> omega
    rw [hopened]
    exact hqs

end Clear

/-- **A clear text that is whole, a bar and another clear text are clear together.** -/
theorem clear_joined {e : Char} (he : isEnding e = true) {cs ds : List Char} (h : Clear 0 cs)
    (hcut : ¬ IsCut cs) (hds : Clear 0 ds) :
    Clear 0 (cs ++ e :: ds) ∧ opens (cs ++ e :: ds) = opens cs + opens ds := by
  have hps := pieces_joined he ds h hcut
  refine ⟨?_, ?_⟩
  · unfold Clear at h hds ⊢
    rw [hps]
    exact isClear_append he h (isClear_mono (Nat.zero_le _) hds)
  · simp only [opens, openings, hps, List.countP_append, List.countP_cons]
    rfl

/-! ## 2. The alternatives of a pattern -/

section Rows

variable {flags : Flags}

/-- **What some alternatives are read as**, from `s` on up to the end of their text in `s'`: where
    they end, themselves; and before a bar, themselves and what follows it. -/
structure Rows (flags : Flags) (f : Nat) (s s' : Progress) (bs : List Syntax) : Prop where
  ne_nil : bs ≠ []
  length : bs.length ≤ f
  closed : ∀ C : Setting, C.Closes → ∀ last spare,
    readParts flags last (f + spare) (C.progress s) =
      .ok (Syntax.choice last (bs.map (Syntax.moved C.offset)), C.progress s')
  barred : ∀ (C : Setting) (more : List Char), C.tail = '|' :: more → ∀ last spare,
    readParts flags last (f + spare) (C.progress s) =
      (readParts flags Syntax.held (f + spare - bs.length) >>= fun b =>
        pure ((bs.map (Syntax.moved C.offset)).foldr .alt b) : Reading Syntax)
        { C.progress s' with rest := more }

theorem readParts_eq {last : Syntax → Syntax} {f : Nat} {s s' : Progress} {a : Syntax}
    (h : readBranch (f + 1) 2 flags s = .ok (a, s')) :
    readParts flags last (f + 1) s =
      if s'.rest.head? == some '|' then
        (readParts flags Syntax.held f >>= fun b => pure (.alt a b) : Reading Syntax)
          { s' with rest := s'.rest.tail }
      else .ok (last a, s') := by
  rw [readParts, reading_bind_eq h, readBar_eq, readFurther_succ]
  rfl

/-- One alternative. -/
theorem rows_last {f : Nat} {s s' : Progress} {a : Syntax}
    (h : ∀ (C : Setting) spare, readBranch (f + 1 + spare) 2 flags (C.progress s) =
      .ok (a.moved C.offset, C.progress s')) (hrest : s'.rest = []) :
    Rows flags (f + 1) s s' [a] := by
  have hread : ∀ (C : Setting) (last : Syntax → Syntax) spare, readParts flags last (f + 1 + spare)
      (C.progress s) =
        if C.tail.head? == some '|' then
          (readParts flags Syntax.held (f + spare) >>= fun b =>
            pure (.alt (a.moved C.offset) b) : Reading Syntax)
            { C.progress s' with rest := C.tail.tail }
        else .ok (last (a.moved C.offset), C.progress s') := by
    intro C last spare
    have htail : (C.progress s').rest = C.tail := by
      show C.text s'.rest = _
      rw [hrest]
      rfl
    have hC := h C spare
    rw [Nat.add_right_comm] at hC ⊢
    rw [readParts_eq hC, htail]
  refine ⟨by simp, Nat.succ_le_succ (Nat.zero_le f), fun C hC last spare => ?_,
    fun C more hmore last spare => ?_⟩
  · rw [hread, if_neg (by simpa [Setting.Closes] using hC)]
    rfl
  · rw [hread, hmore, List.length_singleton, Nat.add_right_comm, Nat.add_sub_cancel]
    rfl

/-- An alternative before others. -/
theorem rows_more {f : Nat} {s t s' : Progress} {a : Syntax} {bs : List Syntax} {cs : List Char}
    (h : ∀ (C : Setting) spare, readBranch (f + 1 + spare) 2 flags (C.progress s) =
      .ok (a.moved C.offset, C.progress t)) (ht : t.rest = '|' :: cs)
    (hrows : Rows flags f { t with rest := cs } s' bs) : Rows flags (f + 1) s s' (a :: bs) := by
  have hread : ∀ (C : Setting) (last : Syntax → Syntax) spare, readParts flags last (f + 1 + spare)
      (C.progress s) =
        (readParts flags Syntax.held (f + spare) >>= fun b =>
          pure (.alt (a.moved C.offset) b) : Reading Syntax) (C.progress { t with rest := cs }) := by
    intro C last spare
    have htext : (C.progress t).rest = '|' :: C.text cs := by
      show C.text t.rest = _
      rw [ht, text_bare C (by decide)]
    have hC := h C spare
    rw [Nat.add_right_comm] at hC ⊢
    rw [readParts_eq hC, htext]
    rfl
  refine ⟨by simp, Nat.succ_le_succ hrows.length, fun C hC last spare => ?_,
    fun C more hmore last spare => ?_⟩
  · rw [hread, reading_bind_eq (hrows.closed C hC Syntax.held spare), List.map_cons,
      choice_cons _ _ (by simpa using hrows.ne_nil)]
    rfl
  · have hlen : f + 1 + spare - (a :: bs).length = f + spare - bs.length := by
      rw [List.length_cons]
      omega
    rw [hread, hlen]
    refine (reading_bind_congr (hrows.barred C more hmore Syntax.held spare)).trans ?_
    simp only [bind_assoc, pure_bind, List.map_cons, List.foldr_cons]

/-- **The alternatives of a clear text**, by induction on the steps that read them. -/
theorem exists_rows : ∀ {f : Nat} {last : Syntax → Syntax} {s s' : Progress} {a : Syntax}, Fine s →
    readParts flags last f s = .ok (a, s') → s'.rest = [] → ∃ bs, Rows flags f s s' bs
  | 0, _, s, s', a, _, h, _ => by
      rw [readParts, readBranch] at h
      cases h
  | f + 1, last, s, s', a, hs, h, hrest => by
      obtain ⟨b, t, hb, _⟩ := reading_bind_ok h
      obtain ⟨_, ⟨b', rfl, _, hgo, _⟩, hall⟩ :=
        (show Carried flags flags (f + 1) from carried (f + 1)).branch hs b t hb
      have hall : ∀ (C : Setting) spare, readBranch (f + 1 + spare) 2 flags (C.progress s) =
          .ok (b'.moved C.offset, C.progress t) := by
        rcases hall 0 with h0 | ⟨h0, _⟩
        · exact fun C => h0 C trivial
        · cases h0
      rw [readParts_eq hb] at h
      cases hbar : t.rest.head? == some '|' with
      | false =>
        rw [hbar] at h
        cases h
        exact ⟨[b'], rows_last hall hrest⟩
      | true =>
        obtain ⟨cs, ht⟩ := List.head?_eq_some_iff.mp (by simpa using hbar)
        rw [hbar, if_pos rfl, ht] at h
        obtain ⟨c, s1, hc, h⟩ := reading_bind_ok h
        cases h
        have hfine := (hgo.fine.goes (ht ▸ kept_bare (by decide) (ht ▸ hgo.fine.clear))).fine
        obtain ⟨bs, hrows⟩ := exists_rows hfine hc hrest
        exact ⟨b' :: bs, rows_more hall ht hrows⟩

end Rows

/-- A clear pattern that can be read has alternatives. -/
theorem Standing.rows {flags : Flags} {cs : List Char} {a : Syntax} (h : Standing flags cs a) :
    ∃ bs, Rows flags (4 * cs.length + 3) ⟨cs, 0, [], []⟩ ⟨[], opens cs, [], []⟩ bs ∧
      Alternates bs a := by
  have hread := h.alone 0
  rw [Nat.add_zero, readingSteps, readAlternatives_succ, if_neg (by decide)] at hread
  obtain ⟨bs, hrows⟩ := exists_rows ⟨h.clear, rfl⟩ hread rfl
  have hclosed := hrows.closed .alone closes_alone id 0
  rw [Nat.add_zero, progress_alone h.clear] at hclosed
  obtain ⟨rfl, _⟩ := Prod.mk.inj (Except.ok.inj (hread.symm.trans hclosed))
  have hmap : bs.map (Syntax.moved Setting.alone.offset) = bs :=
    List.map_id'' (fun b => moved_zero b) bs
  rw [hmap]
  exact ⟨bs, hrows, alternates_choice .one hrows.ne_nil⟩

/-! ## 3. Joined patterns -/

/-- Patterns with bars between them. -/
def joinedText : List (List Char) → List Char
  | [] => []
  | [cs] => cs
  | cs :: ds :: more => cs ++ '|' :: joinedText (ds :: more)

/-- Whether a text refers to groups. -/
def refers (cs : List Char) : Bool :=
  (pieces cs).any fun
    | .reference _ => true
    | _ => false

/-- **Patterns that keep apart**: none of them refers to groups while groups of others stand before
    it; so many stand before the first one. -/
def isApart : Nat → List (List Char) → Bool
  | _, [] => true
  | opened, cs :: css => (opened == 0 || !refers cs) && isApart (opened + opens cs) css

/-- Patterns that keep apart do so with fewer groups before them. -/
theorem isApart_mono {g g' : Nat} {css : List (List Char)} (hle : g ≤ g')
    (h : isApart g' css = true) : isApart g css = true := by
  induction css generalizing g g' with
  | nil => rfl
  | cons cs css ih =>
    simp only [isApart, Bool.and_eq_true, Bool.or_eq_true, beq_iff_eq] at h ⊢
    refine ⟨h.1.imp_left fun hzero => ?_, ih (Nat.add_le_add_right hle _) h.2⟩
    omega

/-- How many groups joined patterns have, with those before them. -/
def joinedGroups (g : Nat) (ps : List (List Char × Syntax)) : Nat :=
  ps.foldl (fun g p => g + opens p.1) g

/-- **The alternatives of joined patterns**, which are those of each pattern with their groups
    moved; `g` groups stand before the first. -/
inductive Joins : Nat → List (List Char × Syntax) → List Syntax → Prop
  | nil (g : Nat) : Joins g [] []
  | cons {g : Nat} {p : List Char × Syntax} {ps : List (List Char × Syntax)} {as bs : List Syntax} :
      Alternates as p.2 → Joins (g + opens p.1) ps bs →
      Joins g (p :: ps) (as.map (Syntax.moved g) ++ bs)

theorem renumbered_of_apart {g : Nat} {cs : List Char} {css : List (List Char)} (h : Clear 0 cs)
    (hapart : isApart g (cs :: css) = true) : renumbered g cs = cs := by
  simp only [isApart, Bool.and_eq_true, Bool.or_eq_true, beq_iff_eq, Bool.not_eq_true'] at hapart
  rcases hapart.1 with rfl | hrefers
  · exact renumbered_zero h
  · have hshift : ∀ p ∈ pieces cs, (p.shift g).text = p.text := by
      intro p hp
      have hp := List.any_eq_false.mp hrefers p hp
      cases p with
      | reference digits => simp at hp
      | _ => rfl
    calc renumbered g cs = (pieces cs).flatMap Piece.text := List.flatMap_congr hshift
      _ = cs := text_pieces cs

/-- Where a pattern stands behind others, with `g` groups before it. -/
def behind (g : Nat) (more : List Char) (h : Parts more) : Setting :=
  ⟨g, more, [], fun c hc => .inr (h c hc), by simp⟩

theorem progress_behind {g : Nat} {more : List Char} (h : Parts more) {cs : List Char} {n : Nat}
    (hcs : renumbered g cs = cs) :
    (behind g more h).progress ⟨cs, n, [], []⟩ = ⟨cs ++ more, n + g, [], []⟩ := by
  simp only [Setting.progress, Setting.text, behind, hcs, List.map_nil, List.append_nil]

section Joined

variable {flags : Flags}

/-- **Joined patterns are read alternative by alternative.** -/
theorem readParts_joined : ∀ (ps : List (List Char × Syntax)) (last : Syntax → Syntax) (g f : Nat),
    ps ≠ [] → (∀ p ∈ ps, Standing flags p.1 p.2) → isApart g (ps.map (·.1)) = true →
    4 * (joinedText (ps.map (·.1))).length + 3 ≤ f →
    ∃ bs, Joins g ps bs ∧ bs ≠ [] ∧
      readParts flags last f ⟨joinedText (ps.map (·.1)), g, [], []⟩ =
        .ok (Syntax.choice last bs, ⟨[], joinedGroups g ps, [], []⟩)
  | [], _, _, _, hne, _, _, _ => absurd rfl hne
  | [p], last, g, f, _, h, hapart, hf => by
      have hp := h p (by simp)
      obtain ⟨as, hrows, has⟩ := hp.rows
      obtain ⟨spare, rfl⟩ := Nat.exists_eq_add_of_le hf
      have hend : Parts [] := by rintro c ⟨⟩
      have hread := hrows.closed (behind g [] hend) (by simp [Setting.Closes, behind]) last spare
      rw [progress_behind hend (renumbered_of_apart hp.clear hapart), List.append_nil,
        Nat.zero_add, progress_behind hend (renumbered_nil g), Nat.add_comm (opens p.1)] at hread
      refine ⟨as.map (Syntax.moved g) ++ [], .cons has (.nil _), by simpa using hrows.ne_nil, ?_⟩
      rw [List.append_nil]
      exact hread
  | p :: q :: ps, last, g, f, _, h, hapart, hf => by
      have hp := h p (by simp)
      obtain ⟨as, hrows, has⟩ := hp.rows
      have hlen := hrows.length
      simp only [List.map_cons, joinedText, List.length_append, List.length_cons] at hf
      have hrest : isApart (g + opens p.1) ((q :: ps).map (·.1)) = true := by
        simp only [List.map_cons] at hapart ⊢
        rw [isApart, Bool.and_eq_true] at hapart
        exact hapart.2
      obtain ⟨bs, hjoins, hbs, hmore⟩ := readParts_joined (q :: ps) Syntax.held (g + opens p.1)
        (f - as.length) (by simp) (fun r hr => h r (List.mem_cons_of_mem p hr)) hrest (by
          simp only [List.map_cons]
          omega)
      have hbar : Parts ('|' :: joinedText ((q :: ps).map (·.1))) := by
        rintro c ⟨⟩
        rfl
      obtain ⟨spare, rfl⟩ : ∃ spare, f = 4 * p.1.length + 3 + spare :=
        ⟨f - (4 * p.1.length + 3), by omega⟩
      have hread := hrows.barred (behind g _ hbar) _ rfl last spare
      rw [progress_behind hbar (renumbered_of_apart hp.clear hapart), Nat.zero_add,
        progress_behind hbar (renumbered_nil g), Nat.add_comm (opens p.1)] at hread
      refine ⟨as.map (Syntax.moved g) ++ bs, .cons has hjoins, by simp [hbs], ?_⟩
      refine hread.trans ((reading_bind_eq hmore).trans ?_)
      rw [choice_append last (by simpa using hrows.ne_nil) hbs]
      rfl

/-- **Joined patterns are clear together**, with the groups of all of them. -/
theorem clear_joinedText : ∀ (ps : List (List Char × Syntax)) (g : Nat),
    (∀ p ∈ ps, Standing flags p.1 p.2) →
      Clear 0 (joinedText (ps.map (·.1))) ∧
        joinedGroups g ps = g + opens (joinedText (ps.map (·.1)))
  | [], _, _ => ⟨clear_nil, rfl⟩
  | [p], _, h => ⟨(h p (by simp)).clear, rfl⟩
  | p :: q :: ps, g, h => by
      have hp := h p (by simp)
      obtain ⟨hclear, hgroups⟩ := clear_joinedText (q :: ps) (g + opens p.1)
        fun r hr => h r (List.mem_cons_of_mem p hr)
      obtain ⟨hjoined, hopens⟩ := clear_joined (e := '|') rfl hp.clear hp.whole hclear
      refine ⟨hjoined, hgroups.trans ?_⟩
      simp only [List.map_cons, joinedText] at hopens ⊢
      rw [hopens, Nat.add_assoc]

end Joined

theorem toList_intercalate : ∀ patterns : List String,
    (String.intercalate "|" patterns).toList = joinedText (patterns.map String.toList)
  | [] => rfl
  | [p] => by simp [joinedText]
  | p :: q :: patterns => by
      have ih := toList_intercalate (q :: patterns)
      rw [String.toList_intercalate] at ih ⊢
      rw [List.map_cons, List.map_cons, joinedText]
      simp only [List.map_cons] at ih
      rw [← ih]
      simp

/-- **Joined patterns stand for themselves**: they are clear, and their tree has the alternatives of
    all of them. -/
theorem standing_joined {folded : Bool} {ps : List (List Char × Syntax)} (hne : ps ≠ [])
    (h : ∀ p ∈ ps, Standing ⟨folded, false⟩ p.1 p.2) (hapart : isApart 0 (ps.map (·.1)) = true) :
    ∃ a bs, Standing ⟨folded, false⟩ (joinedText (ps.map (·.1))) a ∧ Joins 0 ps bs ∧
      Alternates bs a := by
  obtain ⟨hclear, _⟩ := clear_joinedText ps 0 h
  obtain ⟨bs, hjoins, hbs, hread⟩ := readParts_joined ps id 0
    (4 * (joinedText (ps.map (·.1))).length + 3) hne h hapart (Nat.le_refl _)
  have hsyntax : readSyntax (joinedText (ps.map (·.1))) folded =
      .ok (Syntax.choice id bs, joinedGroups 0 ps) := by
    refine readSyntax_of_alternatives ?_
    rw [readingSteps, readAlternatives_succ, if_neg (by decide)]
    exact hread
  obtain ⟨_, a, ha⟩ := exists_standing hclear hsyntax folded
  have heq := ha.readSyntax.symm.trans hsyntax
  obtain ⟨rfl, _⟩ := Prod.mk.inj (Except.ok.inj heq)
  exact ⟨_, bs, ha, hjoins, alternates_choice .one hbs⟩

/-! ## 4. Patterns held together -/

/-- A pattern in a group without a number. -/
def heldText (cs : List Char) : List Char := '(' :: '?' :: ':' :: (cs ++ [')'])

theorem toList_either (patterns : List String) :
    (either patterns false).toList = heldText (String.intercalate "|" patterns).toList := by
  simp [either, heldText]

/-- A pattern that is held together is as clear, and has its groups. -/
theorem clear_held {flags : Flags} {cs : List Char} {a : Syntax} (h : Standing flags cs a) :
    Clear 0 (heldText cs) ∧ opens (heldText cs) = opens cs := by
  obtain ⟨hclear, hopens⟩ := clear_joined (e := ')') rfl h.clear h.whole clear_nil
  have hpieces : pieces (heldText cs) = .special :: .plain ':' :: pieces (cs ++ [')']) := by
    rw [heldText, pieces_cons]
    show Piece.special :: pieces (':' :: (cs ++ [')'])) = _
    rw [pieces_cons, nextPiece_bare (by decide)]
  refine ⟨?_, ?_⟩
  · unfold Clear at hclear ⊢
    rw [hpieces, isClear, isClear, Bool.and_eq_true, Bool.and_eq_true]
    exact ⟨rfl, rfl, hclear⟩
  · rw [← Nat.add_zero (opens cs)]
    refine Eq.trans ?_ hopens
    simp only [opens, openings, hpieces, List.countP_cons]
    rfl

/-- Where a pattern that is held together stands. -/
def inHeld : Setting where
  offset := 0
  tail := [')']
  outer := []
  tail_stops _ hc := .inl (Option.some.inj hc).symm
  outer_le _ hn := absurd hn List.not_mem_nil

theorem progress_inHeld {cs : List Char} (h : Clear 0 cs) (n : Nat) :
    inHeld.progress ⟨cs, n, [], []⟩ = ⟨cs ++ [')'], n, [], []⟩ := by
  simp only [Setting.progress, Setting.text, inHeld, renumbered_zero h, List.map_nil,
    List.append_nil, Nat.add_zero]

/-- The steps that lead up to a pattern that is held together, and on from it. -/
theorem readPiece_held (flags : Flags) (f : Nat) (cs : List Char) :
    readPiece (f + 1) 2 flags ⟨heldText cs, 0, [], []⟩ =
      (do
        let b ← readAlternatives f 2 flags
        closeGroup
        repeated 2 true b : Reading Syntax) ⟨cs ++ [')'], 0, [], []⟩ := by
  have hskip : skipComments ⟨heldText cs, 0, [], []⟩ = .ok ((), ⟨heldText cs, 0, [], []⟩) :=
    skipComments_eq (by rintro _ ⟨⟩)
  rw [readPiece_succ, reading_bind_eq rest_eq, reading_bind_eq (readText_nil hskip rfl)]
  refine (reading_bind_eq rest_eq).trans ?_
  refine (reading_bind_eq (lift_eq (a := (GroupHead.plain, cs ++ [')'])) rfl)).trans ?_
  exact reading_bind_eq (goOn_eq _)

/-- **A pattern that is held together is the pattern**, unless it is too deep there. -/
theorem readSyntax_held {folded : Bool} {cs : List Char} {a : Syntax} {r : Syntax × Nat}
    (h : Standing ⟨folded, false⟩ cs a) (hr : readSyntax (heldText cs) folded = .ok r) :
    readSyntax (heldText cs) folded = .ok (a, opens cs) := by
  have hlen : (heldText cs).length = cs.length + 4 := by simp [heldText]
  have hskip : skipComments ⟨heldText cs, 0, [], []⟩ = .ok ((), ⟨heldText cs, 0, [], []⟩) :=
    skipComments_eq (by rintro _ ⟨⟩)
  have hsteps : readingSteps (heldText cs).length = readingSteps cs.length + 13 + 1 + 1 + 1 := by
    rw [hlen]
    simp only [readingSteps]
    omega
  have hbranch : ∀ f, readBranch (f + 1 + 1) 2 ⟨folded, false⟩ ⟨heldText cs, 0, [], []⟩ =
      ((do
        let b ← readAlternatives f 2 ⟨folded, false⟩
        closeGroup
        let c ← repeated 2 true b
        if ← atRowEnd then return c else return .cat c (← readRow (f + 1) 2 ⟨folded, false⟩) :
        Reading Syntax) (inHeld.progress ⟨cs, 0, [], []⟩)) := by
    intro f
    rw [progress_inHeld h.clear, readBranch_succ, reading_bind_eq hskip, reading_bind_eq atRowEnd_eq]
    refine (reading_bind_congr (readPiece_held _ f cs)).trans ?_
    simp only [bind_assoc]
  have hclosed : inHeld.Closes := by simp [Setting.Closes, inHeld]
  rcases h.inside with hin | ⟨_, hin⟩
  · refine readSyntax_of_alternatives ?_
    rw [hsteps, readAlternatives_succ, if_neg (by decide)]
    refine (reading_bind_eq (a := a) (t := ⟨[], opens cs, [], []⟩) ?_).trans (by rw [readBar_eq]; rfl)
    rw [hbranch, reading_bind_eq (hin inHeld hclosed 13), progress_inHeld clear_nil]
    refine (reading_bind_eq (a := ()) (t := ⟨[], opens cs, [], []⟩) rfl).trans ?_
    refine (reading_bind_eq (repeated_none (s := ⟨[], opens cs, [], []⟩) unrepeated_nil)).trans ?_
    rw [reading_bind_eq atRowEnd_eq]
    exact congrArg (fun b => Except.ok (b, _)) (moved_zero a)
  · obtain ⟨s, hs, _⟩ := readSyntax_ok (a := r.1) (n := r.2) hr
    rw [hsteps, readAlternatives_succ, if_neg (by decide)] at hs
    rw [reading_bind_error ((hbranch _).trans (reading_bind_error (hin inHeld hclosed 13)))] at hs
    cases hs

end Highlight.Pattern
