import Highlight.Proofs.Regex.Brackets
import Highlight.Proofs.Regex.Groups

/-!
# Pieces in a longer pattern

The readers of pieces that hold no others read in every setting what they read of a clear text on
its own.

* `Fine`, `Goes` -- clear text that remains, and what reading a part of it leaves;
* `carries_readText` -- plain characters;
* `carries_readEscaped`, `carries_readClass` -- what a backslash announces, and classes.
-/

namespace Highlight.Regex

open Pattern

/-! ## 1. Clear text -/

/-- Clear text remains, and no group has a name. -/
structure Fine (s : Progress) : Prop where
  clear : Clear s.groups s.rest
  names : s.names = []

/-- A part of a clear text has been read. -/
structure Goes (s s' : Progress) : Prop where
  fine : Fine s'
  opened : s'.opened = s.opened
  le : s.groups ≤ s'.groups
  opens : s'.groups + opens s'.rest = s.groups + opens s.rest
  cut : IsCut s.rest → IsCut s'.rest

theorem Goes.refl {s : Progress} (h : Fine s) : Goes s s := ⟨h, rfl, Nat.le_refl _, rfl, id⟩

theorem Goes.trans {s s' s'' : Progress} (h : Goes s s') (h' : Goes s' s'') : Goes s s'' :=
  ⟨h'.fine, h'.opened.trans h.opened, Nat.le_trans h.le h'.le, h'.opens.trans h.opens,
    fun hc => h'.cut (h.cut hc)⟩

/-- A part that opens no group has been read. -/
theorem Fine.goes {s : Progress} (h : Fine s) {after : List Char}
    (hk : Kept s.groups s.rest after) : Goes s { s with rest := after } :=
  ⟨⟨hk.clear, h.names⟩, rfl, Nat.le_refl _, by rw [hk.opens], hk.cut⟩

/-! ## 2. Beginnings -/

section Beginnings

variable (C : Setting) {opened : Nat}

theorem text_bare {c : Char} (hc : isBare c = true) (cs : List Char) :
    C.text (c :: cs) = c :: C.text cs :=
  C.text_stretch (u := [c]) (fun _ h => List.mem_singleton.mp h ▸ hc) cs

theorem text_paren (cs : List Char) : C.text ('(' :: cs) = '(' :: C.text cs := by
  by_cases hq : cs.head? = some '?'
  · obtain ⟨w, rfl⟩ := List.head?_eq_some_iff.mp hq
    rw [Setting.text, renumbered_special, text_bare C (c := '?') (by decide)]
    rfl
  · rw [Setting.text, renumbered_opening _ hq]
    rfl

/-- A text there begins as it does on its own, unless it begins with what follows it. -/
theorem exists_cons_of_text {cs : List Char} {c : Char} {w : List Char} (h : C.text cs = c :: w)
    (hc : c ≠ ')') (hc' : c ≠ '|') : ∃ cs', cs = c :: cs' := by
  cases cs with
  | nil => rcases C.head?_text_nil c (by rw [h]; rfl) with hc'' | hc'' <;> contradiction
  | cons d cs =>
    have hd := C.head?_text_cons d cs
    rw [h] at hd
    cases hd
    exact ⟨cs, rfl⟩

/-- No comment begins a clear text. -/
theorem not_comment {cs w : List Char} (h : Clear opened cs) : cs ≠ '(' :: '?' :: '#' :: w := by
  rintro rfl
  have hc := (clear_special h).2.2
  rw [pieces_cons] at hc
  cases hc

theorem not_comment_text {cs w : List Char} (h : Clear opened cs) :
    C.text cs ≠ '(' :: '?' :: '#' :: w := by
  intro he
  obtain ⟨cs, rfl⟩ := exists_cons_of_text C he (by decide) (by decide)
  rw [text_paren, List.cons.injEq] at he
  obtain ⟨cs, rfl⟩ := exists_cons_of_text C he.2 (by decide) (by decide)
  rw [text_bare C (by decide), List.cons.injEq] at he
  obtain ⟨cs, rfl⟩ := exists_cons_of_text C he.2.2 (by decide) (by decide)
  exact not_comment h rfl

theorem afterComments_eq {cs : List Char} (h : ∀ w, cs ≠ '(' :: '?' :: '#' :: w) (n : Nat) :
    afterComments n cs = .ok cs := by
  unfold afterComments
  split
  · exact absurd rfl (h _)
  · rfl

theorem skipComments_eq {s : Progress} (h : ∀ w, s.rest ≠ '(' :: '?' :: '#' :: w) :
    skipComments s = .ok ((), s) := by
  show (do let cs ← rest; goOn (← afterComments cs.length cs) : Reading Unit) s = _
  rw [reading_bind_eq (show rest s = .ok (s.rest, s) from rfl),
    reading_bind_eq (show (liftM (afterComments s.rest.length s.rest) : Reading _) s =
      .ok (s.rest, s) by rw [afterComments_eq h]; rfl)]
  rfl

/-- There are no comments in a clear text. -/
theorem carries_skipComments {s : Progress} (hs : Fine s) :
    Carries s skipComments (fun _ _ _ => skipComments) (fun _ _ s' => s' = s) := by
  refine Carries.of_ok fun a s' h => ?_
  rw [skipComments_eq fun w => not_comment hs.clear] at h
  cases h
  exact ⟨fun _ => (), rfl, fun _ C _ => skipComments_eq fun w => not_comment_text C hs.clear⟩

end Beginnings

/-! ## 3. Plain characters -/

/-- The characters that are no plain ones. -/
def announces : List Char := ['(', ')', '[', '|', '.', '^', '$']

theorem readPlain_unescaped {c : Char} (hc : c ≠ '\\') (groups : Nat) (cs : List Char) :
    readPlain groups (c :: cs) =
      if announces.contains c then .ok none
      else (readRepeat (c :: cs)).map fun r => if r.isSome then none else some (c, cs) := by
  unfold readPlain
  split
  · rename_i he
    cases he
  · rename_i he
    cases he
    exact absurd rfl hc
  · rename_i he
    cases he
    exact absurd rfl hc
  · rename_i he
    cases he
    unfold announces
    split
    · rfl
    · simp only [bind, Except.bind]
      cases readRepeat (c :: cs) with
      | error e => rfl
      | ok r => cases r <;> rfl

theorem readPlain_escaped (groups : Nat) (c : Char) (cs : List Char) :
    readPlain groups ('\\' :: c :: cs) =
      .ok (if isPlainEscape groups (c :: cs) then some (c, cs) else none) := rfl

/-- No name is asked for in a clear text, and it does not end in the middle of a code point. -/
theorem letter_of_clear {opened : Nat} {d : Char} {cs : List Char} (hd : isLeading d = false)
    (hcl : Clear opened ('\\' :: d :: cs)) : d ≠ 'k' ∧ (d = 'x' → cs ≠ []) := by
  by_cases hn : d = '\n'
  · subst hn
    exact ⟨by decide, fun h => absurd h (by decide)⟩
  have hp := isClear_escaped hd hn hcl
  refine ⟨?_, ?_⟩
  · rintro rfl
    cases hp
  · rintro rfl rfl
    cases hp

theorem length_readPlain {groups : Nat} {cs after : List Char} {c : Char}
    (h : readPlain groups cs = .ok (some (c, after))) : after.length + 1 ≤ cs.length := by
  cases cs with
  | nil => cases h
  | cons d cs =>
    by_cases hd : d = '\\'
    · subst hd
      cases cs with
      | nil => cases h
      | cons d cs =>
        rw [readPlain_escaped] at h
        split at h <;> cases h
        simp
    · rw [readPlain_unescaped hd] at h
      split at h
      · cases h
      · cases hr : readRepeat (d :: cs) with
        | error e => rw [hr] at h; cases h
        | ok x =>
          rw [hr] at h
          cases x <;> cases h
          simp

/-- **A plain character is read there as well.** -/
theorem readPlain_text (C : Setting) {opened : Nat} {cs : List Char}
    {r : Option (Char × List Char)} (hcl : Clear opened cs)
    (h : readPlain opened cs = .ok r) :
    readPlain (opened + C.offset) (C.text cs) = .ok (r.map fun r => (r.1, C.text r.2)) ∧
      ∀ c after, r = some (c, after) → Kept opened cs after := by
  cases cs with
  | nil =>
    cases h
    refine ⟨?_, by simp⟩
    cases ht : C.text [] with
    | nil => rfl
    | cons c w =>
      rcases C.head?_text_nil c (by rw [ht]; rfl) with rfl | rfl <;> rfl
  | cons c cs =>
    by_cases hc : c = '\\'
    · subst hc
      cases cs with
      | nil => cases h
      | cons d cs =>
        rw [readPlain_escaped] at h
        cases h
        by_cases hd : isLeading d = true
        · obtain ⟨n, e, es, _, _, he, ht, hn, hn'⟩ := exists_reference C hd hcl
          rw [ht, readPlain_escaped, isPlainEscape_reference (isDigit_leading hd).1 hn,
            isPlainEscape_reference he hn']
          exact ⟨rfl, by simp⟩
        · rw [Bool.not_eq_true] at hd
          have hk := kept_escaped hd hcl
          have hkx := letter_of_clear hd hcl
          rw [text_escaped C hd, readPlain_escaped,
            isPlainEscape_text C opened (opened + C.offset) hd hkx.1 hkx.2]
          refine ⟨by split <;> rfl, ?_⟩
          intro c after hr
          split at hr <;> cases hr
          exact hk
    · rw [readPlain_unescaped hc] at h
      have hhead := C.head?_text_cons c cs
      obtain ⟨w, hw⟩ := List.head?_eq_some_iff.mp hhead
      rw [hw, readPlain_unescaped hc]
      split at h
      · rename_i ha
        cases h
        rw [if_pos ha]
        exact ⟨rfl, by simp⟩
      · rename_i ha
        have hb : isBare c = true := by
          simp only [isBare, Bool.and_eq_true, bne_iff_ne, ne_eq]
          refine ⟨⟨?_, ?_⟩, hc⟩ <;> (rintro rfl; exact ha (by decide))
        rw [if_neg ha, ← hw, C.readRepeat_text]
        rw [text_bare C hb, List.cons.injEq] at hw
        rw [← hw.2]
        cases hr : readRepeat (c :: cs) with
        | error e => rw [hr] at h; cases h
        | ok x =>
          rw [hr] at h
          cases h
          have hk := kept_bare hb hcl
          cases x with
          | none =>
            refine ⟨rfl, ?_⟩
            intro c' after' he
            cases he
            exact hk
          | some x => exact ⟨rfl, by intro _ _ he; cases he⟩

theorem readText_nil {f : Nat} {s : Progress} (h : skipComments s = .ok ((), s))
    (h' : readPlain s.groups s.rest = .ok none) : readText f s = .ok ([], s) := by
  cases f with
  | zero => rfl
  | succ f =>
    rw [readText, reading_bind_eq h, reading_bind_eq get_eq, reading_bind_eq rest_eq,
      reading_bind_eq (lift_eq h')]
    rfl

theorem readText_cons {f : Nat} {s : Progress} {c : Char} {after : List Char}
    (h : skipComments s = .ok ((), s)) (h' : readPlain s.groups s.rest = .ok (some (c, after))) :
    readText (f + 1) s =
      (readText f >>= fun cs => pure (c :: cs) : Reading _) { s with rest := after } := by
  rw [readText, reading_bind_eq h, reading_bind_eq get_eq, reading_bind_eq rest_eq,
    reading_bind_eq (lift_eq h')]
  rfl

theorem readText_error {f : Nat} {s : Progress} {e : Fault}
    (h : skipComments s = .ok ((), s)) (h' : readPlain s.groups s.rest = .error e) :
    readText (f + 1) s = .error e := by
  rw [readText, reading_bind_eq h, reading_bind_eq get_eq, reading_bind_eq rest_eq, h']
  rfl

/-- **The plain characters that come next come next in every setting.** -/
theorem carries_readText : ∀ (f : Nat) {n : Setting → Nat} {s : Progress}, Fine s →
    s.rest.length ≤ f → (∀ C, (C.text s.rest).length ≤ n C) →
    Carries s (readText f) (fun _ C _ => readText (n C))
      (fun l b s' => b = (fun _ => l) ∧ Goes s s' ∧ s'.groups = s.groups) := by
  intro f
  induction f with
  | zero =>
    intro f' s hs hf _
    have hnil : s.rest = [] := List.length_eq_zero_iff.mp (by omega)
    refine Carries.of_ok fun l s' hl => ?_
    cases hl
    refine ⟨_, ⟨rfl, Goes.refl hs, rfl⟩, fun _ C _ => ?_⟩
    refine readText_nil (skipComments_eq fun w => not_comment_text C hs.clear) ?_
    exact (readPlain_text C hs.clear (r := none) (by rw [hnil]; rfl)).1
  | succ f ih =>
    intro f' s hs hf hf'
    have hskip := skipComments_eq fun w => not_comment (w := w) hs.clear
    have hskip' : ∀ C : Setting, skipComments (C.progress s) = .ok ((), C.progress s) := fun C =>
      skipComments_eq fun w => not_comment_text C hs.clear
    cases hp : readPlain s.groups s.rest with
    | error e => exact Carries.of_error (readText_error hskip hp)
    | ok r =>
      have hp' := fun C => readPlain_text C hs.clear hp
      cases r with
      | none =>
        refine Carries.of_ok fun l s' hl => ?_
        rw [readText_nil hskip hp] at hl
        cases hl
        exact ⟨_, ⟨rfl, Goes.refl hs, rfl⟩, fun _ C _ => readText_nil (hskip' C) (hp' C).1⟩
      | some r =>
        obtain ⟨c, after⟩ := r
        have hk := (hp' .alone).2 c after rfl
        have hgo := hs.goes hk
        have hlen := length_readPlain hp
        have hlen' : ∀ C : Setting, (C.text after).length + 1 ≤ (C.text s.rest).length := fun C =>
          length_readPlain (hp' C).1
        have hstep : ∀ C : Setting, readText (f' C) (C.progress s) =
            (readText (f' C - 1) >>= fun cs => pure (c :: cs) : Reading _)
              (C.progress { s with rest := after }) := by
          intro C
          have hf := hf' C
          have hl := hlen' C
          obtain ⟨n, hn⟩ : ∃ n, f' C = n + 1 := ⟨f' C - 1, by omega⟩
          rw [hn]
          exact readText_cons (hskip' C) (hp' C).1
        refine Carries.step (readText_cons hskip hp) (fun _ C _ => hstep C) ?_
        have hf1 : after.length ≤ f := by omega
        refine (ih (n := fun C => f' C - 1) hgo.fine hf1 fun C => ?_).bind fun l b s' h => ?_
        · have hf := hf' C
          have hl := hlen' C
          exact Nat.le_sub_one_of_lt (Nat.lt_of_lt_of_le hl hf)
        · obtain ⟨rfl, hgo', hg⟩ := h
          exact Carries.pure ⟨rfl, hgo.trans hgo', hg⟩

/-! ## 4. Classes -/

/-- **A class that begins is the same class in every setting**, unless it stands too deep. -/
theorem carries_readClass {s : Progress} (hs : Fine s) {cs : List Char} (hcs : s.rest = '[' :: cs)
    (depth : Nat) :
    Carries s (goOn cs >>= fun _ => readClass (2 * cs.length + 2) depth)
      (fun deeper C _ =>
        goOn (C.text s.rest).tail >>= fun _ =>
          readClass (2 * (C.text s.rest).tail.length + 2) (depth + deeper))
      (fun x b s' => b = (fun _ => x) ∧ Goes s s' ∧ s'.groups = s.groups) := by
  have hcl := hs.clear
  rw [hcs] at hcl
  obtain ⟨body, after, hbody, hclear, hopens, hne, hcaret, hb⟩ := clear_class hcl
  have htext := text_classBody _ _ _ hbody
  have hset : ∀ C : Setting, (C.text s.rest).tail = body ++ ']' :: C.text after := by
    intro C
    rw [hcs, Setting.text, renumbered_class _ hbody]
    simp only [Setting.text, List.cons_append, List.append_assoc, List.tail_cons]
  intro x s' h
  rw [reading_bind_eq (goOn_eq cs)] at h
  obtain ⟨rfl, hall⟩ := inClass_readClass hb hne hcaret htext.symm h
  refine ⟨fun _ => x, ⟨rfl, ⟨⟨hclear, hs.names⟩, rfl, Nat.le_refl _, ?_, ?_⟩, rfl⟩, fun deeper => ?_⟩
  · rw [hcs, hopens]
  · rw [hcs]
    exact isCut_class hbody
  · have hd : depth < maxNesting := by
      refine Nat.lt_of_not_le fun hle => ?_
      rw [readClass_deep hle] at h
      cases h
    by_cases hd' : depth + deeper < maxNesting
    · refine .inl fun C _ _ => (reading_bind_eq (goOn_eq _)).trans ?_
      rw [hset C]
      refine hall _ _ _ (C.text after) ?_ hd' rfl
      simp only [List.length_append, List.length_cons]
      omega
    · refine .inr ⟨by simp only [bne_iff_ne, ne_eq]; omega, fun C _ _ => ?_⟩
      exact (reading_bind_eq (goOn_eq _)).trans (readClass_deep (by omega))

/-! ## 5. Escapes -/

/-- What an escape reads that begins no reference, and what follows it. -/
def spelled (flags : Flags) (d : Char) (cs : List Char) : Except Fault (Syntax × List Char) :=
  match classEscape? d, anchorEscape? d with
  | some (cls, negated), _ => .ok (plainSet (classSet cls negated), cs)
  | none, some a => .ok (.anchor a, cs)
  | none, none =>
    if d == '0' then (writtenAt ('\\' :: d :: cs)).map fun r => (literal flags r.1, r.2)
    else if d == 'x' then
      (readBraced cs).bind fun
        | some r => .ok (literal flags (.char r.1), r.2)
        | none => (writtenAt ('\\' :: d :: cs)).map fun r => (literal flags r.1, r.2)
    else if (d == 'p' || d == 'P') && cs.head? == some '\x7b' then
      (readProperty (d == 'P') cs.tail).map fun r => (plainSet r.1, r.2)
    else (readEscape (d :: cs)).map fun r => (literal flags (.char r.1), r.2)

theorem readWritten_eq (flags : Flags) (cs : List Char) (s : Progress) :
    readWritten flags cs s =
      (writtenAt cs).map fun r => (literal flags r.1, { s with rest := r.2 }) := by
  unfold readWritten writtenAt
  cases readByte cs with
  | error e => rfl
  | ok r =>
    cases r with
    | none => rfl
    | some r =>
      obtain ⟨b, f, after⟩ := r
      refine (reading_bind_eq (lift_eq rfl)).trans ?_
      simp only [bind, Except.bind]
      split
      · rfl
      · cases readBytes none b after <;> rfl

theorem numbered?_zero (groups : Nat) (cs : List Char) : numbered? groups ('0' :: cs) = none := by
  unfold numbered?
  simp

section Escapes

variable {flags : Flags} {d : Char} {cs : List Char} {s : Progress}

theorem readEscaped_zero :
    readEscaped flags ('0' :: cs) s = readWritten flags ('\\' :: '0' :: cs) s := by
  have hc : classEscape? '0' = none := rfl
  have ha : anchorEscape? '0' = none := rfl
  have hdig : '0'.isDigit = true := rfl
  unfold readEscaped
  simp only [hc, ha, hdig, if_true]
  refine (reading_bind_eq get_eq).trans ?_
  rw [numbered?_zero]

theorem readEscaped_x :
    readEscaped flags ('x' :: cs) s =
      (do
        match ← readBraced cs with
        | some (d, after) =>
          goOn after
          return literal flags (.char d)
        | none => readWritten flags ('\\' :: 'x' :: cs) : Reading Syntax) s := rfl

theorem readEscaped_property (hd : d = 'p' ∨ d = 'P') :
    readEscaped flags (d :: '\x7b' :: cs) s = readPropertySet (d == 'P') cs s := by
  rcases hd with rfl | rfl <;> rfl

theorem readEscaped_other (hc : classEscape? d = none) (ha : anchorEscape? d = none)
    (hdig : d.isDigit = false) (hk : d ≠ 'k') (hx : d ≠ 'x')
    (hp : ¬ announcesProperty d cs) :
    readEscaped flags (d :: cs) s =
      (do
        let (e, after) ← readEscape (d :: cs)
        goOn after
        return literal flags (.char e) : Reading Syntax) s := by
  unfold readEscaped
  simp only [hc, ha, hdig, Bool.false_eq_true, if_false]
  split
  · exact absurd rfl hk
  · exact absurd rfl hk
  · exact absurd ⟨.inl rfl, rfl⟩ hp
  · exact absurd ⟨.inr rfl, rfl⟩ hp
  · exact absurd rfl hx
  · rfl

theorem readEscaped_eq (hd : isLeading d = false) (hk : d ≠ 'k') :
    readEscaped flags (d :: cs) s =
      (spelled flags d cs).map fun r => (r.1, { s with rest := r.2 }) := by
  unfold spelled
  cases hc : classEscape? d with
  | some x =>
    unfold readEscaped
    simp only [hc]
    rfl
  | none =>
    cases ha : anchorEscape? d with
    | some a =>
      unfold readEscaped
      simp only [hc, ha]
      rfl
    | none =>
      simp only
      by_cases hz : d = '0'
      · subst hz
        rw [readEscaped_zero, readWritten_eq]
        simp only [beq_self_eq_true, if_true]
        cases writtenAt ('\\' :: '0' :: cs) <;> rfl
      have hdig : d.isDigit = false := by
        rw [← Bool.not_eq_true]
        exact fun h => hz (eq_zero_of_not_leading hd h)
      simp only [beq_iff_eq, if_neg hz]
      by_cases hx : d = 'x'
      · subst hx
        rw [readEscaped_x, if_pos rfl]
        cases readBraced cs with
        | error e => rfl
        | ok r =>
          refine (reading_bind_eq (lift_eq rfl)).trans ?_
          cases r with
          | some r => rfl
          | none =>
            simp only [readWritten_eq, Except.bind]
            cases writtenAt ('\\' :: 'x' :: cs) <;> rfl
      rw [if_neg hx]
      by_cases hp : announcesProperty d cs
      · obtain ⟨hp, hopen⟩ := hp
        obtain ⟨w, rfl⟩ := List.head?_eq_some_iff.mp hopen
        have hcond : ((d == 'p' || d == 'P') && ('\x7b' :: w).head? == some '\x7b') = true := by
          rcases hp with rfl | rfl <;> rfl
        rw [readEscaped_property hp, if_pos hcond, List.tail_cons]
        unfold readPropertySet
        cases readProperty (d == 'P') w <;> rfl
      · have hcond : ¬ ((d == 'p' || d == 'P') && cs.head? == some '\x7b') = true := by
          simpa [announcesProperty] using hp
        rw [readEscaped_other hc ha hdig hk hx hp, if_neg hcond]
        cases readEscape (d :: cs) <;> rfl

end Escapes

theorem isLeaf_literal (flags : Flags) (w : Written) : (literal flags w).isLeaf = true := by
  cases w <;> rfl

theorem form_literal (flags flags' : Flags) (w : Written) :
    (literal flags' w).form = (literal flags w).form := by
  cases w <;> rfl

/-- What follows the braces of a property begins there with the same character. -/
theorem head?_text_brace (C : Setting) (cs : List Char) :
    ((C.text cs).head? == some '\x7b') = (cs.head? == some '\x7b') := by
  cases cs with
  | nil =>
    cases ht : (C.text []).head? with
    | none => rfl
    | some c => rcases C.head?_text_nil c ht with rfl | rfl <;> rfl
  | cons c cs => rw [C.head?_text_cons]; rfl

/-- A piece that is read of a text is read in every setting, with other flags as one of its form. -/
def PieceInEach (opened : Nat) (cs : List Char) (a : Syntax) (after : List Char)
    (read : Setting → Except Fault (Syntax × List Char)) : Prop :=
  Kept opened cs after ∧
    ∃ a', a'.isLeaf = true ∧ a'.form = a.form ∧ ∀ C : Setting, read C = .ok (a', C.text after)

section Spelled

variable {opened : Nat} {flags : Flags} (flags' : Flags) {d : Char} {cs : List Char}
  {a : Syntax} {after : List Char}

/-- The piece that a written character or octet is. -/
theorem pieceInEach_written (hcl : Clear opened ('\\' :: d :: cs)) (hd : isLeading d = false)
    (h : (writtenAt ('\\' :: d :: cs)).map (fun r => (literal flags r.1, r.2)) = .ok (a, after)) :
    PieceInEach opened ('\\' :: d :: cs) a after fun C =>
      (writtenAt ('\\' :: d :: C.text cs)).map fun r => (literal flags' r.1, r.2) := by
  have hno : NoReference ('\\' :: d :: cs) := by
    rintro _ _ ⟨⟩
    exact hd
  cases hw : writtenAt ('\\' :: d :: cs) with
  | error e => rw [hw] at h; cases h
  | ok r =>
    rw [hw] at h
    cases h
    refine ⟨(writtenAt_text .alone hcl hno hw).2, literal flags' r.1, isLeaf_literal _ _,
      form_literal _ _ _, fun C => ?_⟩
    dsimp only
    rw [← text_escaped C hd, (writtenAt_text C hcl hno hw).1]
    rfl

/-- The piece behind `\x`: the braces read the same in every setting, and so do the digits. -/
theorem pieceInEach_braced (hcl : Clear opened ('\\' :: d :: cs)) (hd : isLeading d = false)
    (h : ((readBraced cs).bind fun
      | some r => .ok (literal flags (.char r.1), r.2)
      | none => (writtenAt ('\\' :: d :: cs)).map fun r => (literal flags r.1, r.2)) =
        .ok (a, after)) :
    PieceInEach opened ('\\' :: d :: cs) a after fun C =>
      (readBraced (C.text cs)).bind fun
        | some r => .ok (literal flags' (.char r.1), r.2)
        | none => (writtenAt ('\\' :: d :: C.text cs)).map fun r => (literal flags' r.1, r.2) := by
  have hk := kept_escaped hd hcl
  cases hb : readBraced cs with
  | error e => rw [hb] at h; cases h
  | ok r =>
    have hb' : ∀ C : Setting, readBraced (C.text cs) =
        .ok (r.map fun r => (r.1, C.text r.2)) := fun C => by
      rw [readBraced_text, hb]
      rfl
    rw [hb] at h
    cases r with
    | some r =>
      cases h
      refine ⟨hk.trans (kept_readBraced hk.clear hb), literal flags' (.char r.1),
        isLeaf_literal _ _, form_literal _ _ _, fun C => ?_⟩
      dsimp only
      rw [hb' C]
      rfl
    | none =>
      obtain ⟨hk', a', hl, hf, hall⟩ := pieceInEach_written flags' hcl hd h
      refine ⟨hk', a', hl, hf, fun C => ?_⟩
      dsimp only
      rw [hb' C]
      exact hall C

/-- The piece that a property in braces is. -/
theorem pieceInEach_property {negated : Bool} (hcl : Clear opened ('\\' :: d :: cs))
    (hd : isLeading d = false) (hbrace : cs.head? = some '\x7b')
    (h : (readProperty negated cs.tail).map (fun r => (plainSet r.1, r.2)) = .ok (a, after)) :
    PieceInEach opened ('\\' :: d :: cs) a after fun C =>
      (readProperty negated (C.text cs).tail).map fun r => (plainSet r.1, r.2) := by
  have hk := kept_escaped hd hcl
  obtain ⟨cs, rfl⟩ := List.head?_eq_some_iff.mp hbrace
  rw [List.tail_cons] at h
  cases hr : readProperty negated cs with
  | error e => rw [hr] at h; cases h
  | ok r =>
    rw [hr] at h
    cases h
    have hk1 := kept_bare (by decide) hk.clear
    have hk2 := (readProperty_text .alone hk1.clear hr).2
    refine ⟨(hk.trans hk1).trans hk2, _, rfl, rfl, fun C => ?_⟩
    dsimp only
    rw [text_bare C (by decide), List.tail_cons, (readProperty_text C hk1.clear hr).1]
    rfl

/-- The piece that the escape of one character is. -/
theorem pieceInEach_escape (hcl : Clear opened ('\\' :: d :: cs)) (hd : isLeading d = false)
    (h : (readEscape (d :: cs)).map (fun r => (literal flags (.char r.1), r.2)) =
      .ok (a, after)) :
    PieceInEach opened ('\\' :: d :: cs) a after fun C =>
      (readEscape (d :: C.text cs)).map fun r => (literal flags' (.char r.1), r.2) := by
  cases hr : readEscape (d :: cs) with
  | error e => rw [hr] at h; cases h
  | ok r =>
    rw [hr] at h
    cases h
    refine ⟨(readEscape_text .alone d cs hcl hd hr).2,
      literal flags' (.char r.1), isLeaf_literal _ _, form_literal _ _ _, fun C => ?_⟩
    dsimp only
    rw [(readEscape_text C d cs hcl hd hr).1]
    rfl

/-- **An escape that begins no reference reads the same in every setting**, with other flags a piece
    of the same form. -/
theorem spelled_text (hcl : Clear opened ('\\' :: d :: cs)) (hd : isLeading d = false)
    (h : spelled flags d cs = .ok (a, after)) :
    PieceInEach opened ('\\' :: d :: cs) a after fun C => spelled flags' d (C.text cs) := by
  unfold spelled at h ⊢
  cases hc : classEscape? d with
  | some x =>
    simp only [hc] at h ⊢
    cases h
    exact ⟨kept_escaped hd hcl, _, rfl, rfl, fun _ => rfl⟩
  | none =>
    cases ha : anchorEscape? d with
    | some b =>
      simp only [hc, ha] at h ⊢
      cases h
      exact ⟨kept_escaped hd hcl, _, rfl, rfl, fun _ => rfl⟩
    | none =>
      simp only [hc, ha, head?_text_brace] at h ⊢
      by_cases hz : (d == '0') = true
      · simp only [if_pos hz] at h ⊢
        exact pieceInEach_written flags' hcl hd h
      simp only [if_neg hz] at h ⊢
      by_cases hx : (d == 'x') = true
      · simp only [if_pos hx] at h ⊢
        exact pieceInEach_braced flags' hcl hd h
      simp only [if_neg hx] at h ⊢
      by_cases hp : ((d == 'p' || d == 'P') && cs.head? == some '\x7b') = true
      · simp only [if_pos hp] at h ⊢
        exact pieceInEach_property hcl hd (by simp at hp; exact hp.2) h
      · simp only [if_neg hp] at h ⊢
        exact pieceInEach_escape flags' hcl hd h

end Spelled

/-- What a tree that has been read of a text on its own is in every setting: the same tree, moved. It
    has the form of the tree that other flags give, and the groups that have been opened. -/
def Reads (s : Progress) (a : Syntax) (b : Setting → Syntax) (s' : Progress) : Prop :=
  ∃ a', b = (fun C => a'.moved C.offset) ∧ a'.form = a.form ∧ Goes s s' ∧
    Holds s.groups s'.groups s.opened a'

/-- A tree without groups is the same in every setting. -/
theorem reads_leaf {s s' : Progress} {a b : Syntax} (hl : b.isLeaf = true)
    (hf : b.form = a.form) (hgo : Goes s s') (hg : s'.groups = s.groups) :
    Reads s a (fun _ => b) s' :=
  ⟨b, funext fun C => (moved_of_isLeaf C.offset hl).symm, hf, hgo, hg ▸ Holds.leaf hl⟩

theorem classEscape?_digit {d : Char} (hd : d.isDigit = true) : classEscape? d = none := by
  unfold classEscape?
  split <;> first | rfl | exact absurd hd (by decide)

theorem anchorEscape?_digit {d : Char} (hd : d.isDigit = true) : anchorEscape? d = none := by
  unfold anchorEscape?
  split <;> first | rfl | exact absurd hd (by decide)

theorem readEscaped_reference {flags : Flags} {d : Char} {cs after : List Char} {s : Progress}
    {n : Nat} (hd : d.isDigit = true) (hn : numbered? s.groups (d :: cs) = some (n, after)) :
    readEscaped flags (d :: cs) s =
      .ok (.again [n] flags.folded (s.opened.contains n), { s with rest := after }) := by
  unfold readEscaped
  simp only [classEscape?_digit hd, anchorEscape?_digit hd, hd, if_true]
  refine (reading_bind_eq get_eq).trans ?_
  rw [hn]
  show Except.ok (Syntax.again [n] flags.folded ([n].any s.opened.contains), _) = _
  simp only [List.any_cons, List.any_nil, Bool.or_false]

theorem opened_contains (C : Setting) (opened : List Nat) {n : Nat} (hn : 1 ≤ n) :
    (opened.map (· + C.offset) ++ C.outer).contains (n + C.offset) = opened.contains n := by
  rw [Bool.eq_iff_iff, List.contains_iff_mem, List.contains_iff_mem, List.mem_append, List.mem_map]
  constructor
  · rintro (⟨m, hm, he⟩ | hm)
    · rwa [show n = m by omega]
    · have := C.outer_le _ hm
      omega
  · exact fun hm => .inl ⟨n, hm, rfl⟩

/-- **What a backslash announces is the same in every setting**, but for the number of the group that
    a reference asks for. -/
theorem carries_readEscaped {s : Progress} (hs : Fine s) {cs : List Char}
    (hcs : s.rest = '\\' :: cs) (flags flags' : Flags) :
    Carries s (readEscaped flags cs) (fun _ C _ => readEscaped flags' (C.text s.rest).tail)
      (Reads s) := by
  refine Carries.of_ok fun a s' h => ?_
  have hcl := hs.clear
  rw [hcs] at hcl
  cases cs with
  | nil => cases h
  | cons d cs =>
    by_cases hd : isLeading d = true
    · have hdig := (isDigit_leading hd).1
      have hkeep : Kept s.groups s.rest (cs.dropWhile Char.isDigit) := by
        obtain ⟨hc, ho, _⟩ := clear_reference hd hcl
        refine ⟨hc, by rw [hcs, ho], ?_, ?_⟩
        · rw [hcs]
          have := (List.dropWhile_sublist Char.isDigit (l := cs)).length_le
          simp only [List.length_cons]
          omega
        · rw [hcs]
          exact isCut_reference hd
      have hgo := hs.goes hkeep
      obtain ⟨n, _, _, h1, h2, _, _, hn, _⟩ := exists_reference .alone hd hcl
      rw [readEscaped_reference hdig hn] at h
      cases h
      refine ⟨_, ⟨.again [n] flags'.folded (s.opened.contains n), rfl, rfl, hgo, ?_⟩, ?_⟩
      · refine ⟨Nat.le_refl _, by rw [Nat.sub_self]; rfl, ?_, ?_⟩
        · intro m hm
          rw [Syntax.references, List.mem_singleton] at hm
          exact ⟨hm ▸ h1, hm ▸ h2⟩
        · intro done hdone hin m hm
          rw [List.mem_singleton] at hm
          subst hm
          refine hdone m h1 h2 fun hmem => ?_
          rw [List.contains_iff_mem.mpr hmem] at hin
          cases hin
      · intro _ C _
        obtain ⟨n', e, es, _, _, he, ht, hn', hne⟩ := exists_reference C hd hcl
        rw [hn, Option.some.injEq, Prod.mk.injEq] at hn'
        obtain ⟨rfl, _⟩ := hn'
        rw [hcs, ht, List.tail_cons, readEscaped_reference he (s := C.progress s) hne]
        simp only [Setting.progress, opened_contains C s.opened h1, Syntax.moved, List.map_cons,
          List.map_nil]
    · rw [Bool.not_eq_true] at hd
      have hkx := letter_of_clear hd hcl
      rw [readEscaped_eq hd hkx.1] at h
      cases hsp : spelled flags d cs with
      | error e => rw [hsp] at h; cases h
      | ok r =>
        rw [hsp] at h
        cases h
        obtain ⟨hk, a', hl, hf, hall⟩ := spelled_text flags' hcl hd hsp
        dsimp only at hall
        refine ⟨_, reads_leaf hl hf (hs.goes (hcs ▸ hk)) rfl, fun _ C _ => ?_⟩
        rw [hcs, text_escaped C hd, List.tail_cons, readEscaped_eq hd hkx.1, hall C]
        rfl

end Highlight.Regex
