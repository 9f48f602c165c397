import Highlight.Proofs.Regex.Local
import Highlight.Proofs.Text.Digits

/-!
# Escapes in a longer pattern

What a backslash announces is read in a longer pattern as it is on its own, as long as the pattern
is clear. A reference to a group becomes one to the moved group.

* `Kept` -- what remains of a clear text when a part of it has been read;
* `exists_reference` -- references;
* `isPlainEscape_text`, `readEscape_text` -- characters;
* `readProperty_text` -- properties;
* `readBraced_text`, `readBytes_text` -- code points and bytes.
-/

namespace Highlight.Regex

open Pattern

/-! ## 1. What remains -/

/-- What remains of a clear text is clear, and the part that has been read opened no group and had no
    backslash at its end that escapes nothing. -/
structure Kept (opened : Nat) (cs after : List Char) : Prop where
  clear : Clear opened after
  opens : opens after = opens cs
  length : after.length ≤ cs.length
  cut : IsCut cs → IsCut after

theorem Kept.trans {opened : Nat} {a b c : List Char} (h : Kept opened a b)
    (h' : Kept opened b c) : Kept opened a c :=
  ⟨h'.clear, h'.opens.trans h.opens, Nat.le_trans h'.length h.length, fun hc => h'.cut (h.cut hc)⟩

theorem kept_stretch {opened : Nat} {u v : List Char} (hu : ∀ c ∈ u, isBare c = true)
    (h : Clear opened (u ++ v)) : Kept opened (u ++ v) v := by
  obtain ⟨hv, ho⟩ := clear_stretch hu h
  exact ⟨hv, ho.symm, by simp, isCut_stretch hu⟩

/-- What is read from the plain characters at the front of a clear text leaves it clear. -/
theorem kept_read {α : Type} {f : List Char → Except Fault (Option (α × List Char))}
    (happ : ∀ u v, Stops v → f (u ++ v) = (f u).map (Option.map fun r => (r.1, r.2 ++ v)))
    (hsuf : ∀ u a w, f u = .ok (some (a, w)) → w <:+ u) {opened : Nat} {cs after : List Char}
    {a : α} (h : Clear opened cs) (hf : f cs = .ok (some (a, after))) : Kept opened cs after := by
  obtain ⟨u, v, rfl, hu, hv⟩ := exists_stretch cs
  rw [happ u v fun c hc => .inl (hv c hc)] at hf
  cases hfu : f u with
  | error e => rw [hfu] at hf; cases hf
  | ok r =>
    rw [hfu] at hf
    cases r with
    | none => cases hf
    | some r =>
      obtain ⟨b, w⟩ := r
      cases hf
      obtain ⟨x, rfl⟩ := hsuf _ _ _ hfu
      rw [List.append_assoc] at h ⊢
      exact kept_stretch (fun c hc => hu c (List.mem_append_left w hc)) h

theorem kept_readRepeat {opened : Nat} {cs after : List Char} {r : Repeat}
    (h : Clear opened cs) (hr : readRepeat cs = .ok (some (r, after))) : Kept opened cs after :=
  kept_read (fun u _ hv => readRepeat_append hv u) (fun _ _ _ h => suffix_readRepeat h) h hr

/-! ## 2. References -/

theorem leadingDecimal_digits {ds v : List Char} (hd : ∀ c ∈ ds, c.isDigit = true)
    (hv : ∀ c, v.head? = some c → c.isDigit = false) :
    leadingDecimal (ds ++ v) = (Nat.ofDigitChars 10 ds 0, v) := by
  have hgo : ∀ (ds : List Char) (n : Nat), (∀ c ∈ ds, c.isDigit = true) →
      leadingNumber 10 Char.isDigit ds.length n ds = (Nat.ofDigitChars 10 ds n, []) := by
    intro ds
    induction ds with
    | nil => intro n _; simp [leadingNumber]
    | cons c ds ih =>
      intro n hd
      have hc := hd c (by simp)
      rw [List.length_cons, leadingNumber, if_pos hc,
        ih _ fun e he => hd e (List.mem_cons_of_mem c he), Nat.ofDigitChars_cons, hexValue,
        if_pos hc, Nat.mul_comm]
      rfl
  rw [leadingDecimal_append hv, leadingDecimal, hgo ds 0 hd]
  rfl

/-- Digits that do not begin with zero refer to a group that is opened. -/
theorem numbered?_digits {opened : Nat} {ds v : List Char} (hd : ∀ c ∈ ds, c.isDigit = true)
    (hne : ds ≠ []) (hz : ds.head? ≠ some '0') (hv : ∀ c, v.head? = some c → c.isDigit = false)
    (hn : 1 ≤ Nat.ofDigitChars 10 ds 0) (ho : Nat.ofDigitChars 10 ds 0 ≤ opened) :
    numbered? opened (ds ++ v) = some (Nat.ofDigitChars 10 ds 0, v) := by
  unfold numbered?
  rw [leadingDecimal_digits hd hv]
  cases ds with
  | nil => exact absurd rfl hne
  | cons d ds =>
    have h1 : (Nat.ofDigitChars 10 (d :: ds) 0 != 0) = true := by
      rw [bne_iff_ne]
      omega
    have h2 : ((d :: ds ++ v).head? != some '0') = true := by
      rw [bne_iff_ne]
      exact hz
    have h3 : (decide (Nat.ofDigitChars 10 (d :: ds) 0 ≤ 9) ||
        decide (Nat.ofDigitChars 10 (d :: ds) 0 ≤ opened)) = true := by
      rw [decide_eq_true ho, Bool.or_true]
    simp only [h1, h2, h3, Bool.and_self, if_true]

theorem isDigit_leading {d : Char} (h : isLeading d = true) : d.isDigit = true ∧ d ≠ '0' := by
  simp only [isLeading, Bool.and_eq_true, decide_eq_true_eq] at h
  refine ⟨?_, ?_⟩
  · simp only [Char.isDigit, Bool.and_eq_true, decide_eq_true_eq]
    exact ⟨Char.le_trans (a := '0') (by decide) h.1, h.2⟩
  · rintro rfl
    exact absurd h.1 (by decide)

theorem no_digit_dropWhile (cs : List Char) :
    ∀ c, (cs.dropWhile Char.isDigit).head? = some c → c.isDigit = false := by
  intro c hc
  have h := List.head?_dropWhile_not Char.isDigit cs
  rw [hc] at h
  exact h

/-- **A reference is one to a group opened before; in a longer pattern to that group, moved.** -/
theorem exists_reference (C : Setting) {opened : Nat} {d : Char} {cs : List Char}
    (hd : isLeading d = true) (h : Clear opened ('\\' :: d :: cs)) :
    ∃ n e es, 1 ≤ n ∧ n ≤ opened ∧ e.isDigit = true ∧
      C.text ('\\' :: d :: cs) = '\\' :: e :: es ∧
      numbered? opened (d :: cs) = some (n, cs.dropWhile Char.isDigit) ∧
      numbered? (opened + C.offset) (e :: es) =
        some (n + C.offset, C.text (cs.dropWhile Char.isDigit)) := by
  obtain ⟨_, _, h1, h2⟩ := clear_reference hd h
  obtain ⟨hdig, hz⟩ := isDigit_leading hd
  have hall : ∀ c ∈ d :: cs.takeWhile Char.isDigit, c.isDigit = true := by
    intro c hc
    rcases List.mem_cons.mp hc with rfl | hc
    · exact hdig
    · exact List.all_eq_true.mp List.all_takeWhile c hc
  have hn := groupNumber_digits hall h1
  generalize hg : groupNumber (d :: cs.takeWhile Char.isDigit) = n at h1 h2 hn
  have hv := no_digit_dropWhile cs
  have hv' : ∀ c, (C.text (cs.dropWhile Char.isDigit)).head? = some c → c.isDigit = false := by
    intro c hc
    cases hw : cs.dropWhile Char.isDigit with
    | nil =>
      rw [hw] at hc
      rcases C.head?_text_nil c hc with rfl | rfl <;> rfl
    | cons b w =>
      rw [hw, C.head?_text_cons] at hc
      exact hv c (by rw [hw]; exact hc)
  have hone : 1 ≤ n + C.offset := by omega
  cases hm : Nat.toDigits 10 (n + C.offset) with
  | nil => exact absurd hm Nat.toDigits_ne_nil
  | cons e es =>
    have hme : ∀ c ∈ e :: es, c.isDigit = true := by
      rw [← hm]
      exact fun c hc => Nat.isDigit_of_mem_toDigits (by decide) (by decide) hc
    have hval : Nat.ofDigitChars 10 (e :: es) 0 = n + C.offset := by
      rw [← hm, Nat.ofDigitChars_ten_toDigits]
    refine ⟨n, e, es ++ C.text (cs.dropWhile Char.isDigit), h1, h2, hme e (by simp), ?_, ?_, ?_⟩
    · rw [Setting.text, renumbered_reference _ hd, hg, hm]
      simp only [Setting.text, List.cons_append, List.append_assoc]
    · have := @numbered?_digits opened _ _ hall (by simp) (by simpa using hz) hv
        (hn ▸ h1) (hn ▸ h2)
      rw [List.cons_append, List.takeWhile_append_dropWhile] at this
      rw [this, hn]
    · have := @numbered?_digits (opened + C.offset) _ _ hme (by simp)
        (hm ▸ Text.head_toDigits _ hone) hv' (by omega) (by omega)
      rw [List.cons_append] at this
      rw [this, hval]

/-! ## 3. Characters -/

section Characters

variable (C : Setting)

theorem isPlainEscape_reference {opened : Nat} {d : Char} {cs : List Char} {r : Nat × List Char}
    (hd : d.isDigit = true) (h : numbered? opened (d :: cs) = some r) :
    isPlainEscape opened (d :: cs) = false := by
  simp only [isPlainEscape, hd, if_true, h, Option.isNone_some, Bool.and_false]

/-- A digit that begins no reference is the zero of a byte. -/
theorem eq_zero_of_not_leading {d : Char} (h : isLeading d = false) (hd : d.isDigit = true) :
    d = '0' := by
  simp only [isLeading, Bool.and_eq_false_iff, decide_eq_false_iff_not] at h
  have h1 : 48 ≤ d.toNat ∧ d.toNat ≤ 57 := by
    simp only [Char.isDigit, Bool.and_eq_true, decide_eq_true_eq] at hd
    exact hd
  refine Char.toNat_inj.mp ?_
  rcases h with h | h
  · have : ¬ 49 ≤ d.toNat := h
    show d.toNat = 48
    omega
  · exact absurd h1.2 h

theorem isPlainEscape_property (opened : Nat) {d : Char} (hd : d = 'p' ∨ d = 'P')
    (cs : List Char) : isPlainEscape opened (d :: cs) = (cs.head? != some '\x7b') := by
  rcases hd with rfl | rfl
  · cases cs with
    | nil => rfl
    | cons c cs =>
      by_cases hc : c = '\x7b'
      · subst hc; rfl
      · simp [isPlainEscape, hc, classEscape?, anchorEscape?, controlOf?]
  · cases cs with
    | nil => rfl
    | cons c cs =>
      by_cases hc : c = '\x7b'
      · subst hc; rfl
      · simp [isPlainEscape, hc, classEscape?, anchorEscape?, controlOf?]

theorem isPlainEscape_other (opened : Nat) {d : Char} (hd : d.isDigit = false) (hk : d ≠ 'k')
    (hp : d ≠ 'p') (hP : d ≠ 'P') (hx : d ≠ 'x') (hc : d ≠ 'c') (cs : List Char) :
    isPlainEscape opened (d :: cs) =
      ((classEscape? d).isNone && (anchorEscape? d).isNone && (controlOf? d).isNone) := by
  simp [isPlainEscape, hd, hk, hp, hP, hx]

/-- Whether an escape is a plain character shows in it and in the character after it. -/
theorem isPlainEscape_text (opened opened' : Nat) {d : Char} {cs : List Char}
    (hd : isLeading d = false) (hk : d ≠ 'k') (hx : d = 'x' → cs ≠ []) :
    isPlainEscape opened' (d :: C.text cs) = isPlainEscape opened (d :: cs) := by
  by_cases hdig : d.isDigit = true
  · rw [eq_zero_of_not_leading hd hdig]
    rfl
  rw [Bool.not_eq_true] at hdig
  by_cases hp : d = 'p' ∨ d = 'P'
  · rw [isPlainEscape_property _ hp, isPlainEscape_property _ hp]
    cases cs with
    | nil =>
      cases ht : (C.text []).head? with
      | none => rfl
      | some c => rcases C.head?_text_nil c ht with rfl | rfl <;> rfl
    | cons c cs => rw [C.head?_text_cons]; rfl
  rw [not_or] at hp
  by_cases hx' : d = 'x'
  · subst hx'
    cases cs with
    | nil => exact absurd rfl (hx rfl)
    | cons c cs =>
      cases ht : C.text (c :: cs) with
      | nil =>
        have := C.head?_text_cons c cs
        rw [ht] at this
        cases this
      | cons e es => rfl
  by_cases hc : d = 'c'
  · subst hc; rfl
  rw [isPlainEscape_other _ hdig hk hp.1 hp.2 hx' hc,
    isPlainEscape_other _ hdig hk hp.1 hp.2 hx' hc]

/-- The text of an escape that begins no reference. -/
theorem text_escaped {d : Char} (hd : isLeading d = false) (cs : List Char) :
    C.text ('\\' :: d :: cs) = '\\' :: d :: C.text cs := by
  rw [Setting.text, renumbered_escaped _ hd]
  rfl

theorem kept_escaped {opened : Nat} {d : Char} {cs : List Char} (hd : isLeading d = false)
    (h : Clear opened ('\\' :: d :: cs)) : Kept opened ('\\' :: d :: cs) cs := by
  obtain ⟨hc, ho⟩ := clear_escaped hd h
  refine ⟨hc, ho.symm, ?_, isCut_escaped hd⟩
  simp only [List.length_cons]
  omega

theorem kept_bare {opened : Nat} {c : Char} {cs : List Char} (hc : isBare c = true)
    (h : Clear opened (c :: cs)) : Kept opened (c :: cs) cs := by
  obtain ⟨hcl, ho⟩ := clear_bare hc h
  exact ⟨hcl, ho.symm, by simp, isCut_bare hc⟩

theorem readEscape_other {d : Char} (hd : d ≠ 'c') (cs : List Char) :
    readEscape (d :: cs) = .ok ((controlOf? d).getD d, cs) := by
  simp [readEscape, hd]

theorem readEscape_control {e : Char} (h1 : e ≠ '?') (h2 : e ≠ '\\') (cs : List Char) :
    readEscape ('c' :: e :: cs) = (charOf (e.toNat &&& 0x9F)).map fun c => (c, cs) := by
  simp only [readEscape]
  cases charOf (e.toNat &&& 0x9F) <;> rfl

/-- **What an escape writes is written there as well.** Of a control escape the next piece is a
    plain character or an escape, since the text is clear. -/
theorem readEscape_text {opened : Nat} : ∀ (d : Char) (cs : List Char) {c : Char}
    {after : List Char}, Clear opened ('\\' :: d :: cs) → isLeading d = false →
    readEscape (d :: cs) = .ok (c, after) →
    readEscape (d :: C.text cs) = .ok (c, C.text after) ∧
      Kept opened ('\\' :: d :: cs) after := by
  intro d cs
  induction h : cs.length using Nat.strongRecOn generalizing d cs with
  | ind n ih =>
    intro c after hcl hd hr
    have hk := kept_escaped hd hcl
    by_cases hc : d = 'c'
    · subst hc
      obtain ⟨e, more, rfl, he⟩ := clear_control hcl
      rcases he with he | ⟨rfl, hmore⟩
      · have hkm := hk.trans (kept_bare he hk.clear)
        have ht : C.text (e :: more) = e :: C.text more := C.text_stretch (u := [e]) (by simpa) more
        have hne : e ≠ '\\' := by rintro rfl; cases he
        rw [ht]
        by_cases hq : e = '?'
        · subst hq
          cases hr
          exact ⟨rfl, hkm⟩
        · rw [readEscape_control hq hne] at hr ⊢
          cases hch : charOf (e.toNat &&& 0x9F) with
          | error f => rw [hch] at hr; cases hr
          | ok b =>
            rw [hch] at hr
            cases hr
            exact ⟨rfl, hkm⟩
      · cases more with
        | nil => cases hr
        | cons f more =>
          have hf := hmore f rfl
          rw [text_escaped C hf]
          simp only [readEscape] at hr ⊢
          cases hin : readEscape (f :: more) with
          | error x => rw [hin] at hr; cases hr
          | ok r =>
            obtain ⟨b, w⟩ := r
            obtain ⟨hi, hki⟩ := ih more.length (by simp only [List.length_cons] at h; omega) f more
              rfl hk.clear hf hin
            rw [hin] at hr
            rw [hi]
            simp only [bind, Except.bind] at hr ⊢
            cases hch : charOf (b.toNat &&& 0x9F) with
            | error x => rw [hch] at hr; cases hr
            | ok b' =>
              rw [hch] at hr
              cases hr
              exact ⟨rfl, hk.trans hki⟩
    · rw [readEscape_other hc] at hr ⊢
      cases hr
      exact ⟨rfl, hk⟩

end Characters

/-! ## 4. Properties -/

/-- Whether a character may stand in the name of a property. -/
def isNameChar (c : Char) : Bool :=
  c == ' ' || c == '-' || c == '_' || ('a' ≤ c.toLower && c.toLower ≤ 'z')

theorem isNameChar_of_lookup {name : List Char} {cls : CharClass}
    (h : CharClass.names.lookup (plainName name) = some cls) : ∀ c ∈ name, isNameChar c = true := by
  have hall : (CharClass.names.all fun e => e.1.all fun c => 'a' ≤ c && c ≤ 'z') = true := by decide
  have hmem : (plainName name, cls) ∈ CharClass.names := by
    obtain ⟨l1, l2, he, _⟩ := List.lookup_eq_some_iff.mp h
    rw [he]
    simp
  intro c hc
  by_cases hs : (c != ' ' && c != '-' && c != '_') = true
  · have hl : c.toLower ∈ plainName name :=
      List.mem_map.mpr ⟨c, List.mem_filter.mpr ⟨hc, hs⟩, rfl⟩
    have hletter := List.all_eq_true.mp (List.all_eq_true.mp hall _ hmem) _ hl
    simp only [isNameChar, hletter, Bool.or_true]
  · simp only [isNameChar]
    simp only [Bool.and_eq_true, bne_iff_ne, ne_eq, Classical.not_and_iff_not_or_not,
      Decidable.not_not] at hs
    rcases hs with (rfl | rfl) | rfl <;> rfl

/-- What no name of a property has in it. -/
theorem ne_of_isNameChar {c : Char} (h : isNameChar c = true) :
    isBare c = true ∧ c ≠ ']' ∧ c ≠ '\x7d' ∧ c ≠ '(' ∧ c ≠ ')' ∧ c ≠ '\x7b' ∧ c ≠ '|' := by
  refine ⟨?_, ?_, ?_, ?_, ?_, ?_, ?_⟩
  · simp only [isBare, Bool.and_eq_true, bne_iff_ne, ne_eq]
    refine ⟨⟨?_, ?_⟩, ?_⟩ <;> (rintro rfl; exact absurd h (by decide))
  all_goals rintro rfl; exact absurd h (by decide)

theorem propertySpan_name : ∀ (name after : List Char), (∀ c ∈ name, isNameChar c = true) →
    propertySpan (name ++ '\x7d' :: after) = (name, '\x7d' :: after)
  | [], _, _ => rfl
  | c :: name, after, h => by
      obtain ⟨_, _, h1, h2, h3, h4, h5⟩ := ne_of_isNameChar (h c (by simp))
      have hi := propertySpan_name name after fun d hd => h d (List.mem_cons_of_mem c hd)
      simp only [List.cons_append, propertySpan, hi, beq_iff_eq, h1, h2, h3, h4, h5,
        Bool.or_eq_true, or_self, if_false]

theorem append_propertySpan : ∀ cs : List Char,
    (propertySpan cs).1 ++ (propertySpan cs).2 = cs
  | [] => rfl
  | c :: cs => by
      simp only [propertySpan]
      split
      · rfl
      · simp only [List.cons_append, append_propertySpan cs]

/-- A property is named by letters up to the closing brace. -/
theorem readProperty_eq_ok {negated : Bool} {cs after : List Char} {s : CharSet}
    (h : readProperty negated cs = .ok (s, after)) :
    ∃ name, cs = name ++ after ∧
      (∀ c ∈ name, isBare c = true ∧ c ≠ ']' ∧ c ≠ ')' ∧ c ≠ '|') ∧
      ∀ w, readProperty negated (name ++ w) = .ok (s, w) := by
  unfold readProperty at h ⊢
  split at h
  rename_i negated' more hcut
  simp only at h
  split at h
  · rename_i w cls hspan hlook
    cases h
    have hname := isNameChar_of_lookup hlook
    have happ := append_propertySpan more
    rw [hspan] at happ
    generalize (propertySpan more).1 = name at hlook hname happ
    subst happ
    have hread : ∀ w, propertySpan (name ++ '\x7d' :: w) = (name, '\x7d' :: w) := fun w =>
      propertySpan_name name w hname
    have hbare : ∀ c ∈ name ++ ['\x7d'], isBare c = true ∧ c ≠ ']' ∧ c ≠ ')' ∧ c ≠ '|' := by
      intro c hc
      rcases List.mem_append.mp hc with hc | hc
      · obtain ⟨hbare, hbracket, -, -, hclose, -, hbar⟩ := ne_of_isNameChar (hname c hc)
        exact ⟨hbare, hbracket, hclose, hbar⟩
      · rw [List.mem_singleton.mp hc]
        decide
    split at hcut
    · cases hcut
      refine ⟨'^' :: (name ++ ['\x7d']), by simp, ?_, fun w => ?_⟩
      · intro c hc
        rcases List.mem_cons.mp hc with rfl | hc
        · decide
        · exact hbare c hc
      · simp only [List.cons_append, List.append_assoc, List.nil_append, hread, hlook]
    · rename_i hno
      cases hcut
      refine ⟨name ++ ['\x7d'], by simp, hbare, fun w => ?_⟩
      have hno' : ∀ w', name ++ '\x7d' :: w ≠ '^' :: w' := by
        intro w' he
        cases name with
        | nil => cases he
        | cons c name =>
          rw [List.cons_append, List.cons.injEq] at he
          exact hno (name ++ '\x7d' :: after) (by rw [he.1]; rfl)
      simp only [List.append_assoc, List.cons_append, List.nil_append, hread, hlook]
  · cases h
  · cases h

/-- A property is named there by the same letters. -/
theorem readProperty_text (C : Setting) {opened : Nat} {negated : Bool} {cs after : List Char}
    {s : CharSet} (hcl : Clear opened cs) (h : readProperty negated cs = .ok (s, after)) :
    readProperty negated (C.text cs) = .ok (s, C.text after) ∧ Kept opened cs after := by
  obtain ⟨name, rfl, hname, hread⟩ := readProperty_eq_ok h
  have hbare : ∀ c ∈ name, isBare c = true := fun c hc => (hname c hc).1
  rw [C.text_stretch hbare]
  exact ⟨hread _, kept_stretch hbare hcl⟩

/-! ## 5. Code points and bytes -/

theorem stops_no_hex {v : List Char} (hv : Stops v) :
    ∀ c, v.head? = some c → Unicode.isHexDigit c = false := by
  intro c hc
  rcases stops_cases hv hc with rfl | rfl | rfl | rfl | rfl | rfl <;> decide

theorem stops_no_octal {v : List Char} (hv : Stops v) :
    ∀ c, v.head? = some c → isOctalDigit c = false := by
  intro c hc
  rcases stops_cases hv hc with rfl | rfl | rfl | rfl | rfl | rfl <;> decide

section Numbers

variable (C : Setting) {base most n : Nat} {isDigit : Char → Bool}
  (hd : ∀ v, Stops v → ∀ c, v.head? = some c → isDigit c = false)

include hd

/-- Digits write the same number there. -/
theorem leadingNumber_text (cs : List Char) :
    leadingNumber base isDigit most n (C.text cs) =
      ((leadingNumber base isDigit most n cs).1,
        C.text (leadingNumber base isDigit most n cs).2) := by
  obtain ⟨u, v, rfl, hu, hv⟩ := exists_stretch cs
  obtain ⟨hs, hs'⟩ := C.stops_text hv
  have hw := @suffix_leadingNumber base isDigit most n u
  rw [C.text_stretch hu, leadingNumber_append (hd v hs), leadingNumber_append (hd _ hs')]
  simp only [C.text_stretch fun c hc => hu c (hw.subset hc)]

theorem kept_leadingNumber {opened : Nat} {cs : List Char} (h : Clear opened cs) :
    Kept opened cs (leadingNumber base isDigit most n cs).2 := by
  obtain ⟨u, v, rfl, hu, hv⟩ := exists_stretch cs
  obtain ⟨x, hx⟩ := @suffix_leadingNumber base isDigit most n u
  rw [leadingNumber_append (hd v fun c hc => .inl (hv c hc))]
  generalize (leadingNumber base isDigit most n u).2 = w at hx ⊢
  subst hx
  rw [List.append_assoc] at h ⊢
  exact kept_stretch (fun c hc => hu c (List.mem_append_left w hc)) h

end Numbers

theorem readBraced_append {v : List Char} (hv : Stops v) (u : List Char) :
    readBraced (u ++ v) = (readBraced u).map (Option.map fun r => (r.1, r.2 ++ v)) := by
  have hopen := stops_ne hv (c := '\x7b') (by decide)
  have hclose := stops_ne hv (c := '\x7d') (by decide)
  cases u with
  | nil =>
    rw [List.nil_append]
    unfold readBraced
    split
    · exact absurd rfl (hopen _)
    · rfl
  | cons c u =>
    by_cases hc : c = '\x7b'
    · subst hc
      simp only [List.cons_append, readBraced]
      rw [leadingNumber_append (stops_no_hex hv)]
      generalize leadingNumber 16 Unicode.isHexDigit 8 0 u = r
      obtain ⟨n, w⟩ := r
      cases w with
      | nil =>
        simp only [List.nil_append]
        rfl
      | cons d w =>
        by_cases hd : d = '\x7d'
        · subst hd
          have hl : ((u ++ v).length == (w ++ v).length + 1) = (u.length == w.length + 1) := by
            rw [Bool.eq_iff_iff]
            simp only [List.length_append, beq_iff_eq]
            omega
          simp only [List.cons_append, hl]
          split
          · rfl
          · cases charOf n <;> rfl
        · simp [hd]
          rfl
    · simp [readBraced, hc]
      rfl

theorem suffix_readBraced {cs after : List Char} {c : Char}
    (h : readBraced cs = .ok (some (c, after))) : after <:+ cs := by
  unfold readBraced at h
  split at h
  · rename_i inner
    have hw := @suffix_leadingNumber 16 Unicode.isHexDigit 8 0 inner
    generalize leadingNumber 16 Unicode.isHexDigit 8 0 inner = r at h hw
    obtain ⟨n, w⟩ := r
    simp only at h
    split at h
    · rename_i w
      split at h
      · cases h
      · cases hch : charOf n with
        | error e => rw [hch] at h; cases h
        | ok d =>
          rw [hch] at h
          cases h
          exact ((List.suffix_cons _ _).trans hw).trans (List.suffix_cons _ _)
    · cases h
  · cases h

/-- A code point in braces is written there by the same digits. -/
theorem readBraced_text (C : Setting) (cs : List Char) :
    readBraced (C.text cs) = (readBraced cs).map (Option.map fun r => (r.1, C.text r.2)) :=
  C.read_text (fun u _ hv => readBraced_append hv u) (fun _ _ _ h => suffix_readBraced h) cs

theorem kept_readBraced {opened : Nat} {cs after : List Char} {c : Char}
    (h : Clear opened cs) (hr : readBraced cs = .ok (some (c, after))) : Kept opened cs after :=
  kept_read (fun u _ hv => readBraced_append hv u) (fun _ _ _ h => suffix_readBraced h) h hr

theorem hexValue_bounds {c : Char} (h : Unicode.isHexDigit c = true) :
    hexValue c ≤ 15 ∧ (('8' ≤ c) ∨ hexValue c ≤ 7) := by
  have hlt : c.toNat < 103 := by
    simp only [Unicode.isHexDigit, Char.isDigit, Bool.or_eq_true, Bool.and_eq_true,
      decide_eq_true_eq] at h
    have h1 : ∀ d : Char, c ≤ d → c.toNat ≤ d.toNat := fun d hd => hd
    rcases h with (h | h) | h
    · have : c.toNat ≤ 57 := h.2
      omega
    · have := h1 'f' h.2
      have h2 : 'f'.toNat = 102 := rfl
      omega
    · have := h1 'F' h.2
      have h2 : 'F'.toNat = 70 := rfl
      omega
  have hall : ∀ n < 103, Unicode.isHexDigit (Char.ofNat n) = true →
      hexValue (Char.ofNat n) ≤ 15 ∧ (('8' ≤ Char.ofNat n) ∨ hexValue (Char.ofNat n) ≤ 7) := by
    decide
  have := hall c.toNat hlt
  rw [Char.ofNat_toNat] at this
  exact this h

/-- A byte beyond ASCII takes two digits, of which the first is at least eight. -/
theorem digits_of_byte {cs after : List Char} {b : Nat}
    (h : leadingNumber 16 Unicode.isHexDigit 2 0 cs = (b, after)) (hb : 0x80 ≤ b) :
    ∃ a c, cs = a :: c :: after ∧ Unicode.isHexDigit a = true ∧ Unicode.isHexDigit c = true ∧
      '8' ≤ a := by
  cases cs with
  | nil => cases h; omega
  | cons a cs =>
    by_cases ha : Unicode.isHexDigit a = true
    · obtain ⟨hle, h8⟩ := hexValue_bounds ha
      rw [leadingNumber, if_pos ha, Nat.zero_mul, Nat.zero_add] at h
      cases cs with
      | nil => cases h; omega
      | cons c cs =>
        by_cases hc : Unicode.isHexDigit c = true
        · obtain ⟨hle', _⟩ := hexValue_bounds hc
          rw [leadingNumber, if_pos hc] at h
          cases h
          refine ⟨a, c, rfl, ha, hc, h8.resolve_right fun h7 => ?_⟩
          omega
        · rw [leadingNumber, if_neg hc] at h
          cases h
          omega
    · rw [leadingNumber, if_neg ha] at h
      cases h
      omega

theorem isBare_hex {c : Char} (h : Unicode.isHexDigit c = true) : isBare c = true := by
  simp only [isBare, Bool.and_eq_true, bne_iff_ne, ne_eq]
  refine ⟨⟨?_, ?_⟩, ?_⟩ <;> (rintro rfl; exact absurd h (by decide))

/-- A text does not begin with a reference. -/
def NoReference (cs : List Char) : Prop := ∀ d w, cs = '\\' :: d :: w → isLeading d = false

theorem noReference_of_byte {opened : Nat} {cs after : List Char} {b : Nat}
    (hcl : Clear opened ('\\' :: 'x' :: cs))
    (h : leadingNumber 16 Unicode.isHexDigit 2 0 cs = (b, after)) (hb : 0x80 ≤ b) :
    NoReference after := by
  obtain ⟨a, c, rfl, ha, hc, h8⟩ := digits_of_byte h hb
  rintro d w rfl
  have hp := isClear_escaped (by decide) (by decide) hcl
  rw [pieces_cons, nextPiece_bare (isBare_hex ha), pieces_cons, nextPiece_bare (isBare_hex hc),
    pieces_cons] at hp
  by_cases hd : isLeading d = true
  · rw [nextPiece_reference hd] at hp
    simp only [Piece.isClear, ha, hc, h8, decide_true, Bool.and_self, Bool.not_true,
      Bool.false_eq_true] at hp
  · simpa using hd

/-- Zero and at most two more octal digits write a byte of ASCII. -/
theorem octal_lt (cs : List Char) : (leadingNumber 8 isOctalDigit 3 0 ('0' :: cs)).1 < 0x80 := by
  have hle : ∀ c, isOctalDigit c = true → hexValue c ≤ 7 := by
    intro c hc
    simp only [isOctalDigit, Bool.and_eq_true, decide_eq_true_eq] at hc
    have hdig : c.isDigit = true := by
      simp only [Char.isDigit, Bool.and_eq_true, decide_eq_true_eq]
      exact ⟨hc.1, Char.le_trans (b := '7') hc.2 (by decide)⟩
    have h1 : c.toNat ≤ '7'.toNat := hc.2
    have h2 : '7'.toNat = 55 := rfl
    rw [hexValue, if_pos hdig]
    omega
  have hz : isOctalDigit '0' = true := by decide
  have hv : hexValue '0' = 0 := by decide
  rw [leadingNumber, if_pos hz, hv]
  cases cs with
  | nil => decide
  | cons a cs =>
    rw [leadingNumber]
    split
    · rename_i ha
      have := hle a ha
      cases cs with
      | nil => simp only [leadingNumber]; omega
      | cons c cs =>
        rw [leadingNumber]
        split
        · rename_i hc
          have := hle c hc
          simp only [leadingNumber]
          omega
        · show _ < _
          simp only
          omega
    · exact (by decide : 0 * 8 + 0 < 128)

section Bytes

variable (C : Setting) {opened : Nat}

theorem readByte_hex {cs : List Char} (hne : cs ≠ []) (hb : readBraced cs = .ok none) :
    readByte ('\\' :: 'x' :: cs) =
      .ok (some ((leadingNumber 16 Unicode.isHexDigit 2 0 cs).1, .hex,
        (leadingNumber 16 Unicode.isHexDigit 2 0 cs).2)) := by
  cases cs with
  | nil => exact absurd rfl hne
  | cons c cs =>
    rw [readByte, hb]
    rfl

theorem readByte_octal (cs : List Char) :
    readByte ('\\' :: '0' :: cs) =
      .ok (some ((leadingNumber 8 isOctalDigit 3 0 ('0' :: cs)).1, .octal,
        (leadingNumber 8 isOctalDigit 3 0 ('0' :: cs)).2)) := by
  have hlt := octal_lt cs
  have hz : isOctalDigit '0' = true := by decide
  have hn : ¬ 0xFF < (leadingNumber 8 isOctalDigit 3 0 ('0' :: cs)).1 := by omega
  show (if isOctalDigit '0' = true then
      if 0xFF < (leadingNumber 8 isOctalDigit 3 0 ('0' :: cs)).1 then
        (.error .numberTooBig : Except Fault (Option (Nat × ByteForm × List Char)))
      else .ok (some ((leadingNumber 8 isOctalDigit 3 0 ('0' :: cs)).1, .octal,
        (leadingNumber 8 isOctalDigit 3 0 ('0' :: cs)).2))
    else .ok none) = _
  rw [if_pos hz, if_neg hn]

theorem text_ne_nil {cs : List Char} (h : cs ≠ []) : C.text cs ≠ [] := by
  cases cs with
  | nil => exact absurd rfl h
  | cons c cs =>
    intro ht
    have := C.head?_text_cons c cs
    rw [ht] at this
    cases this

theorem isLeading_octal {d : Char} (h : isOctalDigit d = true) (hd : isLeading d = false) :
    d = '0' := by
  refine eq_zero_of_not_leading hd ?_
  simp only [isOctalDigit, Bool.and_eq_true, decide_eq_true_eq] at h
  simp only [Char.isDigit, Bool.and_eq_true, decide_eq_true_eq]
  exact ⟨h.1, Char.le_trans (b := '7') h.2 (by decide)⟩

/-- A byte that is no part of a class, in a clear text. -/
theorem readByte_text {cs : List Char} {b : Nat} {f : ByteForm} {after : List Char}
    (hcl : Clear opened cs) (hno : NoReference cs)
    (h : readByte cs = .ok (some (b, f, after))) :
    readByte (C.text cs) = .ok (some (b, f, C.text after)) ∧ Kept opened cs after ∧
      (0x80 ≤ b → NoReference after) := by
  have horig := h
  unfold readByte at h
  split at h
  · rename_i c more
    have hk := kept_escaped (by decide) hcl
    cases hb : readBraced (c :: more) with
    | error e => rw [hb] at h; cases h
    | ok r =>
      cases r with
      | some r => rw [hb] at h; cases h
      | none =>
        rw [readByte_hex (by simp) hb] at horig
        simp only [Except.ok.injEq, Option.some.injEq, Prod.mk.injEq] at horig
        obtain ⟨h1, rfl, h2⟩ := horig
        rw [text_escaped C (by decide), readByte_hex (text_ne_nil C (by simp))
          (by rw [readBraced_text, hb]; rfl), leadingNumber_text C fun _ hv => stops_no_hex hv]
        refine ⟨by rw [h1, h2], ?_, fun hlarge => ?_⟩
        · rw [← h2]
          exact hk.trans (kept_leadingNumber (fun _ hv => stops_no_hex hv) hk.clear)
        · exact noReference_of_byte hcl (Prod.ext h1 h2) hlarge
  · rename_i c more _
    by_cases hoct : isOctalDigit c = true
    · have hc := isLeading_octal hoct (hno c more rfl)
      subst hc
      have hk := kept_escaped (by decide) hcl
      rw [readByte_octal] at horig
      simp only [Except.ok.injEq, Option.some.injEq, Prod.mk.injEq] at horig
      obtain ⟨h1, rfl, h2⟩ := horig
      have ht : '0' :: C.text more = C.text ('0' :: more) :=
        (C.text_stretch (u := ['0']) (fun _ hu => List.mem_singleton.mp hu ▸ by decide) more).symm
      rw [text_escaped C (by decide), readByte_octal, ht,
        leadingNumber_text C fun _ hv => stops_no_octal hv]
      refine ⟨by rw [h1, h2], ?_, fun hlarge => ?_⟩
      · have h2' : (leadingNumber 8 isOctalDigit 2 (0 * 8 + hexValue '0') more).2 = after := h2
        rw [← h2']
        exact hk.trans (kept_leadingNumber (fun _ hv => stops_no_octal hv) hk.clear)
      · have := octal_lt more
        omega
    · simp only [hoct] at h
      cases h
  · cases h

theorem furtherBytes_step {form : Option ByteForm} {n : Nat} {cs mid : List Char} {b : Nat}
    {f : ByteForm} (h : readByte cs = .ok (some (b, f, mid))) (hf : form.all (· == f) = true) :
    furtherBytes form (n + 1) cs = (furtherBytes form n mid).map fun r => (b :: r.1, r.2) := by
  rw [furtherBytes, h]
  simp only [bind, Except.bind, hf, if_true]
  cases furtherBytes form n mid <;> rfl

/-- Bytes that go on with a character are all written with the letter, in a clear text. -/
theorem furtherBytes_text : ∀ (n : Nat) {cs : List Char} {bs : List Nat} {after : List Char},
    Clear opened cs → (n ≠ 0 → NoReference cs) → furtherBytes none n cs = .ok (bs, after) →
    (∀ b ∈ bs, 0x80 ≤ b) →
    furtherBytes none n (C.text cs) = .ok (bs, C.text after) ∧ Kept opened cs after
  | 0, cs, bs, after, hcl, _, h, _ => by
      cases h
      exact ⟨rfl, hcl, rfl, Nat.le_refl _, id⟩
  | n + 1, cs, bs, after, hcl, hno, h, hall => by
      cases hb : readByte cs with
      | error e => rw [furtherBytes, hb] at h; cases h
      | ok r =>
        cases r with
        | none => rw [furtherBytes, hb] at h; cases h
        | some r =>
          obtain ⟨b, f, mid⟩ := r
          obtain ⟨ht, hk, hmid⟩ := readByte_text C hcl (hno (Nat.succ_ne_zero n)) hb
          rw [furtherBytes_step hb rfl] at h
          rw [furtherBytes_step ht rfl]
          cases hm : furtherBytes none n mid with
          | error e => rw [hm] at h; cases h
          | ok r =>
            obtain ⟨more, w⟩ := r
            rw [hm] at h
            cases h
            obtain ⟨ht', hk'⟩ := furtherBytes_text n hk.clear
              (fun _ => hmid (hall b (by simp))) hm fun c hc => hall c (List.mem_cons_of_mem b hc)
            rw [ht']
            exact ⟨rfl, hk.trans hk'⟩

theorem readBytes_text {b : Nat} {cs : List Char} {w : Written} {after : List Char}
    (hcl : Clear opened cs) (hno : 0x80 ≤ b → NoReference cs)
    (h : readBytes none b cs = .ok (w, after)) :
    readBytes none b (C.text cs) = .ok (w, C.text after) ∧ Kept opened cs after := by
  unfold readBytes at h ⊢
  cases hf : furtherBytes none (bytesAfter b) cs with
  | error e => rw [hf] at h; cases h
  | ok r =>
    obtain ⟨more, v⟩ := r
    rw [hf] at h
    simp only [bind, Except.bind] at h
    split at h
    · cases h
    · rename_i hany
      cases h
      have hall : ∀ c ∈ more, 0x80 ≤ c := by
        intro c hc
        by_cases hlt : c < 0x80
        · exact absurd (List.any_eq_true.mpr ⟨c, hc, by simp [hlt]⟩) hany
        · omega
      have hb : bytesAfter b ≠ 0 → NoReference cs := by
        intro hn
        refine hno (Nat.le_of_not_lt fun hlt => hn ?_)
        rw [bytesAfter, if_pos (by omega)]
      obtain ⟨ht, hk⟩ := furtherBytes_text C (bytesAfter b) hcl hb hf hall
      rw [ht]
      simp only [bind, Except.bind, hany]
      exact ⟨rfl, hk⟩

/-- What escaped bytes write, from the backslash of the first on. -/
def writtenAt (cs : List Char) : Except Fault (Written × List Char) := do
  match ← readByte cs with
  | some (b, _, after) =>
    if 0x80 ≤ b && b < 0xC0 then throw .notACharacter
    readBytes none b after
  | none => throw .notACharacter

/-- **Escaped bytes write the same there.** -/
theorem writtenAt_text {cs : List Char} {w : Written} {after : List Char} (hcl : Clear opened cs)
    (hno : NoReference cs) (h : writtenAt cs = .ok (w, after)) :
    writtenAt (C.text cs) = .ok (w, C.text after) ∧ Kept opened cs after := by
  unfold writtenAt at h ⊢
  cases hb : readByte cs with
  | error e => rw [hb] at h; cases h
  | ok r =>
    rw [hb] at h
    cases r with
    | none => cases h
    | some r =>
      obtain ⟨b, f, mid⟩ := r
      obtain ⟨ht, hk, hmid⟩ := readByte_text C hcl hno hb
      rw [ht]
      simp only [bind, Except.bind] at h ⊢
      split at h
      · cases h
      · rename_i hlt
        simp only [hlt]
        obtain ⟨ht', hk'⟩ := readBytes_text C hk.clear hmid h
        exact ⟨ht', hk.trans hk'⟩

end Bytes

end Highlight.Regex
