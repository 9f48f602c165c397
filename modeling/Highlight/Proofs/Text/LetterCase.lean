import Highlight.Keyword.Table
import Mathlib.Data.List.Forall2

/-!
# Texts that differ in letter case

Two texts can be the same but for the case of letters of ASCII.

* `eq_of_letters` -- what is asked of a character, and answered alike for every letter in either
  case;
* `SameLetters` -- texts that differ in the case of letters of ASCII only;
* `lowered_congr` -- they have the same lower case.
-/

namespace Highlight.Text

/-! ## 1. Characters -/

/-- A character is a capital letter of ASCII, or its own small one. -/
theorem capital_or_self (c : Char) :
    (∃ n < 26, c = Char.ofNat (n + 65) ∧ c.toLower = Char.ofNat (n + 97)) ∨ c.toLower = c := by
  by_cases hupper : c.val ≥ 'A'.val ∧ c.val ≤ 'Z'.val
  · have hbounds : 65 ≤ c.toNat ∧ c.toNat ≤ 90 := by
      simpa [UInt32.le_iff_toNat_le] using hupper
    have hc : c = Char.ofNat (c.toNat - 65 + 65) := by
      rw [Nat.sub_add_cancel hbounds.1, Char.ofNat_toNat]
    have hsmall : ∀ n < 26, (Char.ofNat (n + 65)).toLower = Char.ofNat (n + 97) := by
      decide +kernel
    refine .inl ⟨c.toNat - 65, by omega, hc, ?_⟩
    rw [← hsmall _ (by omega), ← hc]
  · exact .inr (dif_neg hupper)

section Letters

variable {γ : Type} {f : Char → γ}
  (hf : ∀ n < 26, f (Char.ofNat (n + 97)) = f (Char.ofNat (n + 65)))

include hf

theorem apply_toLower (c : Char) : f c.toLower = f c := by
  rcases capital_or_self c with ⟨n, hn, hc, hlower⟩ | hself
  · rw [hlower, hf n hn, ← hc]
  · rw [hself]

/-- **A function that answers alike for each of the letters of ASCII in either case** answers alike
    for characters that differ in that only. -/
theorem eq_of_letters {c c' : Char} (h : c'.toLower = c.toLower) : f c' = f c := by
  rw [← apply_toLower hf c', h, apply_toLower hf c]

end Letters

theorem toLower_toLower (c : Char) : c.toLower.toLower = c.toLower :=
  apply_toLower (by decide +kernel) c

/-- A character that is no letter of ASCII has no other case. -/
theorem eq_iff_of_not_isAlpha {c c' d : Char} (hd : d.isAlpha = false)
    (h : c'.toLower = c.toLower) : c' = d ↔ c = d := by
  have hself : ∀ c : Char, c.isAlpha = false → c.toLower = c := by
    intro c hc
    rcases capital_or_self c with ⟨n, hn, rfl, _⟩ | hself
    · have hletters : ∀ n < 26, (Char.ofNat (n + 65)).isAlpha = true := by decide +kernel
      cases (hletters n hn).symm.trans hc
    · exact hself
  have halpha : c'.isAlpha = c.isAlpha := eq_of_letters (by decide +kernel) h
  constructor
  · rintro rfl
    rw [← hself c (halpha ▸ hd), ← h, hself _ hd]
  · rintro rfl
    rw [← hself c' (halpha.trans hd), h, hself _ hd]

/-! ## 2. Texts -/

/-- **Two texts differ in the case of letters of ASCII only.** -/
def SameLetters (cs cs' : List Char) : Prop := cs'.map Char.toLower = cs.map Char.toLower

instance (cs cs' : List Char) : Decidable (SameLetters cs cs') :=
  inferInstanceAs (Decidable (cs'.map Char.toLower = cs.map Char.toLower))

variable {cs cs' ds ds' : List Char}

theorem SameLetters.forall₂ (h : SameLetters cs cs') :
    List.Forall₂ (fun c c' => c'.toLower = c.toLower) cs cs' := by
  have heq : List.Forall₂ Eq (cs'.map Char.toLower) (cs.map Char.toLower) :=
    List.forall₂_eq_eq_eq ▸ h
  rw [List.forall₂_map_left_iff, List.forall₂_map_right_iff] at heq
  exact heq.flip

theorem SameLetters.of_cons {c c' : Char} (h : SameLetters (c :: cs) (c' :: cs')) :
    c'.toLower = c.toLower ∧ SameLetters cs cs' := by
  simpa [SameLetters] using h

theorem utf8Size_congr {c c' : Char} (h : c'.toLower = c.toLower) : c'.utf8Size = c.utf8Size :=
  eq_of_letters (by decide +kernel) h

theorem SameLetters.byteLength_eq (h : SameLetters cs cs') : byteLength cs' = byteLength cs := by
  have hpairs := h.forall₂
  induction hpairs with
  | nil => rfl
  | cons hc _ ih =>
    unfold byteLength
    rw [utf8Size_congr hc, ih h.of_cons.2]

/-! ## 3. Lower case -/

theorem isCaseIgnorable_congr {c c' : Char} (h : c'.toLower = c.toLower) :
    Unicode.isCaseIgnorable c' = Unicode.isCaseIgnorable c :=
  eq_of_letters (by decide +kernel) h

theorem isCased_congr {c c' : Char} (h : c'.toLower = c.toLower) :
    Unicode.isCased c' = Unicode.isCased c :=
  eq_of_letters (by decide +kernel) h

theorem lowerOf_congr {c c' : Char} (h : c'.toLower = c.toLower) :
    Unicode.lowerOf c' = Unicode.lowerOf c :=
  eq_of_letters (by decide +kernel) h

theorem meetsCased_congr (h : SameLetters cs cs') : meetsCased cs' = meetsCased cs := by
  have hpairs := h.forall₂
  induction hpairs with
  | nil => rfl
  | cons hc _ ih =>
    unfold meetsCased
    rw [isCaseIgnorable_congr hc, isCased_congr hc, ih h.of_cons.2]

/-- What stands around a capital sigma decides alike what becomes of it. -/
theorem lowerFrom_congr (h : SameLetters cs cs') (before before' : List Char)
    (hbefore : SameLetters before before') : lowerFrom before' cs' = lowerFrom before cs := by
  have hpairs := h.forall₂
  induction hpairs generalizing before before' with
  | nil => rfl
  | @cons c c' cs cs' hc _ ih =>
    obtain ⟨_, hcs⟩ := h.of_cons
    have hsigma : (c' == 'Σ') = (c == 'Σ') := by
      rw [Bool.eq_iff_iff, beq_iff_eq, beq_iff_eq]
      exact eq_iff_of_not_isAlpha (by decide) hc
    have hnext : SameLetters (c :: before) (c' :: before') := by
      unfold SameLetters at hbefore ⊢
      rw [List.map_cons, List.map_cons, hc, hbefore]
    unfold lowerFrom lowerSigma
    rw [hsigma, meetsCased_congr hbefore, meetsCased_congr hcs, lowerOf_congr hc,
      ih hcs _ _ hnext]

/-- **Texts that differ in the case of letters of ASCII only have the same lower case.** -/
theorem lowered_congr {s s' : String} (h : SameLetters s.toList s'.toList) :
    lowered s' = lowered s := by
  unfold lowered
  rw [lowerFrom_congr h [] [] rfl]

end Highlight.Text
