import Highlight.Pattern.Renumber

/-!
# Numbers and their digits

* `digitsFrom?_digits` -- the number that digits write;
* `toDigits_ofDigits` -- digits that do not begin with zero are those of their number;
* `head_toDigits` -- a number from one on does not begin with zero;
* `groupNumber_digits` -- the number of a reference.
-/

namespace Highlight.Text

/-- Digits write a number. -/
theorem digitsFrom?_digits : ∀ (ds : List Char) (n : Nat), (∀ c ∈ ds, c.isDigit = true) →
    digitsFrom? n ds = some (Nat.ofDigitChars 10 ds n)
  | [], n, _ => by simp [digitsFrom?]
  | c :: ds, n, h => by
      rw [digitsFrom?, if_pos (h c (by simp)), Nat.ofDigitChars_cons,
        digitsFrom?_digits ds _ fun d hd => h d (List.mem_cons_of_mem c hd), Nat.mul_comm]
      rfl

theorem digitChar_digit {c : Char} (h : c.isDigit = true) :
    c.toNat - 48 < 10 ∧ Nat.digitChar (c.toNat - 48) = c := by
  have hc : 48 ≤ c.toNat ∧ c.toNat ≤ 57 := by
    simp only [Char.isDigit, Bool.and_eq_true, decide_eq_true_eq] at h
    exact h
  have hlt : c.toNat - 48 < 10 := by omega
  refine ⟨hlt, Char.toNat_inj.mp ?_⟩
  rw [Nat.toNat_digitChar_of_lt_ten hlt]
  omega

/-- A number from one on does not begin with zero. -/
theorem head_toDigits (n : Nat) (h : 1 ≤ n) : (Nat.toDigits 10 n).head? ≠ some '0' := by
  induction n using Nat.strongRecOn with
  | ind n ih =>
    rw [Nat.toDigits_eq_if (by decide)]
    split
    · simp only [List.head?_cons, ne_eq, Option.some.injEq, Nat.digitChar_eq_zero]
      omega
    · have hn := ih (n / 10) (by omega) (by omega)
      have hne := Nat.toDigits_ne_nil (n := n / 10) (b := 10)
      cases hds : Nat.toDigits 10 (n / 10) with
      | nil => exact absurd hds hne
      | cons c cs => rw [hds] at hn; exact hn

/-- Digits that do not begin with zero write a number from one on. -/
theorem ofDigits_pos {c : Char} {ds : List Char} (hc : c.isDigit = true) (hz : c ≠ '0') :
    1 ≤ Nat.ofDigitChars 10 (c :: ds) 0 := by
  obtain ⟨hlt, he⟩ := digitChar_digit hc
  rw [Nat.ofDigitChars_cons, Nat.ofDigitChars_eq_ofDigitChars_zero]
  have hpos : 1 ≤ c.toNat - 48 := by
    refine Nat.one_le_iff_ne_zero.mpr fun h0 => hz ?_
    rw [← he, h0]
    rfl
  have hp : 0 < 10 ^ ds.length * (10 * 0 + (c.toNat - '0'.toNat)) := Nat.mul_pos
    (Nat.pow_pos (by decide)) (by rw [Nat.mul_zero, Nat.zero_add]; exact hpos)
  omega

/-- Digits that do not begin with zero are those of the number that they write. -/
theorem toDigits_ofDigits (ds : List Char) (hne : ds ≠ []) (hd : ∀ c ∈ ds, c.isDigit = true)
    (hz : ds.head? ≠ some '0') : Nat.toDigits 10 (Nat.ofDigitChars 10 ds 0) = ds := by
  induction h : ds.length using Nat.strongRecOn generalizing ds with
  | ind n ih =>
    obtain ⟨es, d, rfl⟩ := (List.eq_nil_or_concat ds).resolve_left hne
    rw [List.concat_eq_append] at hne hd hz h ⊢
    obtain ⟨hlt, he⟩ := digitChar_digit (hd d (by simp))
    have h48 : d.toNat - '0'.toNat = d.toNat - 48 := rfl
    rw [Nat.ofDigitChars_append, Nat.ofDigitChars_cons, Nat.ofDigitChars_nil, h48]
    cases es with
    | nil =>
      rw [Nat.ofDigitChars_nil, Nat.mul_zero, Nat.zero_add]
      rw [Nat.toDigits_of_lt_base hlt]
      exact congrArg (fun c => [c]) he
    | cons c es =>
      have hc : c.isDigit = true := hd c (by simp)
      have hz' : c ≠ '0' := by simpa using hz
      have hi := ih (c :: es).length (by simp [← h]) (c :: es) (by simp)
        (fun e h' => hd e (List.mem_append_left _ h')) (by simpa using hz') rfl
      rw [← Nat.toDigits_append_toDigits (by decide) (ofDigits_pos hc hz') hlt, hi,
        Nat.toDigits_of_lt_base hlt]
      exact congrArg (fun c' => c :: es ++ [c']) he

end Highlight.Text

namespace Highlight.Pattern

/-- The number of a reference that is from one on is the one that its digits write. -/
theorem groupNumber_digits {ds : List Char} (hd : ∀ c ∈ ds, c.isDigit = true)
    (h : 1 ≤ groupNumber ds) : groupNumber ds = Nat.ofDigitChars 10 ds 0 := by
  unfold groupNumber at h ⊢
  rw [Text.digitsFrom?_digits ds 0 hd] at h ⊢
  simp only [Option.getD_some] at h ⊢
  split at h
  · rename_i hle
    rw [if_pos hle]
  · cases h

end Highlight.Pattern
