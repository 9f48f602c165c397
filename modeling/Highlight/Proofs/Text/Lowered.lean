import Highlight.Proofs.Text.LetterCase

/-!
# What is in lower case stays as it is

* `IsFixed` -- a code point that the lower-case mapping leaves alone;
* `CaseRun.clears`, `covers_apply` -- what one run of the mapping gives, no run takes further;
* `CaseRun.Settles`, `lowerRuns_settle` -- all that is read off the table of runs;
* `isFixed_of_mem_lowerOf` -- what a character becomes in lower case is fixed;
* `lowered_lowered` -- the lower case of a text is in lower case.
-/

namespace Highlight.Unicode

/-! ## 1. Runs -/

/-- Whether a run gives nothing that another run covers, as the bounds show, or else the parity of
    what the other one covers. -/
def CaseRun.clears (r q : CaseRun) : Bool :=
  (r.apply r.last).blt q.first || q.last.blt (r.apply r.first) ||
    ((r.step == 2 || r.first == r.last) && q.step == 2 && (r.apply r.first + q.first) % 2 == 1)

/-- Whether a run gives characters only, and no dotted capital I. -/
def CaseRun.isSound (r : CaseRun) : Bool :=
  decide (0 ≤ r.first + r.shift) && (r.apply r.last).blt 0x110000 &&
    r.clears ⟨0x130, 0x130, 1, 0⟩ && r.clears ⟨0xD800, 0xDFFF, 1, 0⟩

/-- What a run gives stands between what it gives for its bounds, and as far from them. -/
theorem CaseRun.apply_bounds {r : CaseRun} {n : Nat} (hsound : 0 ≤ r.first + r.shift)
    (hr : r.covers n = true) : r.apply r.first + (n - r.first) = r.apply n ∧
      r.apply n ≤ r.apply r.last ∧ r.first ≤ n ∧ n ≤ r.last ∧ (n - r.first) % r.step = 0 := by
  simp only [covers, Bool.and_eq_true, decide_eq_true_eq, beq_iff_eq] at hr
  obtain ⟨⟨hfirst, hlast⟩, hstep⟩ := hr
  simp only [apply, Int.ofNat_eq_natCast]
  exact ⟨by omega, by omega, hfirst, hlast, hstep⟩

theorem CaseRun.covers_apply {r q : CaseRun} {n : Nat} (hsound : 0 ≤ r.first + r.shift)
    (hclears : r.clears q = true) (hr : r.covers n = true) : q.covers (r.apply n) = false := by
  obtain ⟨happly, hle, hfirst, hlast, hstep⟩ := apply_bounds hsound hr
  rw [Bool.eq_false_iff]
  intro hq
  simp only [covers, Bool.and_eq_true, decide_eq_true_eq, beq_iff_eq] at hq
  obtain ⟨⟨hqfirst, hqlast⟩, hqstep⟩ := hq
  simp only [clears, Bool.or_eq_true, Bool.and_eq_true, beq_iff_eq, Nat.blt_eq] at hclears
  rcases hclears with (habove | hbelow) | ⟨⟨hr2, hq2⟩, hparity⟩
  · omega
  · omega
  · rw [hq2] at hqstep
    -- A run of one code point has no parity of its own: what it gives is all there is.
    rcases hr2 with hr2 | hsingle
    · rw [hr2] at hstep
      omega
    · omega

/-! ## 2. What the table says -/

/-- **A run of the table as the proofs need it.** What it gives are characters, no bar among them,
    and no run takes them further; of ASCII it is about the capital letters only, and it leaves alone
    the dot above and both forms of the small sigma. -/
structure CaseRun.Settles (r : CaseRun) : Prop where
  sound : r.isSound = true
  clear : ∀ q ∈ Table.lowerRuns, r.clears q = true
  noBar : r.clears ⟨0x7C, 0x7C, 1, 0⟩ = true
  ascii : (r.first = 65 ∧ r.last = 90) ∨ 0x80 ≤ r.first
  leaves : ∀ n ∈ [0x307, 'σ'.toNat, 'ς'.toNat], r.covers n = false

/-- What a run gives for its first code point is not below zero. -/
theorem CaseRun.Settles.nonneg {r : CaseRun} (h : r.Settles) : 0 ≤ r.first + r.shift := by
  have hsound := h.sound
  simp only [isSound, Bool.and_eq_true, decide_eq_true_eq] at hsound
  exact hsound.1.1.1

theorem lowerRuns_settle : ∀ r ∈ Table.lowerRuns, r.Settles := by
  -- The table is gone through once, for all that is to be known of it.
  have hall : Table.lowerRuns.all (fun r => r.isSound && Table.lowerRuns.all r.clears &&
      r.clears ⟨0x7C, 0x7C, 1, 0⟩ && (r.first == 65 && r.last == 90 || Nat.ble 0x80 r.first) &&
      [0x307, 'σ'.toNat, 'ς'.toNat].all (!r.covers ·)) = true := by
    decide +kernel
  intro r hr
  have hrun := List.all_eq_true.mp hall r hr
  simp only [Bool.and_eq_true, Bool.or_eq_true, beq_iff_eq, Nat.ble_eq, List.all_eq_true,
    Bool.not_eq_true'] at hrun
  obtain ⟨⟨⟨⟨hsound, hclear⟩, hbar⟩, hascii⟩, hleaves⟩ := hrun
  exact ⟨hsound, hclear, hbar, hascii, hleaves⟩

/-! ## 3. Code points -/

/-- **A code point that the lower-case mapping leaves alone.** -/
def IsFixed (n : Nat) : Prop := n ≠ 0x130 ∧ ∀ r ∈ Table.lowerRuns, r.covers n = false

/-- A mapping leaves a code point alone, or one of its runs maps it. -/
theorem mapThrough_cases (rs : List CaseRun) (n : Nat) :
    (mapThrough rs n = n ∧ ∀ r ∈ rs, r.covers n = false) ∨
      ∃ r ∈ rs, r.covers n = true ∧ mapThrough rs n = r.apply n := by
  induction rs with
  | nil => exact .inl ⟨rfl, fun r hr => by cases hr⟩
  | cons r rs ih =>
    unfold mapThrough
    cases hr : r.covers n with
    | true => exact .inr ⟨r, List.mem_cons_self, hr, rfl⟩
    | false =>
      rcases ih with ⟨hsame, hnone⟩ | ⟨q, hq, hcovers, happly⟩
      · exact .inl ⟨hsame, List.forall_mem_cons.mpr ⟨hr, hnone⟩⟩
      · exact .inr ⟨q, List.mem_cons_of_mem r hq, hcovers, happly⟩

/-- **What the lower-case mapping gives, it leaves alone**, and it is a character. -/
theorem isFixed_mapThrough {n : Nat} (hn : n ≠ 0x130) (hvalid : n.isValidChar) :
    IsFixed (mapThrough Table.lowerRuns n) ∧ (mapThrough Table.lowerRuns n).isValidChar := by
  rcases mapThrough_cases Table.lowerRuns n with ⟨hsame, hnone⟩ | ⟨r, hr, hcovers, happly⟩
  · rw [hsame]
    exact ⟨⟨hn, hnone⟩, hvalid⟩
  · have hsound := (lowerRuns_settle r hr).sound
    simp only [CaseRun.isSound, Bool.and_eq_true, decide_eq_true_eq, Nat.blt_eq] at hsound
    obtain ⟨⟨⟨hzero, hlast⟩, hdotted⟩, hsurrogate⟩ := hsound
    have hbound := (CaseRun.apply_bounds hzero hcovers).2.1
    have hdotted := CaseRun.covers_apply hzero hdotted hcovers
    have hsurrogate := CaseRun.covers_apply hzero hsurrogate hcovers
    rw [happly]
    refine ⟨⟨fun heq => ?_, fun q hq => ?_⟩, ?_⟩
    · rw [heq] at hdotted
      cases hdotted
    · exact CaseRun.covers_apply hzero ((lowerRuns_settle r hr).clear q hq) hcovers
    · simp only [CaseRun.covers, Nat.mod_one, beq_self_eq_true, Bool.and_true,
        Bool.and_eq_false_iff, decide_eq_false_iff_not] at hsurrogate
      unfold Nat.isValidChar
      omega

/-- Of ASCII, the capital letters are mapped. -/
theorem isFixed_of_ascii {n : Nat} (hn : n < 0x80) (hcapital : ¬(65 ≤ n ∧ n ≤ 90)) :
    IsFixed n := by
  refine ⟨by omega, fun r hr => Bool.eq_false_iff.mpr fun hcovers => ?_⟩
  simp only [CaseRun.covers, Bool.and_eq_true, decide_eq_true_eq] at hcovers
  obtain ⟨⟨hfirst, hlast⟩, _⟩ := hcovers
  rcases (lowerRuns_settle r hr).ascii with ⟨h65, h90⟩ | hbeyond
  · exact hcapital ⟨h65 ▸ hfirst, h90 ▸ hlast⟩
  · omega

/-! ## 4. Characters -/

theorem toNat_ofNat {n : Nat} (hvalid : n.isValidChar) : (Char.ofNat n).toNat = n := by
  rw [Char.ofNat, dif_pos hvalid]
  rfl

theorem not_capital_of_isFixed {n : Nat} (h : IsFixed n) : ¬(65 ≤ n ∧ n ≤ 90) := by
  rintro ⟨hfirst, hlast⟩
  have hcovers := h.2 ⟨0x0041, 0x005A, 1, 32⟩ List.mem_cons_self
  simp [CaseRun.covers, hfirst, hlast, Nat.mod_one] at hcovers

/-- **What a character becomes in lower case is left alone.** -/
theorem isFixed_of_mem_lowerOf {c d : Char} (hd : d ∈ lowerOf c) : IsFixed d.toNat := by
  unfold lowerOf at hd
  split at hd
  · rename_i hascii
    rw [List.mem_singleton.mp hd]
    rcases Text.capital_or_self c with ⟨n, hn, _, hlower⟩ | hself
    · have hsmall : ∀ n < 26, (Char.ofNat (n + 97)).toNat = n + 97 := by decide
      rw [hlower, hsmall n hn]
      exact isFixed_of_ascii (by omega) (by omega)
    · rw [hself]
      refine isFixed_of_ascii hascii fun hcapital => ?_
      have hmoved : ∀ n < 26, (Char.ofNat (n + 65)).toLower ≠ Char.ofNat (n + 65) := by decide
      refine hmoved (c.toNat - 65) (by omega) ?_
      rw [Nat.sub_add_cancel hcapital.1, Char.ofNat_toNat]
      exact hself
  · split at hd
    · have hpair : ∀ d ∈ ['i', Char.ofNat 0x307], d.toNat = 105 ∨ d.toNat = 0x307 :=
        List.forall_mem_cons.mpr ⟨.inl rfl, List.forall_mem_singleton.mpr (.inr rfl)⟩
      rcases hpair d hd with h | h
      · rw [h]
        exact isFixed_of_ascii (by decide) (by decide)
      · rw [h]
        exact ⟨by decide, fun r hr => (lowerRuns_settle r hr).leaves 0x307 (by simp)⟩
    · rename_i hdotted
      rw [List.mem_singleton.mp hd]
      obtain ⟨hfixed, hvalid⟩ := isFixed_mapThrough (n := c.toNat) (by simpa using hdotted) c.valid
      rw [toNat_ofNat hvalid]
      exact hfixed

theorem lowerOf_of_isFixed {c : Char} (h : IsFixed c.toNat) : lowerOf c = [c] := by
  unfold lowerOf
  split
  · rcases Text.capital_or_self c with ⟨n, hn, hc, _⟩ | hself
    · have hcapital : ∀ n < 26, (Char.ofNat (n + 65)).toNat = n + 65 := by decide
      refine absurd ?_ (not_capital_of_isFixed h)
      rw [hc, hcapital n hn]
      omega
    · rw [hself]
  · have hsame : mapThrough Table.lowerRuns c.toNat = c.toNat := by
      rcases mapThrough_cases Table.lowerRuns c.toNat with ⟨hsame, _⟩ | ⟨r, hr, hcovers, _⟩
      · exact hsame
      · cases hcovers.symm.trans (h.2 r hr)
    rw [hsame, Char.ofNat_toNat, if_neg (by simpa using h.1)]

end Highlight.Unicode

namespace Highlight.Text

open Highlight.Unicode (IsFixed)

/-! ## 5. Texts -/

/-- Neither form of the small sigma is mapped. -/
theorem isFixed_lowerSigma (before after : List Char) :
    IsFixed (lowerSigma before after).toNat := by
  unfold lowerSigma
  split
  · exact ⟨by decide, fun r hr => (Unicode.lowerRuns_settle r hr).leaves _ (by simp)⟩
  · exact ⟨by decide, fun r hr => (Unicode.lowerRuns_settle r hr).leaves _ (by simp)⟩

theorem isFixed_of_mem_lowerFrom : ∀ {before cs : List Char} {d : Char},
    d ∈ lowerFrom before cs → IsFixed d.toNat
  | _, [], _, hd => by cases hd
  | before, c :: cs, d, hd => by
      unfold lowerFrom at hd
      rcases List.mem_append.mp hd with hd | hd
      · split at hd
        · rw [List.mem_singleton.mp hd]
          exact isFixed_lowerSigma before cs
        · exact Unicode.isFixed_of_mem_lowerOf hd
      · exact isFixed_of_mem_lowerFrom hd

theorem lowerFrom_of_isFixed : ∀ (before : List Char) {cs : List Char},
    (∀ c ∈ cs, IsFixed c.toNat) → lowerFrom before cs = cs
  | _, [], _ => rfl
  | before, c :: cs, h => by
      obtain ⟨hc, hcs⟩ := List.forall_mem_cons.mp h
      have hsigma : (c == 'Σ') = false := beq_eq_false_iff_ne.mpr fun heq => by
        have hmapped : Unicode.lowerOf 'Σ' ≠ ['Σ'] := by decide
        exact hmapped (heq ▸ Unicode.lowerOf_of_isFixed hc)
      rw [lowerFrom, hsigma, if_neg Bool.false_ne_true, Unicode.lowerOf_of_isFixed hc,
        lowerFrom_of_isFixed (c :: before) hcs]
      rfl

/-- **The lower case of a text is in lower case.** -/
theorem lowered_lowered (s : String) : lowered (lowered s) = lowered s := by
  have hfixed : ∀ c ∈ lowerFrom [] s.toList, IsFixed c.toNat :=
    fun c hc => isFixed_of_mem_lowerFrom hc
  unfold lowered
  rw [String.toList_ofList, lowerFrom_of_isFixed [] hfixed]

end Highlight.Text
