import Highlight.Proofs.Text.LetterCase
import Highlight.Regex.Search

/-!
# Patterns that do not see letter case

* `Regex.IsBlind` -- a pattern that finds the same in texts that differ in letter case only;
* `Node.isCaseless` -- a tree in which nothing tells the cases of a letter apart;
* `run_caseless`, `isBlind_of_isCaseless` -- such a tree, and a pattern that comes to such a one, does
  not see letter case.
-/

namespace Highlight.Regex

open Highlight.Text (SameLetters eq_of_letters eq_iff_of_not_isAlpha)

/-! ## 1. What a pattern sees -/

/-- **A pattern that does not see the case of letters of ASCII**: in texts that differ in that only
    it matches at the same places, and its groups read the same stretches. -/
structure IsBlind (re : Regex) : Prop where
  search : ∀ {t t' : Text}, SameLetters t.toList t'.toList → ∀ i, re.search t' i = re.search t i
  matchAt : ∀ {t t' : Text}, SameLetters t.toList t'.toList → ∀ i, re.matchAt t' i = re.matchAt t i

/-- Whether a test answers alike for every letter of ASCII in either case. -/
def CharTest.isCaseless (t : CharTest) : Bool :=
  (List.range 26).all fun n => t.accepts (Char.ofNat (n + 97)) == t.accepts (Char.ofNat (n + 65))

/-- Whether nothing in a tree tells the cases of a letter of ASCII apart. -/
def Node.isCaseless : Node → Bool
  | .text cs => cs.all fun c => !c.isAlpha
  | .set t => t.isCaseless
  | .anchor _ | .never => true
  | .seq a b | .alt a b => a.isCaseless && b.isCaseless
  | .group _ _ a | .atomic a | .loop _ _ _ _ _ a | .ahead _ a | .behind _ _ a => a.isCaseless
  | .again _ folded => folded

theorem accepts_congr {t : CharTest} (ht : t.isCaseless = true) {c c' : Char}
    (h : c'.toLower = c.toLower) : t.accepts c' = t.accepts c := by
  refine eq_of_letters (f := t.accepts) (fun n hn => ?_) h
  simpa using List.all_eq_true.mp ht n (List.mem_range.mpr hn)

/-! ## 2. What stands at an index -/

section Texts

variable {t t' : Text} (h : SameLetters t.toList t'.toList)

include h

theorem sameLetters_size : t'.size = t.size := by
  simpa using congrArg List.length h

theorem sameLetters_getElem? (i : Nat) :
    (t'[i]?).map Char.toLower = (t[i]?).map Char.toLower := by
  simpa using congrArg (·[i]?) h

/-- What is asked of a character and answered alike for letters in either case is answered alike at
    every index. -/
theorem map_getElem?_congr {γ : Type} {f : Char → γ}
    (hf : ∀ {c c' : Char}, c'.toLower = c.toLower → f c' = f c) (i : Nat) :
    (t'[i]?).map f = (t[i]?).map f := by
  have hsame := sameLetters_getElem? h i
  generalize t[i]? = c at hsame ⊢
  generalize t'[i]? = c' at hsame ⊢
  cases c with
  | none => cases c' with
    | none => rfl
    | some c' => cases hsame
  | some c => cases c' with
    | none => cases hsame
    | some c' => rw [Option.map_some, Option.map_some, hf (Option.some.inj hsame)]

theorem getElem?_beq_congr {d : Char} (hd : d.isAlpha = false) (i : Nat) :
    (t'[i]? == some d) = (t[i]? == some d) := by
  have hmap := map_getElem?_congr h (f := (· == d)) (fun {c c'} hc => by
    rw [Bool.eq_iff_iff, beq_iff_eq, beq_iff_eq]
    exact eq_iff_of_not_isAlpha hd hc) i
  have hbeq : ∀ c : Option Char, (c == some d) = (c.map (· == d)).getD false := by
    intro c
    cases c <;> rfl
  rw [hbeq, hbeq, hmap]

theorem wordAt_congr (i : Nat) : wordAt t' i = wordAt t i := by
  have hmap := map_getElem?_congr h (f := Unicode.isWord)
    (fun hc => eq_of_letters (by decide +kernel) hc) i
  have hany : ∀ c : Option Char, c.any Unicode.isWord = (c.map Unicode.isWord).getD false := by
    intro c
    cases c <;> rfl
  unfold wordAt
  rw [hany, hany, hmap]

/-- **No anchor sees letter case.** -/
theorem holds_congr (origin i : Nat) (a : Anchor) : a.holds t' origin i = a.holds t origin i := by
  have hbreak := getElem?_beq_congr h (d := '\n') (by decide)
  cases a <;>
    simp only [Anchor.holds, wordBefore, wordAt_congr h, hbreak, sameLetters_size h]

theorem standsAt_congr : ∀ {cs : List Char}, (cs.all fun c => !c.isAlpha) = true → ∀ i,
    standsAt t' cs i = standsAt t cs i
  | [], _, _ => rfl
  | c :: cs, hcs, i => by
      obtain ⟨hc, hcs⟩ := Bool.and_eq_true_iff.mp (List.all_cons ▸ hcs)
      unfold standsAt
      rw [getElem?_beq_congr h (by simpa using hc), standsAt_congr hcs]

/-! ## 3. Reading again -/

theorem sameLetters_extract (i j : Nat) :
    SameLetters (t.extract i j).toList (t'.extract i j).toList := by
  unfold SameLetters at h ⊢
  rw [Array.toList_extract, Array.toList_extract, List.extract_eq_take_drop,
    List.extract_eq_take_drop, List.map_take, List.map_drop, h, List.map_take, List.map_drop]

theorem hasBytes_congr (i bytes : Nat) : hasBytes t' i bytes = hasBytes t i bytes := by
  unfold hasBytes
  rw [(sameLetters_extract h _ _).byteLength_eq]

theorem foldedFrom_congr {cs cs' : List Char} (hcs : SameLetters cs cs') (room j : Nat) :
    foldedFrom t' cs' room j = foldedFrom t cs room j := by
  have hpairs := hcs.forall₂
  induction hpairs generalizing room j with
  | nil => rfl
  | @cons c c' cs cs' hc _ ih =>
    have hfold : ∀ {c c' : Char}, c'.toLower = c.toLower → Unicode.fold c' = Unicode.fold c :=
      fun hc => eq_of_letters (by decide +kernel) hc
    have hsmall : ∀ {c c' : Char}, c'.toLower = c.toLower →
        decide (c'.toNat < 0x80) = decide (c.toNat < 0x80) :=
      fun hc => eq_of_letters (f := fun c => decide (c.toNat < 0x80)) (by decide +kernel) hc
    have hsame := sameLetters_getElem? h j
    unfold foldedFrom
    generalize t[j]? = d at hsame ⊢
    generalize t'[j]? = d' at hsame ⊢
    cases d with
    | none => cases d' with
      | none => rfl
      | some d' => cases hsame
    | some d => cases d' with
      | none => cases hsame
      | some d' =>
        have hd := Option.some.inj hsame
        simp only [hfold hc, hfold hd, hsmall hd, Text.utf8Size_congr hd, ih hcs.of_cons.2]

/-- **What reads again without looking at case** does not see it. -/
theorem readAgain_congr (captures : Captures) (j : Nat) : ∀ groups : List Nat,
    readAgain t' true captures j groups = readAgain t true captures j groups
  | [] => rfl
  | g :: gs => by
      unfold readAgain
      simp only [readAgain_congr captures j gs, hasBytes_congr h,
        (sameLetters_extract h _ _).byteLength_eq,
        foldedFrom_congr h (sameLetters_extract h _ _), if_true]

/-! ## 4. Trees -/

/-- **A tree in which nothing tells cases apart does not see letter case.** -/
theorem run_caseless (origin : Nat) : ∀ {n : Node}, n.isCaseless = true →
    n.run t' origin = n.run t origin
  | .text cs, hn => by
      funext p k
      unfold Node.run
      rw [standsAt_congr h hn]
  | .set u, hn => by
      funext p k
      have hsame := map_getElem?_congr h (fun hc => accepts_congr hn hc) p.pos
      unfold Node.run
      generalize t[p.pos]? = c at hsame ⊢
      generalize t'[p.pos]? = c' at hsame ⊢
      cases c with
      | none => cases c' with
        | none => rfl
        | some c' => cases hsame
      | some c => cases c' with
        | none => cases hsame
        | some c' => simp only [Option.some.inj hsame]
  | .anchor a, _ => by
      funext p k
      unfold Node.run
      rw [holds_congr h]
  | .never, _ => rfl
  | .seq a b, hn => by
      obtain ⟨ha, hb⟩ := Bool.and_eq_true_iff.mp hn
      funext p k
      unfold Node.run
      rw [run_caseless origin ha, run_caseless origin hb]
  | .alt a b, hn => by
      obtain ⟨ha, hb⟩ := Bool.and_eq_true_iff.mp hn
      funext p k
      unfold Node.run
      rw [run_caseless origin ha, run_caseless origin hb]
  | .group index fresh a, hn => by
      funext p k
      unfold Node.run
      rw [run_caseless (n := a) origin hn]
  | .atomic a, hn => by
      funext p k
      unfold Node.run
      rw [run_caseless (n := a) origin hn]
  | .loop low high isLazy counted onEmpty a, hn => by
      funext p k
      unfold Node.run runLoop roundsLeft
      rw [run_caseless (n := a) origin hn, sameLetters_size h]
  | .ahead negated a, hn => by
      funext p k
      unfold Node.run
      rw [run_caseless (n := a) origin hn]
  | .behind negated width a, hn => by
      funext p k
      unfold Node.run
      rw [run_caseless (n := a) origin hn]
  | .again groups folded, hn => by
      obtain rfl : folded = true := hn
      funext p k
      unfold Node.run
      rw [readAgain_congr h]

end Texts

/-- **A pattern that comes to a tree in which nothing tells cases apart does not see letter
    case.** -/
theorem isBlind_of_isCaseless {re : Regex} (hre : re.node.isCaseless = true) : re.IsBlind := by
  have hmatch : ∀ {t t' : Text}, SameLetters t.toList t'.toList → ∀ origin i,
      re.matchFrom t' origin i = re.matchFrom t origin i := by
    intro t t' h origin i
    unfold matchFrom
    rw [run_caseless h origin hre]
  constructor
  · intro t t' h i
    have hfirst : ∀ n i' : Nat, re.firstFrom t' i n i' = re.firstFrom t i n i' := by
      intro n
      induction n with
      | zero => exact fun _ => rfl
      | succ n ih =>
        intro i'
        unfold firstFrom
        rw [hmatch h, ih]
    unfold search
    rw [sameLetters_size h, hfirst]
  · intro t t' h i
    unfold matchAt
    rw [sameLetters_size h, hmatch h]

end Highlight.Regex
