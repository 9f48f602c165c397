import Highlight.Keyword.Table
import Mathlib.Data.List.Forall2

/-!
# Keywords with other scores

A declared word can carry its score after a bar. Words that differ in that only make tables in which
the same words are found under the same categories.

* `bare`, `SameToken` -- a declared word without its score;
* `lowerFrom_append` -- what comes after a bar does not change the lower case of what is before it;
* `Rescored` -- declarations that are the same but for scores;
* `rescored_compile` -- their tables find the same.
-/

namespace Highlight.Keyword

open Highlight.Grammar (Keywords)

/-! ## 1. Words and their scores -/

/-- A declared word without what is written after its bar. -/
def bare (token : String) : String := (Text.cutAt '|' token).1

/-- Two declared words are the same but for their scores. -/
def SameToken (token token' : String) : Prop := bare token' = bare token

instance (token token' : String) : Decidable (SameToken token token') :=
  inferInstanceAs (Decidable (bare token' = bare token))

theorem cutAtChar_fst (sep : Char) (cs : List Char) :
    (Text.cutAtChar sep cs).1 = cs.takeWhile (· != sep) := by
  induction cs with
  | nil => rfl
  | cons c cs ih =>
    unfold Text.cutAtChar
    by_cases hc : c = sep
    · simp [hc]
    · simp [hc, ih]

theorem bare_eq (token : String) :
    bare token = String.ofList (token.toList.takeWhile (· != '|')) := by
  unfold bare Text.cutAt
  rw [← cutAtChar_fst]

/-- What can follow a word: nothing, or a bar with anything after it. -/
def AtBar (rest : List Char) : Prop := rest = [] ∨ ∃ score, rest = '|' :: score

theorem atBar_dropWhile (cs : List Char) : AtBar (cs.dropWhile (· != '|')) := by
  induction cs with
  | nil => exact .inl rfl
  | cons c cs ih =>
    by_cases hc : c = '|'
    · exact .inr ⟨cs, by simp [hc]⟩
    · simpa [hc] using ih

theorem takeWhile_append_of_atBar (word : List Char) {rest : List Char} (hrest : AtBar rest) :
    (word ++ rest).takeWhile (· != '|') = word.takeWhile (· != '|') := by
  induction word with
  | nil => rcases hrest with rfl | ⟨score, rfl⟩ <;> simp
  | cons c word ih =>
    by_cases hc : c = '|'
    · simp [hc]
    · simp [hc, ih]

/-- A bar stands for no letter, so a word ends there. -/
theorem meetsCased_append (word : List Char) {rest : List Char} (hrest : AtBar rest) :
    Text.meetsCased (word ++ rest) = Text.meetsCased word := by
  induction word with
  | nil =>
    rcases hrest with rfl | ⟨score, rfl⟩
    · rfl
    · have hbar : Unicode.isCaseIgnorable '|' = false := by decide +kernel
      show (if Unicode.isCaseIgnorable '|' then _ else Unicode.isCased '|') = false
      rw [hbar]
      rfl
  | cons c word ih => rw [List.cons_append, Text.meetsCased, Text.meetsCased, ih]

/-- **What comes after a bar does not change the lower case of what is before it**, and the bar
    stays. -/
theorem lowerFrom_append (before word : List Char) {rest : List Char} (hrest : AtBar rest) :
    ∃ rest', AtBar rest' ∧
      Text.lowerFrom before (word ++ rest) = Text.lowerFrom before word ++ rest' := by
  induction word generalizing before with
  | nil =>
    rcases hrest with rfl | ⟨score, rfl⟩
    · exact ⟨[], .inl rfl, rfl⟩
    · exact ⟨_, .inr ⟨_, rfl⟩, rfl⟩
  | cons c word ih =>
    obtain ⟨rest', hrest', heq⟩ := ih (c :: before)
    refine ⟨rest', hrest', ?_⟩
    rw [List.cons_append, Text.lowerFrom, Text.lowerFrom, heq, Text.lowerSigma, Text.lowerSigma,
      meetsCased_append word hrest, List.append_assoc]

theorem bare_lowered (token : String) :
    bare (Text.lowered token) = bare (Text.lowered (bare token)) := by
  have hsplit : token.toList =
      token.toList.takeWhile (· != '|') ++ token.toList.dropWhile (· != '|') :=
    (List.takeWhile_append_dropWhile).symm
  obtain ⟨rest, hrest, heq⟩ := lowerFrom_append [] (token.toList.takeWhile (· != '|'))
    (atBar_dropWhile token.toList)
  rw [bare_eq token, bare_eq, bare_eq, Text.lowered, Text.lowered, String.toList_ofList,
    String.toList_ofList, String.toList_ofList]
  conv_lhs => rw [hsplit, heq, takeWhile_append_of_atBar _ hrest]

/-- **However a table spells them**, words stay the same but for their scores. -/
theorem SameToken.spell {token token' : String} (h : SameToken token token') (folds : Bool) :
    SameToken (Table.spell folds token) (Table.spell folds token') := by
  unfold Table.spell
  cases folds with
  | false => exact h
  | true =>
    show bare (Text.lowered token') = bare (Text.lowered token)
    rw [bare_lowered, bare_lowered token, h]

/-! ## 2. Tables -/

/-- Two declarations of words are the same but for scores. -/
abbrev SameWords (ds ds' : List (String × String)) : Prop :=
  List.Forall₂ (fun d d' => d'.1 = d.1 ∧ SameToken d.2 d'.2) ds ds'

theorem SameWords.refl (ds : List (String × String)) : SameWords ds ds :=
  List.forall₂_same.mpr fun _ _ => ⟨rfl, rfl⟩

/-- **The keywords of two modes are the same but for scores.** -/
structure Rescored (k k' : Keywords) : Prop where
  pattern : pattern? k' = pattern? k
  words : SameWords (declarations k) (declarations k')

theorem Rescored.refl (k : Keywords) : Rescored k k := ⟨rfl, .refl _⟩

/-- Under the same words stand the same categories. -/
def SameScopes (es es' : Dictionary String Entry) : Prop :=
  ∀ word, Option.Rel (fun e e' => e'.scope = e.scope) (es.get? word) (es'.get? word)

variable {folds : Bool} {es es' t t' : Dictionary String Entry}

theorem sameScopes_declare (h : SameScopes es es') {scope token token' : String}
    (htoken : SameToken token token') (ht : Table.declare folds es scope token = .ok t)
    (ht' : Table.declare folds es' scope token' = .ok t') : SameScopes t t' := by
  have hword : (Text.cutAt '|' (Table.spell folds token')).1 =
      (Text.cutAt '|' (Table.spell folds token)).1 := htoken.spell folds
  simp only [Table.declare, bind, Except.bind, pure, Except.pure] at ht ht'
  split at ht
  · cases ht
  · split at ht'
    · cases ht'
    · cases ht
      cases ht'
      intro word
      rw [hword, Dictionary.get?_insert, Dictionary.get?_insert]
      split
      · exact .some rfl
      · exact h word

theorem sameScopes_declareAll {ds ds' : List (String × String)} (hds : SameWords ds ds') :
    ∀ {es es' t t' : Dictionary String Entry}, SameScopes es es' →
      Table.declareAll folds es ds = .ok t → Table.declareAll folds es' ds' = .ok t' →
      SameScopes t t' := by
  induction hds with
  | nil =>
    intro es es' t t' h ht ht'
    cases ht
    cases ht'
    exact h
  | @cons d d' ds ds' hd _ ih =>
    intro es es' t t' h ht ht'
    simp only [Table.declareAll, bind, Except.bind] at ht ht'
    split at ht
    · cases ht
    · rename_i t1 ht1
      split at ht'
      · cases ht'
      · rename_i t1' ht1'
        rw [hd.1] at ht1'
        exact ih (sameScopes_declare h hd.2 ht1 ht1') ht ht'

/-- **Declarations that are the same but for scores make tables that find the same**, but for
    scores. -/
theorem rescored_compile {k k' : Keywords} {table table' : Table} (h : Rescored k k')
    (ht : Table.compile k folds = .ok table) (ht' : Table.compile k' folds = .ok table') :
    table'.caseInsensitive = table.caseInsensitive ∧ ∀ word,
      Option.Rel (fun e e' => e'.scope = e.scope) (table.find? word) (table'.find? word) := by
  simp only [Table.compile, bind, Except.bind, pure, Except.pure] at ht ht'
  split at ht
  · cases ht
  · rename_i entries hentries
    split at ht'
    · cases ht'
    · rename_i entries' hentries'
      cases ht
      cases ht'
      exact ⟨rfl, fun word => sameScopes_declareAll h.words (fun _ => .none) hentries hentries' _⟩

end Highlight.Keyword
