import Highlight.Proofs.Dictionaries
import Highlight.Proofs.Keyword.Rescored
import Highlight.Proofs.Text.Lowered
import Mathlib.Data.Set.Card

/-!
# Keyword tables as their declarations read

A declaration lists words by category. A table is made by declaring one word after the other, so of
several declarations of a word the last one counts: the last category, and in it the last place.

* `cutAt_spell` -- a word is cut at its bar before or after it is spelled;
* `Declared`, `Declares` -- a declared word with its category and its place, and which a declaration
  has;
* `allDeclared` -- all of them, by category and then by place;
* `worth?`, `declare_eq` -- what a declared word is worth, and one more of them in a table;
* `find?_eq_some_iff_isLast` -- what is found is what is declared last;
* `table_reads_last_declarations` -- the result.
-/

namespace Highlight.Unicode

/-! ## 1. Words and their bars -/

/-- Nothing but a bar becomes a bar in lower case. -/
theorem eq_bar_of_mem_lowerOf {c : Char} (h : '|' ∈ lowerOf c) : c = '|' := by
  unfold lowerOf at h
  split at h
  · have hlower : c.toLower = '|'.toLower := by
      rw [← List.mem_singleton.mp h]
      decide
    exact ((Text.eq_iff_of_not_isAlpha (by decide) hlower).mpr rfl)
  · split at h
    · exact absurd h (by decide)
    · rename_i hdotted
      rw [List.mem_singleton] at h
      rcases mapThrough_cases Table.lowerRuns c.toNat with ⟨hsame, _⟩ | ⟨r, hr, hcovers, happly⟩
      · rw [h, hsame, Char.ofNat_toNat]
      · -- No run of the mapping gives a bar.
        have hsettles := lowerRuns_settle r hr
        have hnot := CaseRun.covers_apply hsettles.nonneg hsettles.noBar hcovers
        have hvalid := (isFixed_mapThrough (by simpa using hdotted) c.valid).2
        have hbar : mapThrough Table.lowerRuns c.toNat = 0x7C :=
          (toNat_ofNat hvalid).symm.trans (congrArg Char.toNat h).symm
        rw [← happly, hbar] at hnot
        cases hnot

end Highlight.Unicode

namespace Highlight.Text

theorem not_mem_lowerFrom : ∀ (before : List Char) {word : List Char}, '|' ∉ word →
    '|' ∉ lowerFrom before word
  | _, [], _ => by simp [lowerFrom]
  | before, c :: word, h => by
      obtain ⟨hc, hword⟩ := not_or.mp (List.mem_cons.not.mp h)
      unfold lowerFrom
      rw [List.mem_append]
      rintro (hbar | hbar)
      · split at hbar
        · unfold lowerSigma at hbar
          split at hbar <;> exact absurd hbar (by decide)
        · exact hc (Unicode.eq_bar_of_mem_lowerOf hbar).symm
      · exact not_mem_lowerFrom (c :: before) hword hbar

/-- What stands in front of a bar does not change the lower case of what is behind it. -/
theorem lowerFrom_behind_bar (before : List Char) : ∀ (near after : List Char),
    lowerFrom (near ++ '|' :: before) after = lowerFrom near after
  | _, [] => rfl
  | near, c :: after => by
      rw [lowerFrom, lowerFrom, lowerSigma, lowerSigma,
        Keyword.meetsCased_append near (.inr ⟨before, rfl⟩), ← List.cons_append,
        lowerFrom_behind_bar before (c :: near) after]

/-- **The lower case of a text with a bar** is that of what is before it, the bar, and that of what is
    behind it. -/
theorem lowerFrom_bar : ∀ (before word after : List Char),
    lowerFrom before (word ++ '|' :: after) =
      lowerFrom before word ++ '|' :: lowerFrom [] after
  | before, [], after => by
      have hbar : Unicode.lowerOf '|' = ['|'] := by decide
      show ((if '|' == 'Σ' then _ else Unicode.lowerOf '|') ++ lowerFrom ([] ++ '|' :: before) after) = _
      rw [if_neg (by decide), hbar, lowerFrom_behind_bar]
      rfl
  | before, c :: word, after => by
      rw [List.cons_append, lowerFrom, lowerFrom, lowerFrom_bar (c :: before) word after, lowerSigma,
        lowerSigma, Keyword.meetsCased_append word (.inr ⟨after, rfl⟩), List.append_assoc]

theorem cutAtChar_of_not_mem {sep : Char} : ∀ {word : List Char}, sep ∉ word →
    cutAtChar sep word = (word, none)
  | [], _ => rfl
  | c :: word, h => by
      obtain ⟨hc, hword⟩ := not_or.mp (List.mem_cons.not.mp h)
      rw [cutAtChar, if_neg (by simpa using Ne.symm hc), cutAtChar_of_not_mem hword]

theorem cutAtChar_append {sep : Char} {word : List Char} (h : sep ∉ word) (after : List Char) :
    cutAtChar sep (word ++ sep :: after) = (word, some after) := by
  induction word with
  | nil => simp [cutAtChar]
  | cons c word ih =>
    obtain ⟨hc, hword⟩ := not_or.mp (List.mem_cons.not.mp h)
    rw [List.cons_append, cutAtChar, if_neg (by simpa using Ne.symm hc), ih hword]

/-- A text has a first bar, or none. -/
theorem bar_cases (cs : List Char) :
    '|' ∉ cs ∨ ∃ word after, '|' ∉ word ∧ cs = word ++ '|' :: after := by
  by_cases h : '|' ∈ cs
  · obtain ⟨word, after, rfl, hword⟩ := List.eq_append_cons_of_mem h
    exact .inr ⟨word, after, hword, rfl⟩
  · exact .inl h

end Highlight.Text

namespace Highlight.Keyword

open Highlight.Grammar (Keywords WordList patternKey)
open Table (spell)

/-- **A word is cut at its bar before or after it is spelled**, and comes to the same. -/
theorem cutAt_spell (folds : Bool) (token : String) : Text.cutAt '|' (spell folds token) =
    (spell folds (bare token), (Text.cutAt '|' token).2.map (spell folds)) := by
  unfold bare
  cases folds with
  | false =>
    have hself : spell false = id := rfl
    rw [hself, Option.map_id, id, id, id]
  | true =>
    have hlowered : spell true = Text.lowered := rfl
    simp only [hlowered, Text.cutAt, Text.lowered, String.toList_ofList]
    rcases Text.bar_cases token.toList with hnone | ⟨word, after, hword, heq⟩
    · rw [Text.cutAtChar_of_not_mem hnone,
        Text.cutAtChar_of_not_mem (Text.not_mem_lowerFrom [] hnone)]
      simp
    · rw [heq, Text.cutAtChar_append hword, Text.lowerFrom_bar,
        Text.cutAtChar_append (Text.not_mem_lowerFrom [] hword)]
      simp [Text.lowered]

/-! ## 2. What a declaration lists -/

/-- A declared word: its category, its place in the list there, and how it is written. -/
structure Declared where
  scope : String
  place : Nat
  token : String
  deriving DecidableEq, Repr

/-- The words of a category, in order. Words without categories all have the default one, and the
    category of the pattern has no words. -/
def listUnder (scope : String) : Keywords → List String
  | .words text => if scope = defaultScope then Text.words text else []
  | .list words => if scope = defaultScope then words else []
  | .categories lists =>
    if scope = patternKey then [] else ((lists.get? scope).map wordsOf).getD []

/-- **That a declaration lists a word**, under its category and at its place. -/
def Declares (k : Keywords) (d : Declared) : Prop := (listUnder d.scope k)[d.place]? = some d.token

/-- **The order of declarations**: by category, then by place. -/
def Declared.Before (d d' : Declared) : Prop :=
  compare d.scope d'.scope = .lt ∨ d.scope = d'.scope ∧ d.place < d'.place

/-- The words of one category. -/
def inOrder (scope : String) (words : List String) : List Declared :=
  words.zipIdx.map fun (token, place) => ⟨scope, place, token⟩

/-- All declared words, in the order in which they are declared. -/
def allDeclared : Keywords → List Declared
  | .words text => inOrder defaultScope (Text.words text)
  | .list words => inOrder defaultScope words
  | .categories lists =>
    (lists.entries.filter (·.1 != patternKey)).flatMap fun (scope, list) =>
      inOrder scope (wordsOf list)

variable {k : Keywords} {folds : Bool} {d d' : Declared} {scope token : String}

theorem mem_inOrder {words : List String} :
    d ∈ inOrder scope words ↔ d.scope = scope ∧ words[d.place]? = some d.token := by
  unfold inOrder
  rw [List.mem_map]
  constructor
  · rintro ⟨⟨token, place⟩, hmem, rfl⟩
    exact ⟨rfl, List.mk_mem_zipIdx_iff_getElem?.mp hmem⟩
  · rintro ⟨rfl, htoken⟩
    exact ⟨(d.token, d.place), List.mk_mem_zipIdx_iff_getElem?.mpr htoken, rfl⟩

theorem map_inOrder (scope : String) (words : List String) :
    (inOrder scope words).map (fun d => (d.scope, d.token)) = words.map (scope, ·) := by
  unfold inOrder
  rw [List.map_map]
  conv_rhs => rw [← List.zipIdx_map_fst 0 words, List.map_map]
  rfl

theorem map_allDeclared (k : Keywords) :
    (allDeclared k).map (fun d => (d.scope, d.token)) = declarations k := by
  cases k with
  | words text => exact map_inOrder ..
  | list words => exact map_inOrder ..
  | categories lists =>
    unfold allDeclared declarations
    rw [List.map_flatMap]
    exact List.flatMap_congr fun e _ => map_inOrder ..

/-- Every declared word is there. -/
theorem mem_allDeclared : d ∈ allDeclared k ↔ Declares k d := by
  unfold Declares
  cases k with
  | words text | list words =>
    unfold allDeclared
    rw [mem_inOrder]
    by_cases hscope : d.scope = defaultScope <;> simp [listUnder, hscope]
  | categories lists =>
    unfold allDeclared listUnder
    simp only [List.mem_flatMap, List.mem_filter, mem_inOrder]
    constructor
    · rintro ⟨⟨scope, list⟩, ⟨hlist, hscope⟩, rfl, htoken⟩
      rw [if_neg (by simpa using hscope), Dictionary.get?_eq_some_iff.mpr hlist]
      exact htoken
    · intro htoken
      split at htoken
      · cases htoken
      · rename_i hscope
        cases hlist : lists.get? d.scope with
        | none =>
          rw [hlist] at htoken
          cases htoken
        | some list =>
          rw [hlist] at htoken
          exact ⟨(d.scope, list), ⟨Dictionary.get?_eq_some_iff.mp hlist, by simpa using hscope⟩, rfl,
            htoken⟩

theorem inOrder_pairwise (scope : String) (words : List String) :
    (inOrder scope words).Pairwise Declared.Before := by
  unfold inOrder
  rw [List.pairwise_map, List.pairwise_iff_getElem]
  exact fun i j hi hj hlt => .inr ⟨rfl, by simpa using hlt⟩

/-- **Words are declared by category, then by place.** -/
theorem allDeclared_pairwise (k : Keywords) : (allDeclared k).Pairwise Declared.Before := by
  cases k with
  | words text => exact inOrder_pairwise ..
  | list words => exact inOrder_pairwise ..
  | categories lists =>
    unfold allDeclared
    rw [List.pairwise_flatMap]
    refine ⟨fun e _ => inOrder_pairwise .., ?_⟩
    refine (List.Pairwise.filter _ lists.ascending).imp fun {e e'} hlt d hd d' hd' => .inl ?_
    rw [(mem_inOrder.mp hd).1, (mem_inOrder.mp hd').1]
    exact hlt

/-! ## 3. What declared words are worth -/

/-- **What a declared word is worth**: what is written behind its bar, spelled as the table spells
    words, if that is a number of 32 bits. Without a bar it is one, and nothing for a word of plain
    prose in any letter case. -/
def worth? (folds : Bool) (token : String) : Option Nat :=
  match (Text.cutAt '|' token).2 with
  | some written => Text.unsigned? Text.maxScore (spell folds written)
  | none => some (if Text.lowered (bare token) ∈ commonWords then 0 else 1)

/-- The word that is declared, as the table spells it. -/
def Declared.word (folds : Bool) (d : Declared) : String := spell folds (bare d.token)

theorem isCommon_spell (folds : Bool) (word : String) :
    isCommon (spell folds word) = decide (Text.lowered word ∈ commonWords) := by
  unfold isCommon
  rw [List.contains_eq_mem]
  cases folds with
  | false => rfl
  | true => exact congrArg (fun w => decide (w ∈ commonWords)) (Text.lowered_lowered word)

variable {es es' : Dictionary String Entry} {ds : List (String × String)}

/-- **One more declared word**: it is there with what it is worth, or nothing can be read. -/
theorem declare_eq_ok_iff : Table.declare folds es scope token = .ok es' ↔
    ∃ n, worth? folds token = some n ∧ es.insert (spell folds (bare token)) ⟨scope, n⟩ = es' := by
  unfold Table.declare worth?
  rw [cutAt_spell]
  cases (Text.cutAt '|' token).2 with
  | none =>
    simp [relevance, bind, Except.bind, pure, Except.pure, isCommon_spell]
  | some written =>
    cases hn : Text.unsigned? Text.maxScore (spell folds written) <;>
      simp [relevance, bind, Except.bind, pure, Except.pure, hn]

theorem declareAll_cons {d : String × String} :
    Table.declareAll folds es (d :: ds) = .ok es' ↔
      ∃ n, worth? folds d.2 = some n ∧
        Table.declareAll folds (es.insert (spell folds (bare d.2)) ⟨d.1, n⟩) ds = .ok es' := by
  simp only [Table.declareAll, bind, Except.bind]
  constructor
  · intro h
    split at h
    · cases h
    · rename_i es1 hes1
      obtain ⟨n, hn, rfl⟩ := declare_eq_ok_iff.mp hes1
      exact ⟨n, hn, h⟩
  · rintro ⟨n, hn, h⟩
    rw [declare_eq_ok_iff.mpr ⟨n, hn, rfl⟩]
    exact h

/-- Words can be declared if what each of them is worth can be read. -/
theorem declareAll_ok_iff : (∃ es', Table.declareAll folds es ds = .ok es') ↔
    ∀ d ∈ ds, (worth? folds d.2).isSome := by
  induction ds generalizing es with
  | nil => exact ⟨fun _ _ hd => (by cases hd), fun _ => ⟨es, rfl⟩⟩
  | cons d ds ih =>
    rw [List.forall_mem_cons, Option.isSome_iff_exists]
    constructor
    · rintro ⟨es', h⟩
      obtain ⟨n, hn, h⟩ := declareAll_cons.mp h
      exact ⟨⟨n, hn⟩, ih.mp ⟨es', h⟩⟩
    · rintro ⟨⟨n, hn⟩, hds⟩
      obtain ⟨es', h⟩ := ih.mpr hds
      exact ⟨es', declareAll_cons.mpr ⟨n, hn, h⟩⟩

/-- **Of several declarations of a word the last one counts.** -/
theorem get?_declareAll (h : Table.declareAll folds es ds = .ok es') (w : String) :
    es'.get? w = ((ds.reverse.find? fun d => spell folds (bare d.2) == w).bind fun d =>
      (worth? folds d.2).map (Entry.mk d.1)).or (es.get? w) := by
  induction ds generalizing es with
  | nil =>
    cases h
    rfl
  | cons d ds ih =>
    obtain ⟨n, hn, h⟩ := declareAll_cons.mp h
    rw [ih h, List.reverse_cons, List.find?_append, Dictionary.get?_insert]
    cases hlater : ds.reverse.find? fun d => spell folds (bare d.2) == w with
    | some later =>
      have hmem := List.mem_reverse.mp (List.mem_of_find?_eq_some hlater)
      obtain ⟨m, hm⟩ := Option.isSome_iff_exists.mp (declareAll_ok_iff.mp ⟨es', h⟩ later hmem)
      simp [hm]
    | none =>
      by_cases hw : w = spell folds (bare d.2)
      · simp [hw, hn]
      · simp [hw, Ne.symm hw]

/-! ## 4. The last declaration of a word -/

/-- Of the members of an ordered list that pass a test, the last one is met first from behind. -/
theorem find?_reverse_eq_some_iff {α : Type} {R : α → α → Prop} {p : α → Bool} {l : List α} {a : α}
    (hl : l.Pairwise R) (hR : ∀ b c, R b c → ¬ (c = b ∨ R c b)) :
    l.reverse.find? p = some a ↔ a ∈ l ∧ p a = true ∧ ∀ b ∈ l, p b = true → b = a ∨ R b a := by
  rw [List.find?_eq_some_iff_append]
  constructor
  · rintro ⟨hp, later, earlier, heq, hlater⟩
    obtain rfl : l = earlier.reverse ++ a :: later.reverse := by
      rw [← List.reverse_reverse l, heq]
      simp
    refine ⟨by simp, hp, fun b hb hpb => ?_⟩
    rcases List.mem_append.mp hb with hb | hb
    · exact .inr ((List.pairwise_append.mp hl).2.2 b hb a List.mem_cons_self)
    · rcases List.mem_cons.mp hb with rfl | hb
      · exact .inl rfl
      · have hnot := hlater b (List.mem_reverse.mp hb)
        rw [hpb] at hnot
        cases hnot
  · rintro ⟨ha, hp, hlast⟩
    obtain ⟨earlier, later, rfl⟩ := List.append_of_mem ha
    refine ⟨hp, later.reverse, earlier.reverse, by simp, fun b hb => ?_⟩
    have hb := List.mem_reverse.mp hb
    have hab : R a b := (List.pairwise_cons.mp (List.pairwise_append.mp hl).2.1).1 b hb
    refine (Bool.not_eq_true' _).mpr (Bool.eq_false_iff.mpr fun hpb => hR a b hab ?_)
    exact hlast b (List.mem_append_right _ (List.mem_cons_of_mem a hb)) hpb

/-- **The last declaration of a word**, as a table spells it. -/
structure IsLast (k : Keywords) (folds : Bool) (w : String) (d : Declared) : Prop where
  declares : Declares k d
  word : d.word folds = w
  last : ∀ d', Declares k d' → d'.word folds = w → d' = d ∨ d'.Before d

theorem Declared.Before.not_reversed (h : d.Before d') : ¬ (d' = d ∨ d'.Before d) := by
  unfold Before at h
  rintro (rfl | hback)
  · rcases h with hlt | ⟨_, hlt⟩
    · rw [Std.ReflOrd.compare_self] at hlt
      cases hlt
    · omega
  · rcases h with hlt | ⟨heq, hlt⟩ <;> rcases hback with hlt' | ⟨heq', hlt'⟩
    · rw [Std.OrientedOrd.eq_swap, hlt'] at hlt
      cases hlt
    · rw [heq', Std.ReflOrd.compare_self] at hlt
      cases hlt
    · rw [heq, Std.ReflOrd.compare_self] at hlt'
      cases hlt'
    · omega

theorem isLast_iff {w : String} :
    ((allDeclared k).reverse.find? fun d => d.word folds == w) = some d ↔ IsLast k folds w d := by
  rw [find?_reverse_eq_some_iff (allDeclared_pairwise k) fun _ _ => Declared.Before.not_reversed]
  simp only [mem_allDeclared, beq_iff_eq]
  exact ⟨fun ⟨h1, h2, h3⟩ => ⟨h1, h2, h3⟩, fun h => ⟨h.declares, h.word, h.last⟩⟩

variable {t : Table}

theorem compile_ok_iff : Table.compile k folds = .ok t ↔
    Table.declareAll folds .empty (declarations k) = .ok t.entries ∧ t.caseInsensitive = folds := by
  unfold Table.compile
  simp only [bind, Except.bind, pure, Except.pure]
  cases Table.declareAll folds .empty (declarations k) with
  | error cause => simp
  | ok es =>
    simp only [Except.ok.injEq]
    constructor
    · rintro rfl
      exact ⟨rfl, rfl⟩
    · rintro ⟨rfl, rfl⟩
      rfl

/-- What is kept of a word is what is declared of it last. -/
theorem get?_entries (h : Table.compile k folds = .ok t) (w : String) : t.entries.get? w =
    ((allDeclared k).reverse.find? fun d => d.word folds == w).bind fun d =>
      (worth? folds d.token).map (Entry.mk d.scope) := by
  have hempty : (Dictionary.empty : Dictionary String Entry).get? w = none := rfl
  rw [get?_declareAll (compile_ok_iff.mp h).1, hempty, Option.or_none, ← map_allDeclared,
    ← List.map_reverse, List.find?_map, Option.bind_map]
  rfl

/-- What the declared words are worth can be read. -/
theorem isSome_worth? (h : Table.compile k folds = .ok t) (hd : Declares k d) :
    (worth? folds d.token).isSome := by
  refine declareAll_ok_iff.mp ⟨_, (compile_ok_iff.mp h).1⟩ (d.scope, d.token) ?_
  rw [← map_allDeclared]
  exact List.mem_map_of_mem (mem_allDeclared.mpr hd)

theorem compile_ok : (∃ t, Table.compile k folds = .ok t) ↔
    ∀ d, Declares k d → (worth? folds d.token).isSome := by
  refine ⟨fun ⟨t, h⟩ d => isSome_worth? h, fun h => ?_⟩
  have hall : ∀ e ∈ declarations k, (worth? folds e.2).isSome := by
    rw [← map_allDeclared]
    intro e he
    obtain ⟨d, hd, rfl⟩ := List.mem_map.mp he
    exact h d (mem_allDeclared.mp hd)
  obtain ⟨es, hes⟩ : ∃ es, Table.declareAll folds .empty (declarations k) = .ok es :=
    declareAll_ok_iff.mpr hall
  exact ⟨⟨es, folds⟩, compile_ok_iff.mpr ⟨hes, rfl⟩⟩

/-- **What is found of a word is what is declared of it last**, and what that is worth. -/
theorem find?_eq_some_iff_isLast (h : Table.compile k folds = .ok t) (w : String) (e : Entry) :
    t.find? w = some e ↔ ∃ d, IsLast k folds (spell folds w) d ∧ e.scope = d.scope ∧
      worth? folds d.token = some e.relevance := by
  obtain rfl := (compile_ok_iff.mp h).2
  unfold Table.find?
  rw [get?_entries h, Option.bind_eq_some_iff]
  refine exists_congr fun d => and_congr isLast_iff ?_
  rw [Option.map_eq_some_iff]
  constructor
  · rintro ⟨n, hn, rfl⟩
    exact ⟨rfl, hn⟩
  · rintro ⟨hscope, hn⟩
    exact ⟨e.relevance, hn, by rw [← hscope]⟩

/-- A word is kept if it is declared at all. -/
theorem isSome_get?_entries (h : Table.compile k folds = .ok t) (w : String) :
    (t.entries.get? w).isSome ↔ ∃ d, Declares k d ∧ d.word folds = w := by
  rw [get?_entries h]
  constructor
  · intro hsome
    obtain ⟨e, he⟩ := Option.isSome_iff_exists.mp hsome
    obtain ⟨d, hd, _⟩ := Option.bind_eq_some_iff.mp he
    exact ⟨d, (isLast_iff.mp hd).declares, (isLast_iff.mp hd).word⟩
  · rintro ⟨d, hd, hword⟩
    have hfound : ((allDeclared k).reverse.find? fun d => d.word folds == w).isSome :=
      List.find?_isSome.mpr ⟨d, List.mem_reverse.mpr (mem_allDeclared.mpr hd), by simpa using hword⟩
    obtain ⟨last, hlast⟩ := Option.isSome_iff_exists.mp hfound
    obtain ⟨n, hn⟩ := Option.isSome_iff_exists.mp (isSome_worth? h (isLast_iff.mp hlast).declares)
    rw [hlast, Option.bind_some, hn]
    rfl

/-- **As many words are kept as are declared**, each counted once. -/
theorem size_eq (h : Table.compile k folds = .ok t) :
    t.size = {w | ∃ d, Declares k d ∧ d.word folds = w}.ncard := by
  have hkeys : {w | ∃ d, Declares k d ∧ d.word folds = w} = ↑t.entries.keys.toFinset := by
    ext w
    rw [Set.mem_ofPred_eq, ← isSome_get?_entries h, ← Dictionary.mem_keys_iff]
    simp
  rw [hkeys, Set.ncard_coe_finset, List.toFinset_card_of_nodup t.entries.nodup_keys]
  exact (List.length_map ..).symm

/-! ## 5. The pattern of the words -/

/-- **Setting the pattern declares no word anew**, and leaves none out. -/
theorem declarations_withPattern (k : Keywords) (pattern : String) :
    declarations (k.withPattern pattern) = declarations k := by
  unfold Keywords.withPattern declarations
  dsimp only
  rw [Dictionary.insert, filter_insertEntry]
  cases k with
  | words text => exact List.append_nil _
  | list words => exact List.append_nil _
  | categories lists => rfl

theorem pattern?_withPattern (k : Keywords) (pattern : String) :
    pattern? (k.withPattern pattern) = some pattern := by
  unfold Keywords.withPattern pattern?
  dsimp only
  rw [Dictionary.get?_insert, if_pos rfl]

/-! ## 6. The result -/

/-- **A keyword table reads as its declaration.** It can be made if what is written behind the bars
    can be read; then of every word what is declared last is found, if it is declared at all, and it
    has as many words as are declared. Setting the pattern of the words changes the pattern only. -/
theorem table_reads_last_declarations (k : Keywords) (folds : Bool) :
    ((∃ t, Table.compile k folds = .ok t) ↔ ∀ d, Declares k d → ∀ written,
      (Text.cutAt '|' d.token).2 = some written →
        (Text.unsigned? Text.maxScore (spell folds written)).isSome) ∧
    (∀ t, Table.compile k folds = .ok t →
      (∀ w e, t.find? w = some e ↔ ∃ d, IsLast k folds (spell folds w) d ∧ e.scope = d.scope ∧
        worth? folds d.token = some e.relevance) ∧
      (∀ w, t.find? w = none ↔ ∀ d, Declares k d → d.word folds ≠ spell folds w) ∧
      t.size = {w | ∃ d, Declares k d ∧ d.word folds = w}.ncard) ∧
    ∀ pattern, Table.compile (k.withPattern pattern) folds = Table.compile k folds ∧
      pattern? (k.withPattern pattern) = some pattern := by
  refine ⟨?_, fun t h => ⟨find?_eq_some_iff_isLast h, fun w => ?_, size_eq h⟩, fun pattern =>
    ⟨?_, pattern?_withPattern k pattern⟩⟩
  · rw [compile_ok]
    refine forall_congr' fun d => imp_congr_right fun _ => ?_
    unfold worth?
    cases (Text.cutAt '|' d.token).2 <;> simp
  · obtain rfl := (compile_ok_iff.mp h).2
    unfold Table.find?
    rw [← Option.not_isSome_iff_eq_none, isSome_get?_entries h]
    push Not
    rfl
  · unfold Table.compile
    rw [declarations_withPattern]

/-- Words in two categories, one of them in both, and a pattern. -/
def sharedWords : Keywords :=
  .categories (.ofList [("b", .list ["Shared|2", "IN"]), ("a", .words "shared if|+3"),
    (patternKey, .words "[a-z|x]+")])

/-- The word in both categories belongs to the later one; one of plain prose is worth nothing, and
    another one what is written. -/
theorem shared_word_is_of_later_category : ∃ t, Table.compile sharedWords true = .ok t ∧
    t.find? "SHARED" = some ⟨"b", 2⟩ ∧ t.find? "In" = some ⟨"b", 0⟩ ∧
    t.find? "if" = some ⟨"a", 3⟩ ∧ (∃ d, IsLast sharedWords true "shared" d ∧ d.scope = "b") ∧
    {w | ∃ d, Declares sharedWords d ∧ d.word true = w}.ncard = 3 := by
  have hcheck : (match Table.compile sharedWords true with
      | .ok t => t.find? "SHARED" == some ⟨"b", 2⟩ && t.find? "In" == some ⟨"b", 0⟩ &&
          t.find? "if" == some ⟨"a", 3⟩ && t.size == 3
      | .error _ => false) = true := by decide +kernel
  cases ht : Table.compile sharedWords true with
  | error cause =>
    rw [ht] at hcheck
    cases hcheck
  | ok t =>
    rw [ht] at hcheck
    simp only [Bool.and_eq_true, beq_iff_eq] at hcheck
    obtain ⟨⟨⟨hshared, hin⟩, hif⟩, hsize⟩ := hcheck
    obtain ⟨hfound, _, hcount⟩ := (table_reads_last_declarations sharedWords true).2.1 t ht
    obtain ⟨d, hlast, hscope, _⟩ := (hfound "SHARED" _).mp hshared
    have hlower : spell true "SHARED" = "shared" := by decide +kernel
    exact ⟨t, rfl, hshared, hin, hif, ⟨d, hlower ▸ hlast, hscope.symm⟩, hcount ▸ hsize⟩

end Highlight.Keyword
