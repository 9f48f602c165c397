import Highlight.Proofs.Arena.Delimiters
import Highlight.Proofs.Arena.Rules
import Highlight.Proofs.Arena.Trimmed
import Highlight.Proofs.Regex.Caseless
import Highlight.Scan.Buffer

/-!
# Languages that are blind to letter case

In a language that is blind to letter case every pattern that a run searches with ignores case: the
merged patterns of the rules, the ends, and the patterns of words; and keywords stand in their tables
in lower case.

* `words_of_compileLanguage` -- what words are cut out by, and how they are looked up;
* `FoldedMode`, `foldedMode_of_compileLanguage` -- a compiled mode all of whose patterns ignore case;
* `handedOver` -- the patterns of a mode that are handed to the engine;
* `EngineBlind` -- that the engine, told to ignore case, does not see it in any of them;
* `next_congr`, `ends_congr`, `identifiers_congr`, `find?_congr` -- nothing that a run asks of such a
  mode depends on letter case.
-/

namespace Highlight.Arena

open Highlight.Scan (identifiers identifiersFrom)
open Highlight.Text (SameLetters)

variable {name : String} {l : Grammar.Language} {arena : Arena} {m : ArenaMode} {t t' : Text}

/-! ## 1. Patterns that ignore case -/

/-- **All patterns of a compiled mode ignore case**, and its keywords do. -/
structure FoldedMode (m : ArenaMode) : Prop where
  ends : Option.Rel (fun source re => compilePattern source true = .ok re) m.endSource m.endRegex
  words : ∀ k ∈ m.keywords, compilePattern k.pattern true = .ok k.regex
  tables : ∀ k ∈ m.keywords, k.table.caseInsensitive = true
  rules : m.rules.rules = [] ∨ m.rules.folded = true

theorem foldedMode_blank : FoldedMode .blank where
  ends := .none
  words _ hk := by cases hk
  tables _ hk := by cases hk
  rules := .inl rfl

theorem ends_of_compileDelimiters {folded : Bool} {raw : Grammar.Mode} {parent : Option Parent}
    {d : Delimiters} (h : compileDelimiters folded raw parent = .ok d) :
    Option.Rel (fun source re => compilePattern source folded = .ok re) d.endSource d.endRegex := by
  cases parent with
  | none =>
    cases h
    exact .none
  | some parent =>
    obtain ⟨_, _, h⟩ := exists_of_bind h
    obtain ⟨endRegex, hends, h⟩ := exists_of_bind h
    cases h
    exact rel_of_mapM hends

theorem words_of_compileKeywords {folded : Bool} {k : Grammar.Keywords} {c : ModeKeywords}
    (h : compileKeywords folded k = .ok c) :
    compilePattern c.pattern folded = .ok c.regex ∧ c.table.caseInsensitive = folded := by
  obtain ⟨table, htable, h⟩ := exists_of_bind h
  obtain ⟨regex, hregex, h⟩ := exists_of_bind h
  cases h
  obtain ⟨_, _, htable⟩ := exists_of_bind htable
  cases htable
  exact ⟨hregex, rfl⟩

/-- **The words of every mode are cut out and looked up as its language says**, blind to case or not. -/
theorem words_of_compileLanguage (hc : compileLanguage name l = .ok arena) (id : Nat) :
    ∀ k ∈ (arena.mode id).keywords, compilePattern k.pattern l.caseInsensitive = .ok k.regex ∧
      k.table.caseInsensitive = l.caseInsensitive := by
  rcases mode_mem_or_blank arena id with hmem | hblank
  · obtain ⟨parent, key, raw, p, hp, hmade⟩ := ((made_of_compileLanguage hc).2 _ hmem).parts
    have hwords := rel_of_mapM (madeParts hp).keywords
    rw [hmade]
    show ∀ k ∈ p.keywords, _
    intro k hk
    generalize p.prepared.mode.keywords = written at hwords
    rw [Option.mem_def.mp hk] at hwords
    cases hwords with
    | some hcompiled => exact words_of_compileKeywords hcompiled
  · rw [hblank]
    exact fun k hk => by cases hk

/-- **In a language that is blind to letter case all patterns of every mode ignore it.** -/
theorem foldedMode_of_compileLanguage (hc : compileLanguage name l = .ok arena)
    (hcase : l.caseInsensitive = true) (id : Nat) : FoldedMode (arena.mode id) := by
  rcases mode_mem_or_blank arena id with hmem | hblank
  · obtain ⟨⟨parent, key, raw, p, hp, hmade⟩, ⟨source, hrules⟩, _, _⟩ :=
      (made_of_compileLanguage hc).2 _ hmem
    have hkeywords : ∀ k ∈ (arena.mode id).keywords,
        compilePattern k.pattern true = .ok k.regex ∧ k.table.caseInsensitive = true :=
      hcase ▸ words_of_compileLanguage hc id
    refine ⟨?_, fun k hk => (hkeywords k hk).1, fun k hk => (hkeywords k hk).2, .inr ?_⟩
    · rw [hmade]
      exact hcase ▸ ends_of_compileDelimiters (delimiters_of_compileParts hp)
    · exact (RuleSet.make_eq_ok hrules).2.1.trans hcase
  · rw [hblank]
    exact foldedMode_blank

/-! ## 2. What the engine sees -/

/-- The rules from number `k` on in one pattern. -/
def tailSource (m : ArenaMode) (k : Nat) : String :=
  Pattern.merge ((m.rules.rules.drop k).map (·.source)) "|"

/-- **The patterns of a mode that are handed to the engine** while a text is read: its end, the
    pattern of its words, and all tails of its rules. -/
def handedOver (m : ArenaMode) : List String :=
  m.endSource.toList ++ (m.keywords.map (·.pattern)).toList ++
    (List.range (m.rules.size + 1)).map (tailSource m)

theorem mem_handedOver_of_end {source : String} (h : m.endSource = some source) :
    source ∈ handedOver m := by
  simp [handedOver, h]

theorem mem_handedOver_of_words {k : ModeKeywords} (h : m.keywords = some k) :
    k.pattern ∈ handedOver m := by
  simp [handedOver, h]

theorem mem_handedOver_of_tail (m : ArenaMode) (k : Nat) : tailSource m k ∈ handedOver m := by
  refine List.mem_append_right _ ?_
  by_cases hk : k ≤ m.rules.size
  · exact List.mem_map_of_mem (List.mem_range.mpr (by omega))
  · have hdrop : m.rules.rules.drop k = m.rules.rules.drop m.rules.size := by
      rw [List.drop_eq_nil_of_le (Nat.le_of_not_le hk)]
      exact List.drop_length.symm
    unfold tailSource
    rw [hdrop]
    exact List.mem_map_of_mem (f := tailSource m) (List.mem_range.mpr (Nat.lt_succ_self _))

/-- **The engine does not see letter case** in a pattern that it is told to ignore it in, if a mode
    of the language hands it over. -/
def EngineBlind (arena : Arena) : Prop :=
  ∀ id, ∀ source ∈ handedOver (arena.mode id), ∀ re,
    compilePattern source true = .ok re → re.IsBlind

/-- Whether a pattern comes to a tree in which nothing tells the cases of a letter apart, if it can
    be read. -/
def comesToCaseless (source : String) : Bool :=
  match compilePattern source true with
  | .ok re => re.node.isCaseless
  | .error _ => true

/-- **The engine sees no letter case where all patterns come to such trees.** -/
theorem engineBlind_of_all
    (hall : arena.modes.all (fun m => (handedOver m).all comesToCaseless) = true) :
    EngineBlind arena := by
  have hblank : (handedOver .blank).all comesToCaseless = true := by decide +kernel
  intro id source hsource re hre
  have hmode := mode_all (p := fun m => (handedOver m).all comesToCaseless) hblank hall id
  have hcaseless := List.all_eq_true.mp hmode source hsource
  unfold comesToCaseless at hcaseless
  rw [hre] at hcaseless
  exact Regex.isBlind_of_isCaseless hcaseless

section Asked

variable (hblind : EngineBlind arena) {id : Nat} (hm : FoldedMode (arena.mode id))
  (ht : SameLetters t.toList t'.toList)

include hblind hm ht

/-- A merged pattern finds the same. -/
theorem merged_search_congr {k : Nat} {merged : Merged}
    (hmerged : (arena.mode id).rules.mergedFrom k = .ok merged)
    (hrules : (arena.mode id).rules.rules ≠ []) (i : Nat) :
    merged.search t' i = merged.search t i := by
  rw [RuleSet.mergedFrom_eq] at hmerged
  obtain ⟨slots, _, hmerged⟩ := exists_of_bind hmerged
  obtain ⟨regex, hregex, hmerged⟩ := exists_of_bind hmerged
  cases hmerged
  rw [hm.rules.resolve_left hrules] at hregex
  unfold Merged.search
  rw [(hblind id _ (mem_handedOver_of_tail _ k) _ hregex).search ht]

/-- **The rules of a mode match at the same places.** -/
theorem next_congr (i first : Nat) :
    (arena.mode id).rules.next t' i first = (arena.mode id).rules.next t i first := by
  unfold RuleSet.next
  split
  · rfl
  · rename_i hrules
    have hrules : (arena.mode id).rules.rules ≠ [] := by simpa using hrules
    generalize (if first < (arena.mode id).rules.size then first else 0) = start
    cases hstart : (arena.mode id).rules.mergedFrom start with
    | error cause => simp only [hstart, bind, Except.bind]
    | ok near =>
      have hnear := merged_search_congr hblind hm ht hstart hrules
      cases hall : (arena.mode id).rules.mergedFrom 0 with
      | error cause => simp only [hstart, bind, Except.bind, hnear]
      | ok all =>
        simp only [hstart, bind, Except.bind, hnear, merged_search_congr hblind hm ht hall hrules]

/-- **A mode ends at the same places.** -/
theorem ends_congr {re : Regex} (hre : (arena.mode id).endRegex = some re) (i : Nat) :
    re.matchAt t' i = re.matchAt t i := by
  have hends := hm.ends
  rw [hre] at hends
  cases hsource : (arena.mode id).endSource with
  | none =>
    rw [hsource] at hends
    cases hends
  | some source =>
    rw [hsource] at hends
    cases hends with
    | some hcompiled => exact (hblind id _ (mem_handedOver_of_end hsource) _ hcompiled).matchAt ht i

/-- **A text has its words at the same places.** -/
theorem identifiers_congr {k : ModeKeywords} (hk : (arena.mode id).keywords = some k) :
    identifiers k.regex t' = identifiers k.regex t := by
  have hregex := (hblind id _ (mem_handedOver_of_words hk) _ (hm.words k hk)).search ht
  have hfrom : ∀ fuel i : Nat,
      identifiersFrom k.regex t' fuel i = identifiersFrom k.regex t fuel i := by
    intro fuel
    induction fuel with
    | zero => exact fun _ => rfl
    | succ fuel ih =>
      intro i
      unfold identifiersFrom
      simp only [hregex, ih]
  unfold identifiers
  rw [Regex.sameLetters_size ht, hfrom]

end Asked

/-- A table that is blind to case spells words alike that differ in it only. -/
theorem spell_congr {w w' : String} (hw : SameLetters w.toList w'.toList) :
    Keyword.Table.spell true w' = Keyword.Table.spell true w :=
  Text.lowered_congr hw

/-- **Such a table finds the same for them.** -/
theorem find?_congr {table : Keyword.Table} (hfolds : table.caseInsensitive = true)
    {w w' : String} (hw : SameLetters w.toList w'.toList) : table.find? w' = table.find? w := by
  unfold Keyword.Table.find?
  rw [hfolds, spell_congr hw]

end Highlight.Arena
