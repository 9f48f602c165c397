import Highlight.Proofs.Arena.Guards
import Highlight.Proofs.Arena.Ordered
import Highlight.Proofs.Arena.Terminators
import Highlight.Proofs.Pattern.Chosen

/-!
# Rules of joined patterns

What a mode forbids can be a list of patterns, and a mode that ends with its parent ends where any of
several modes ends. In both cases the patterns are joined to that of a single rule, with bars between
them, and this rule is merged with the others of the mode. It reads what the first of the patterns
reads that reads anything, as long as none of them refers to its groups behind groups of others: the
references in joined patterns are not moved.

* `spanAt`, `span_reads` -- what a pattern reads by itself;
* `spanAt_joined`, `spanAt_held` -- what joined patterns read;
* `isFirst_next`, `reads_of_next` -- what the search of a rule set finds;
* `StandsForAny`, `only_illegal`, `only_ends` -- a rule of a mode that stands for any of some patterns;
* `Forbids`, `forbids_any_of` -- **what is forbidden is any of the patterns of a list**;
* `group_takes_reference` -- behind a group of another pattern a reference leads to that group.
-/

namespace Highlight.Arena

open Highlight.Grammar
open Regex Pattern

/-! ## 1. What joined patterns read -/

/-- **What a pattern reads by itself** at index `i`, in a search that began at index `origin`. -/
def spanAt (folded : Bool) (text : Text) (origin i : Nat) (source : String) : Option Span :=
  if i ≤ text.size then do
    let regex ← (compilePattern source folded).toOption
    let m ← regex.matchFrom text origin i
    return m.span
  else none

section Joined

variable {folded : Bool} {text : Text} {origin i : Nat} {patterns : List String}

/-- A rule reads what its pattern reads. -/
theorem span_reads (r : Rule) (k : Nat) :
    (r.reads folded text origin i k).map (·.span) = spanAt folded text origin i r.source := by
  unfold Rule.reads spanAt
  split
  · cases (compilePattern r.source folded).toOption with
    | none => rfl
    | some regex =>
      simp only [Option.bind_eq_bind, Option.bind_some]
      cases regex.matchFrom text origin i <;> rfl
  · rfl

theorem spanAt_of_compile {source : String} {regex : Regex}
    (h : Pattern.compile source folded = .ok regex) (hi : i ≤ text.size) :
    spanAt folded text origin i source = (regex.matchFrom text origin i).map (·.span) := by
  simp only [spanAt, if_pos hi, compilePattern, h, Except.mapError, Except.toOption,
    Option.bind_eq_bind, Option.bind_some]
  cases regex.matchFrom text origin i <;> rfl

/-- A rule reads what its pattern reads, and has the groups of that. -/
theorem found_of_reads {r : Rule} {k : Nat} {found : RuleMatch} {regex : Regex}
    (hregex : Pattern.compile r.source folded = .ok regex)
    (hread : r.reads folded text origin i k = some found) :
    ∃ m, regex.matchFrom text origin i = some m ∧ found.span = m.span ∧
      found.groups = (List.range (regex.groups + 1)).map m.group? := by
  unfold Rule.reads at hread
  split at hread
  · simp only [compilePattern, hregex, Except.mapError, Except.toOption, Option.bind_eq_bind,
      Option.bind_some] at hread
    obtain ⟨m, hm, hfound⟩ := Option.bind_eq_some_iff.mp hread
    cases hfound
    exact ⟨m, hm, rfl, rfl⟩
  · cases hread

/-- A match of the first of some patterns that has one spans what that one reads. -/
theorem span_firstJoined {g : Nat} {regexes : List Regex} {found : Option Found}
    (h : FirstJoined text origin i g regexes found) :
    found.map (·.span) = regexes.findSome? fun r => (r.matchFrom text origin i).map (·.span) := by
  induction h with
  | none => rfl
  | here hown hshares =>
    rw [List.findSome?_cons, hown, Option.map_some, Option.map_some, hshares.span]
  | later hown _ ih =>
    rw [List.findSome?_cons, hown, ih]
    rfl

/-- A pattern that means the same by itself and among others, and can be compiled. -/
def Accepted (folded : Bool) (pattern : String) : Prop :=
  Plain folded pattern ∧ ∃ regex, Pattern.compile pattern folded = .ok regex

theorem accepted_of_checks {pattern : String} (hclear : Clear 0 pattern.toList)
    (hsteady : Pattern.isSteady folded pattern.toList = true)
    (hok : (Pattern.compile pattern folded).isOk = true) : Accepted folded pattern :=
  ⟨⟨hclear, hsteady⟩, exists_of_isOk hok⟩

theorem exists_regexes (h : ∀ p ∈ patterns, Accepted folded p) :
    ∃ regexes, List.Forall₂ (fun s r => Plain folded s ∧ Pattern.compile s folded = .ok r)
      patterns regexes := by
  induction patterns with
  | nil => exact ⟨[], .nil⟩
  | cons p patterns ih =>
    obtain ⟨hplain, regex, hregex⟩ := h p List.mem_cons_self
    obtain ⟨regexes, hregexes⟩ := ih fun q hq => h q (List.mem_cons_of_mem p hq)
    exact ⟨regex :: regexes, .cons ⟨hplain, hregex⟩ hregexes⟩

theorem findSome?_spanAt {regexes : List Regex} (hi : i ≤ text.size)
    (h : List.Forall₂ (fun s r => Plain folded s ∧ Pattern.compile s folded = .ok r)
      patterns regexes) :
    patterns.findSome? (spanAt folded text origin i) =
      regexes.findSome? fun r => (r.matchFrom text origin i).map (·.span) := by
  induction h with
  | nil => rfl
  | cons hr _ ih => rw [List.findSome?_cons, List.findSome?_cons, spanAt_of_compile hr.2 hi, ih]

theorem findSome?_spanAt_beyond (hi : ¬ i ≤ text.size) :
    patterns.findSome? (spanAt folded text origin i) = none := by
  refine List.findSome?_eq_none_iff.mpr fun p _ => ?_
  rw [spanAt, if_neg hi]

/-- A regex that reads what the first of some patterns reads. -/
theorem spanAt_of_firstJoined {source : String} {regex : Regex} {regexes : List Regex}
    (h : List.Forall₂ (fun s r => Plain folded s ∧ Pattern.compile s folded = .ok r)
      patterns regexes) (hregex : Pattern.compile source folded = .ok regex)
    (hfirst : ∀ text origin i, FirstJoined text origin i 0 regexes (regex.matchFrom text origin i))
    (text : Text) (origin i : Nat) : spanAt folded text origin i source =
      patterns.findSome? (spanAt folded text origin i) := by
  by_cases hi : i ≤ text.size
  · rw [spanAt_of_compile hregex hi, span_firstJoined (hfirst text origin i), findSome?_spanAt hi h]
  · rw [findSome?_spanAt_beyond hi, spanAt, if_neg hi]

/-- **Joined patterns read what the first of them reads that reads anything.** -/
theorem spanAt_joined (hne : patterns ≠ []) (h : ∀ p ∈ patterns, Accepted folded p)
    (hapart : isApart 0 (patterns.map String.toList) = true) :
    Accepted folded (String.intercalate "|" patterns) ∧ ∀ text origin i,
      spanAt folded text origin i (String.intercalate "|" patterns) =
        patterns.findSome? (spanAt folded text origin i) := by
  obtain ⟨regexes, hregexes⟩ := exists_regexes h
  obtain ⟨hplain, regex, hregex, _, hfirst⟩ := compile_joined hne hregexes hapart
  exact ⟨⟨hplain, regex, hregex⟩, spanAt_of_firstJoined hregexes hregex hfirst⟩

/-- **So do patterns that are held together.** -/
theorem spanAt_held (hne : patterns ≠ []) (h : ∀ p ∈ patterns, Accepted folded p)
    (hapart : isApart 0 (patterns.map String.toList) = true) {regex : Regex}
    (hheld : Pattern.compile (either patterns false) folded = .ok regex) :
    Plain folded (either patterns false) ∧ ∀ text origin i,
      spanAt folded text origin i (either patterns false) =
        patterns.findSome? (spanAt folded text origin i) := by
  obtain ⟨regexes, hregexes⟩ := exists_regexes h
  obtain ⟨hplain, joined, hjoined, _, hfirst⟩ := compile_joined hne hregexes hapart
  obtain ⟨rfl, hplain'⟩ := compile_held hplain hjoined hheld
  exact ⟨hplain', spanAt_of_firstJoined hregexes hheld hfirst⟩

end Joined

/-! ## 2. What a search finds -/

section Search

variable {rules : List Rule} {folded : Bool} {rs : RuleSet}
  (hmake : RuleSet.make rules folded = .ok rs) (hplain : ∀ r ∈ rules, Plain folded r.source)

include hmake hplain

/-- **The search of a rule set finds what its rules read in order**: for rules that can be merged and
    whose patterns are plain, from every index on. -/
theorem isFirst_next (text : Text) (i : Nat) :
    ∃ found, rs.next text i 0 = .ok (found, rs.resume 0 found) ∧ rs.IsFirst text i found := by
  unfold RuleSet.next
  by_cases hempty : rs.rules.isEmpty = true
  · rw [if_pos hempty]
    refine ⟨none, rfl, fun j k _ => ?_⟩
    rw [RuleSet.reads, List.isEmpty_iff.mp hempty]
    rfl
  · have hpos : 0 < rs.size := List.length_pos_iff.mpr fun h => hempty (List.isEmpty_iff.mpr h)
    obtain ⟨merged, hmerged, hleast⟩ := exists_tail hmake hplain hpos text
    have hfirst := isFirst_of_isLeast (hleast i)
    rw [if_neg hempty, if_pos hpos]
    refine ⟨merged.search text i, ?_, hfirst⟩
    simp only [hmerged, bind, Except.bind]
    rw [← advance_eq (rule_lt_of_isFirst hfirst)]
    rfl

/-- What the merged pattern of a tail finds is what a rule reads by itself. -/
theorem reads_of_search {text : Text} {i k : Nat} (hk : k < rs.size) {merged : Merged}
    (hmerged : rs.mergedFrom k = .ok merged) {m : RuleMatch} (h : merged.search text i = some m) :
    rs.reads text i m.span.start m.rule = some m := by
  obtain ⟨merged', hmerged', hleast⟩ := exists_tail hmake hplain hk text
  rw [hmerged] at hmerged'
  cases hmerged'
  have hi := hleast i
  rw [h] at hi
  obtain ⟨j, _, hread, _⟩ := hi
  obtain ⟨_, rfl, hreads, _⟩ := reads_of_firstReading hread
  exact hreads

/-- **What the search of a rule set finds is what one of its rules reads by itself**, wherever the
    search takes up. -/
theorem reads_of_next {text : Text} {i first next : Nat} {m : RuleMatch}
    (h : rs.next text i first = .ok (some m, next)) :
    ∃ origin, rs.reads text origin m.span.start m.rule = some m := by
  simp only [RuleSet.next, bind, Except.bind] at h
  split at h
  · cases h
  · rename_i hempty
    have hpos : 0 < rs.size := List.length_pos_iff.mpr fun h => hempty (List.isEmpty_iff.mpr h)
    have hstart : (if first < rs.size then first else 0) < rs.size := by
      split
      · assumption
      · exact hpos
    generalize (if first < rs.size then first else 0) = start at h hstart
    split at h
    · cases h
    · rename_i near hnear
      split at h
      · exact ⟨i, reads_of_search hmake hplain hstart hnear
          (RuleSet.advance_eq_some (Except.ok.inj h))⟩
      · split at h
        · cases h
        · rename_i all hall
          exact ⟨i + 1, reads_of_search hmake hplain hpos hall
            (RuleSet.advance_eq_some (Except.ok.inj h))⟩

end Search

/-! ## 3. The rules of a mode -/

/-- What a search finds from any index on, where it begins at the first rule. -/
def RuleSet.FindsFirst (rs : RuleSet) : Prop :=
  ∀ text i, ∃ found, rs.next text i 0 = .ok (found, rs.resume 0 found) ∧ rs.IsFirst text i found

/-- **A rule of a mode stands for any of some patterns**: it is the only rule of its kind; by itself
    it reads something exactly where one of the patterns does, and then what the first of those
    reads; and so the search finds it, in its order among the other rules, if these are plain. -/
structure StandsForAny (l : Language) (m : ArenaMode) (kind : RuleKind) (source : String)
    (patterns : List String) : Prop where
  only : ∀ r, (r ∈ m.rules.rules ∧ r.kind = kind) ↔ r = ⟨kind, source⟩
  folded : m.rules.folded = l.caseInsensitive
  any : ∀ text origin i k,
    ((Rule.mk kind source).reads l.caseInsensitive text origin i k).isSome = true ↔
      ∃ p ∈ patterns, (spanAt l.caseInsensitive text origin i p).isSome = true
  first : ∀ text origin i k,
    ((Rule.mk kind source).reads l.caseInsensitive text origin i k).map (·.span) =
      patterns.findSome? (spanAt l.caseInsensitive text origin i)
  found : (∀ r ∈ m.rules.rules, r.kind ≠ kind → Plain l.caseInsensitive r.source) →
    m.rules.FindsFirst

section Rules

variable {l : Language} {m : ArenaMode} {kind : RuleKind} {source : String} {patterns : List String}
  {size : Nat}

theorem standsForAny_of_made (h : Made l size m)
    (honly : ∀ r, (r ∈ m.rules.rules ∧ r.kind = kind) ↔ r = ⟨kind, source⟩)
    (hplain : Plain l.caseInsensitive source)
    (hreads : ∀ text origin i, spanAt l.caseInsensitive text origin i source =
      patterns.findSome? (spanAt l.caseInsensitive text origin i)) :
    StandsForAny l m kind source patterns := by
  obtain ⟨_, hmake⟩ := h.rules
  obtain ⟨hrules, hfolded, _⟩ := RuleSet.make_eq_ok hmake
  have hfirst : ∀ text origin i k,
      ((Rule.mk kind source).reads l.caseInsensitive text origin i k).map (·.span) =
        patterns.findSome? (spanAt l.caseInsensitive text origin i) := fun text origin i k =>
    (span_reads _ k).trans (hreads text origin i)
  refine ⟨honly, hfolded, fun text origin i k => ?_, hfirst, fun hothers text i => ?_⟩
  · rw [← List.findSome?_isSome_iff, ← hfirst text origin i k, Option.isSome_map]
  · refine isFirst_next hmake (fun r hr => ?_) text i
    rw [← hrules] at hr
    by_cases hkind : r.kind = kind
    · rw [(honly r).mp ⟨hr, hkind⟩]
      exact hplain
    · exact hothers r hr hkind

/-- The rules of a mode, by what they stand for. -/
theorem mem_rules (h : Made l size m) {r : Rule} : r ∈ m.rules.rules ↔
    (∃ id, r.kind = .begins id ∧ r ∈ m.rules.rules) ∨
      (m.terminator ≠ "" ∧ r = ⟨.ends, m.terminator⟩) ∨
      ∃ source, m.illegal = some source ∧ r = ⟨.illegal, source⟩ := by
  obtain ⟨begins, hmake⟩ := h.rules
  rw [(RuleSet.make_eq_ok hmake).1, rulesOf]
  constructor
  · intro hr
    rcases List.mem_append.mp hr with hr' | hr'
    · rcases List.mem_append.mp hr' with hr' | hr'
      · rw [List.map_map] at hr'
        obtain ⟨id, _, rfl⟩ := List.mem_map.mp hr'
        exact .inl ⟨id, rfl, hr⟩
      · split at hr'
        · cases hr'
        · rename_i hne
          exact .inr (.inl ⟨by simpa using hne, List.mem_singleton.mp hr'⟩)
    · obtain ⟨source, hsource, rfl⟩ := List.mem_map.mp hr'
      exact .inr (.inr ⟨source, by simpa using hsource, rfl⟩)
  · rintro (⟨id, _, hr⟩ | ⟨hne, rfl⟩ | ⟨source, hsource, rfl⟩)
    · exact hr
    · simp [hne]
    · simp [hsource]

/-- A rule for the end of a mode has its terminator. -/
theorem eq_ends_of_mem (h : Made l size m) {r : Rule} (hr : r ∈ m.rules.rules) (hkind : r.kind = .ends) :
    r = ⟨.ends, m.terminator⟩ := by
  rcases (mem_rules h).mp hr with ⟨id, hid, _⟩ | ⟨_, hr⟩ | ⟨source, _, rfl⟩
  · rw [hid] at hkind
    cases hkind
  · exact hr
  · cases hkind

/-- A mode forbids what its rule for that reads. -/
theorem only_illegal (h : Made l size m) (hs : m.illegal = some source) (r : Rule) :
    (r ∈ m.rules.rules ∧ r.kind = .illegal) ↔ r = ⟨.illegal, source⟩ := by
  constructor
  · rintro ⟨hr, hkind⟩
    rcases (mem_rules h).mp hr with ⟨id, hid, _⟩ | ⟨_, rfl⟩ | ⟨source', hsource', rfl⟩
    · rw [hid] at hkind
      cases hkind
    · cases hkind
    · rw [hs] at hsource'
      cases hsource'
      rfl
  · rintro rfl
    exact ⟨(mem_rules h).mpr (.inr (.inr ⟨source, hs, rfl⟩)), rfl⟩

/-- A mode ends where the rule with its terminator reads something. -/
theorem only_ends (h : Made l size m) (hne : m.terminator ≠ "") (r : Rule) :
    (r ∈ m.rules.rules ∧ r.kind = .ends) ↔ r = ⟨.ends, m.terminator⟩ := by
  refine ⟨fun hr => eq_ends_of_mem h hr.1 hr.2, ?_⟩
  rintro rfl
  exact ⟨(mem_rules h).mpr (.inr (.inl ⟨hne, rfl⟩)), rfl⟩

end Rules

/-! ## 4. What a mode forbids -/

/-- **A mode forbids any of some patterns**: it is compiled from a written mode whose `illegal` lists
    them, once the extensions of the language have seen to it. -/
def Forbids (l : Language) (m : ArenaMode) (patterns : List String) : Prop :=
  ∃ parent key raw p e, compileParts l parent key raw = .ok p ∧
    m = p.assemble m.contains m.starts m.rules ∧
    extended l.extensions ((key.map Key.place).getD [("root", 0)]) (parent.map (·.mode)) raw =
      .ok e ∧
    e.1.illegal = some (.sequence patterns)

section Forbidden

variable {l : Language} {m : ArenaMode} {patterns : List String}

/-- **The patterns of a list are joined and held together.** -/
theorem Forbids.illegal (h : Forbids l m patterns) : m.illegal = some (either patterns false) ∧
    ∃ regex, Pattern.compile (either patterns false) l.caseInsensitive = .ok regex := by
  obtain ⟨parent, key, raw, p, e, hp, hm, he, hlist⟩ := h
  have hmade := madeParts hp
  have hillegal := hmade.illegal
  obtain ⟨e', he', hmode⟩ := extended_of_compileParts hp
  cases he.symm.trans he'
  rw [hmode, illegal_spellRest _ hlist] at hillegal
  exact ⟨(congrArg ArenaMode.illegal hm).trans hillegal, hmade.accepted _ hillegal⟩

/-- A mode forbids the patterns that it is written with, where nothing comes before it. -/
theorem forbids_of_raw {parent : Option Parent} {key : Option Key} {raw : Mode} {p : Parts}
    (hp : compileParts l parent key raw = .ok p) (hm : m = p.assemble m.contains m.starts m.rules)
    (hext : l.extensions = []) (hbefore : raw.beforeMatch = none)
    (hlist : raw.illegal = some (.sequence patterns)) : Forbids l m patterns := by
  obtain ⟨e, he, _⟩ := extended_of_compileParts hp
  refine ⟨parent, key, raw, p, e, hp, hm, he, ?_⟩
  rw [hext] at he
  exact (congrArg Guards.illegal (guards_extended he hbefore)).trans hlist

/-- The root forbids the patterns that it is written with. -/
theorem forbids_root {name : String} {arena : Arena} (hc : compileLanguage name l = .ok arena)
    (hext : l.extensions = []) (hbefore : l.mode.beforeMatch = none)
    (hlist : l.mode.illegal = some (.sequence patterns)) :
    arena.mode arena.root ∈ arena.modes ∧ Forbids l (arena.mode arena.root) patterns := by
  obtain ⟨p, hp, hm⟩ := root_parts hc
  exact ⟨mode_mem (made_of_compileLanguage hc).1, forbids_of_raw hp hm hext hbefore hlist⟩

end Forbidden

/-- **A list of patterns forbids whatever any of them reads**: of a mode that forbids some patterns,
    the rule for that stands for any of them, if they are plain and none refers to its groups behind
    groups of others. -/
theorem forbids_any_of {name : String} {l : Language} {arena : Arena}
    (hc : compileLanguage name l = .ok arena) {m : ArenaMode} (hm : m ∈ arena.modes)
    {patterns : List String} (hforbids : Forbids l m patterns) (hne : patterns ≠ [])
    (h : ∀ p ∈ patterns, Accepted l.caseInsensitive p)
    (hapart : isApart 0 (patterns.map String.toList) = true) :
    m.illegal = some (either patterns false) ∧
      StandsForAny l m .illegal (either patterns false) patterns := by
  obtain ⟨hillegal, regex, hregex⟩ := hforbids.illegal
  obtain ⟨hplain, hreads⟩ := spanAt_held hne h hapart hregex
  have hmade := (made_of_compileLanguage hc).2 m hm
  exact ⟨hillegal, standsForAny_of_made hmade (only_illegal hmade hillegal) hplain hreads⟩

/-- A language that forbids some patterns. -/
def forbidding (patterns : List String) : Language where
  mode := { illegal := some (.sequence patterns) }

/-- What is doubled is forbidden beside a group that comes behind it. -/
theorem forbids_doubled_or_group : ∃ arena m,
    compileLanguage "l" (forbidding ["(b)\\1", "(a)"]) = .ok arena ∧ m ∈ arena.modes ∧
      m.illegal = some (either ["(b)\\1", "(a)"] false) ∧
      StandsForAny (forbidding ["(b)\\1", "(a)"]) m .illegal (either ["(b)\\1", "(a)"] false)
        ["(b)\\1", "(a)"] := by
  have hok : (compileLanguage "l" (forbidding ["(b)\\1", "(a)"])).isOk = true := by decide +kernel
  obtain ⟨arena, hc⟩ := exists_of_isOk hok
  obtain ⟨hm, hforbids⟩ := forbids_root hc rfl rfl rfl
  refine ⟨arena, _, hc, hm, forbids_any_of hc hm hforbids (by decide) (fun p hp => ?_)
    (by decide +kernel)⟩
  simp only [List.mem_cons, List.not_mem_nil, or_false] at hp
  rcases hp with rfl | rfl
  all_goals
    exact accepted_of_checks (by unfold Clear; decide +kernel) (by decide +kernel)
      (by decide +kernel)

/-- **Behind the group of another pattern a reference leads to that group**: what is doubled is not
    found, though its pattern reads it by itself. -/
theorem group_takes_reference : ∃ arena m,
    compileLanguage "l" (forbidding ["(a)", "(b)\\1"]) = .ok arena ∧ m ∈ arena.modes ∧
      Forbids (forbidding ["(a)", "(b)\\1"]) m ["(a)", "(b)\\1"] ∧
      (∀ p ∈ ["(a)", "(b)\\1"], (Pattern.compile p false).isOk = true) ∧
      (spanAt false (Text.ofString "bb") 0 0 "(b)\\1").isSome = true ∧
      ∀ r ∈ m.rules.rules, r.kind = .illegal → ∀ k,
        r.reads false (Text.ofString "bb") 0 0 k = none := by
  have hok : (compileLanguage "l" (forbidding ["(a)", "(b)\\1"])).isOk = true := by decide +kernel
  obtain ⟨arena, hc⟩ := exists_of_isOk hok
  obtain ⟨hm, hforbids⟩ := forbids_root hc rfl rfl rfl
  refine ⟨arena, _, hc, hm, hforbids, by decide +kernel, by decide +kernel, fun r hr hkind k => ?_⟩
  have hmade := (made_of_compileLanguage hc).2 _ hm
  obtain rfl := (only_illegal hmade hforbids.illegal.1 r).mp ⟨hr, hkind⟩
  have hspan : spanAt false (Text.ofString "bb") 0 0 (either ["(a)", "(b)\\1"] false) = none := by
    decide +kernel
  exact Option.map_eq_none_iff.mp ((span_reads _ k).trans hspan)

end Highlight.Arena
