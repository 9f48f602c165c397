import Highlight.Proofs.Arena.Ends
import Highlight.Proofs.Arena.WellFormed
import Highlight.Proofs.Pattern.Sequenced

/-!
# Labels of the parts of a delimiter

A delimiter in several parts has a label for each part, and the compiled mode has it for the group
that wraps the part. As long as the parts are plain their row is one pattern in which these groups
hold the parts, one after another; and so they make up every match, in the merged patterns of a rule
set too.

* `exists_labelParts` -- the labels, by the groups around the parts;
* `written`, `begins_in_parts`, `ends_in_parts` -- a mode with such a delimiter, and what it is
  compiled to;
* `MadeUpBy`, `madeUp_of_begins`, `madeUp_of_ends` -- groups that make up a match;
* `exists_labels`, `row_of_ends` -- the labels of parts, and what an end in several parts becomes;
* `labels_at_parts` -- **each label stands at the group around its part**, and these groups make up
  what the delimiter reads;
* `control_takes_parenthesis` -- a parenthesis that belongs to an escape is taken for a group.
-/

namespace Highlight.Arena

open Highlight.Grammar
open Regex Pattern

variable {name : String} {l : Language} {arena : Arena} {folded : Bool} {parts : List String}
  {regexes : List Regex} {names : Dictionary Nat (Option String)}

/-! ## 1. Labels -/

/-- An entry with the least key comes first. -/
theorem insertEntry_least {κ α : Type} [Ord κ] {k : κ} {v : α} {es : List (κ × α)}
    (h : ∀ e ∈ es, compare k e.1 = .lt) : insertEntry k v es = (k, v) :: es := by
  cases es with
  | nil => rfl
  | cons e es => rw [insertEntry, h e List.mem_cons_self]

/-- **The labels of the parts, by the groups around them.** -/
theorem exists_labelParts (h : List.Forall₂ (fun p r => groupCount p = .ok r.groups) parts regexes)
    (names : Dictionary Nat (Option String)) (part before : Nat) : ∃ labels, labelParts names part before parts = .ok labels ∧
      labels.entries = (List.range parts.length).map fun i =>
        (part + before + i + groupsOf (regexes.take i), (names.get? (part + i)).join) := by
  induction h generalizing part before with
  | nil => exact ⟨.empty, rfl, rfl⟩
  | @cons p r parts regexes hp _ ih =>
    obtain ⟨labels, hlabels, hentries⟩ := ih (part + 1) (before + r.groups)
    refine ⟨labels.insert (part + before) (names.get? part).join, ?_, ?_⟩
    · simp only [labelParts, hp, hlabels, bind, Except.bind]
      rfl
    · have hleast : ∀ e ∈ labels.entries, compare (part + before) e.1 = .lt := by
        intro e he
        rw [hentries] at he
        obtain ⟨i, _, rfl⟩ := List.mem_map.mp he
        exact Nat.compare_eq_lt.mpr (by omega)
      show insertEntry _ _ labels.entries = _
      rw [insertEntry_least hleast, hentries, List.length_cons, List.range_succ_eq_map, List.map_cons,
        List.map_map]
      refine congrArg _ (List.map_congr_left fun i _ => ?_)
      simp only [Function.comp_apply, List.take_succ_cons, groupsOf, Prod.mk.injEq]
      exact ⟨by omega, by rw [Nat.add_assoc, Nat.add_comm 1 i]⟩

/-! ## 2. Delimiters in several parts -/

/-- A mode with its older spellings, and what comes before it, written out. -/
def written (place : Identity) (raw : Mode) : Except Cause Mode := do
  let m ← spelled raw
  return moveScope (← spellBefore place m)

/-- **A delimiter in several parts** excludes its flags, and has labels by part; it becomes one pattern
    with labels by group. -/
theorem joinDelimiter_sequence {scope : Option Scope} {key : String}
    {flags : List (String × Option Bool)} {joined : Option Source × Option ScopeEmit}
    (h : joinDelimiter (some (.sequence parts)) scope key flags = .ok joined) :
    ∃ names labels, scope = some (.groups names) ∧ labelParts names 1 0 parts = .ok labels ∧
      joined = (some (.single (merge parts "")), some (.parts labels)) := by
  unfold joinDelimiter at h
  simp only at h
  split at h
  · cases h
  · rename_i names _
    obtain ⟨labels, hlabels, h⟩ := exists_of_bind h
    cases h
    exact ⟨names, labels, rfl, hlabels, rfl⟩
  · cases h

/-- The delimiters of a mode before its last shorthands are written out. -/
theorem delimiters_extended {place : Identity} {parent : Option Mode} {raw : Mode}
    {e : Mode × Option ScopeEmit × Option ScopeEmit} (h : extended [] place parent raw = .ok e) :
    ∃ w, written place raw = .ok w ∧ e.1.beginKeywords = w.beginKeywords ∧
      joinDelimiter w.beginPattern w.beginScope "beginScope"
        [("skip", w.skip), ("excludeBegin", w.excludeBegin), ("returnBegin", w.returnBegin)] =
          .ok (e.1.beginPattern, e.2.1) ∧
      joinDelimiter w.endPattern w.endScope "endScope"
        [("skip", w.skip), ("excludeEnd", w.excludeEnd), ("returnEnd", w.returnEnd)] =
          .ok (e.1.endPattern, e.2.2) := by
  obtain ⟨m, hm, h⟩ := exists_of_bind h
  obtain ⟨m', hm', h⟩ := exists_of_bind h
  obtain ⟨⟨beginPattern, beginScope⟩, hbegins, h⟩ := exists_of_bind h
  obtain ⟨⟨endPattern, endScope⟩, hends, h⟩ := exists_of_bind h
  cases h
  refine ⟨moveScope m', ?_, rfl, hbegins, hends⟩
  rw [written, show spelled raw = .ok m from hm]
  simp only [bind, Except.bind, hm']
  rfl

/-- The last shorthands leave the delimiters, unless the mode begins with words. -/
theorem delimiters_spellRest (parent : Option Mode) (m : Mode) :
    (m.beginKeywords = none → (spellRest parent m).1.beginPattern = m.beginPattern) ∧
      (spellRest parent m).1.endPattern = m.endPattern := by
  have hillegal : ∀ n : Mode, (spellIllegal n).beginPattern = n.beginPattern ∧
      (spellIllegal n).endPattern = n.endPattern := by
    intro n
    unfold spellIllegal
    split <;> exact ⟨rfl, rfl⟩
  have hkeywords : (m.beginKeywords = none → (spellKeywords m).1.beginPattern = m.beginPattern) ∧
      (spellKeywords m).1.endPattern = m.endPattern := by
    unfold spellKeywords
    split
    · rename_i hwords
      exact ⟨fun h => absurd h (by simp [hwords]), rfl⟩
    · exact ⟨fun _ => rfl, rfl⟩
  obtain ⟨hbegin, hend⟩ := hillegal (if parent.isSome then spellKeywords m else (m, false)).1
  refine ⟨fun hnone => hbegin.trans ?_, hend.trans ?_⟩
  · split
    · exact hkeywords.1 hnone
    · rfl
  · split
    · exact hkeywords.2
    · rfl

/-- **A compiled mode begins with some parts**, labelled by part: those that it is written with inside
    another mode. -/
def BeginsInParts (l : Language) (m : ArenaMode) (parts : List String)
    (names : Dictionary Nat (Option String)) : Prop :=
  ∃ parent key raw p w, compileParts l (some parent) key raw = .ok p ∧
    m = p.assemble m.contains m.starts m.rules ∧
    written ((key.map Key.place).getD [("root", 0)]) raw = .ok w ∧
    w.beginPattern = some (.sequence parts) ∧ w.beginScope = some (.groups names) ∧
    w.beginKeywords = none

/-- **A compiled mode ends with some parts**, labelled by part. -/
def EndsInParts (l : Language) (m : ArenaMode) (parts : List String)
    (names : Dictionary Nat (Option String)) : Prop :=
  ∃ parent key raw p w, compileParts l (some parent) key raw = .ok p ∧
    m = p.assemble m.contains m.starts m.rules ∧
    written ((key.map Key.place).getD [("root", 0)]) raw = .ok w ∧
    w.endPattern = some (.sequence parts) ∧ w.endScope = some (.groups names)

section Delimiters

variable {m : ArenaMode}

/-- The pattern of the beginning of a mode inside another one. -/
theorem beginSource_inside {parent : Parent} {key : Option Key} {raw : Mode} {p : Parts}
    (h : compileParts l (some parent) key raw = .ok p) : p.delimiters.beginSource =
      (p.prepared.mode.beginPattern.map sourceText).getD matchEmpty ∧
        ∃ regex, Pattern.compile p.delimiters.beginSource l.caseInsensitive = .ok regex := by
  obtain ⟨regex, hregex, h⟩ := exists_of_bind (delimiters_of_compileParts h)
  obtain ⟨_, _, h⟩ := exists_of_bind h
  rw [← Except.ok.inj h]
  exact ⟨rfl, regex, ok_of_mapError hregex⟩

theorem begins_in_parts (h : BeginsInParts l m parts names) (hext : l.extensions = [])
    {labels : Dictionary Nat (Option String)} (hlabels : labelParts names 1 0 parts = .ok labels) :
    m.beginSource = merge parts "" ∧ m.beginScope = some (.parts labels) ∧
      ∃ row, Pattern.compile (merge parts "") l.caseInsensitive = .ok row := by
  obtain ⟨parent, key, raw, p, w, hp, hm, hw, hparts, hscope, hwords⟩ := h
  obtain ⟨e, he, hmode, hbegins, _⟩ := prepared_of_compileParts hp
  rw [hext] at he
  obtain ⟨w', hw', hkeep, hjoined, _⟩ := delimiters_extended he
  cases hw.symm.trans hw'
  rw [hparts, hscope] at hjoined
  obtain ⟨_, _, hnames, hlabels', hjoined⟩ := joinDelimiter_sequence hjoined
  cases hnames
  cases hlabels.symm.trans hlabels'
  obtain ⟨hpattern, hemit⟩ := Prod.mk.inj hjoined
  have hbegin : p.prepared.mode.beginPattern = some (.single (merge parts "")) := by
    rw [hmode]
    exact ((delimiters_spellRest _ e.1).1 (hkeep.trans hwords)).trans hpattern
  obtain ⟨hinside, hcompiled⟩ := beginSource_inside hp
  have hsource : p.delimiters.beginSource = merge parts "" := by
    rw [hinside, hbegin]
    rfl
  exact ⟨(congrArg ArenaMode.beginSource hm).trans hsource,
    (congrArg ArenaMode.beginScope hm).trans (hbegins.trans hemit), hsource ▸ hcompiled⟩

theorem ends_in_parts (h : EndsInParts l m parts names) (hext : l.extensions = [])
    {labels : Dictionary Nat (Option String)} (hlabels : labelParts names 1 0 parts = .ok labels) :
    m.endSource = some (merge parts "") ∧ m.endScope = some (.parts labels) ∧
      ∃ row, m.endRegex = some row ∧
        Pattern.compile (merge parts "") l.caseInsensitive = .ok row := by
  obtain ⟨parent, key, raw, p, w, hp, hm, hw, hparts, hscope⟩ := h
  obtain ⟨e, he, hmode, _, hends⟩ := prepared_of_compileParts hp
  rw [hext] at he
  obtain ⟨w', hw', _, _, hjoined⟩ := delimiters_extended he
  cases hw.symm.trans hw'
  rw [hparts, hscope] at hjoined
  obtain ⟨_, _, hnames, hlabels', hjoined⟩ := joinDelimiter_sequence hjoined
  cases hnames
  cases hlabels.symm.trans hlabels'
  obtain ⟨hpattern, hemit⟩ := Prod.mk.inj hjoined
  have hend : p.prepared.mode.endPattern = some (.single (merge parts "")) := by
    rw [hmode]
    exact (delimiters_spellRest _ e.1).2.trans hpattern
  have hsource : m.endSource = some (merge parts "") := by
    refine (congrArg ArenaMode.endSource hm).trans ((delimiters_inside hp).1.trans ?_)
    rw [ownEnd, hend]
    rfl
  have hunder : CompiledUnder l m parent.terminator := ⟨parent, key, raw, p, hp, rfl, hm⟩
  exact ⟨hsource, (congrArg ArenaMode.endScope hm).trans (hends.trans hemit), hunder.compiled hsource⟩

end Delimiters

/-! ## 3. Groups that make up a match -/

/-- **Some groups make up a match**: they lie end to end from where it begins to where it ends. -/
def MadeUpBy (m : RuleMatch) (keys : List Nat) : Prop :=
  TiledBy (fun k => (m.groups[k]?).join) m.span.start m.span.stop keys

section Matches

variable {text : Text} {row : Regex} {m : RuleMatch}

theorem groupsOf_take_le (regexes : List Regex) (i : Nat) :
    groupsOf (regexes.take i) ≤ groupsOf regexes := by
  conv_rhs => rw [← List.take_append_drop i regexes, groupsOf_append]
  exact Nat.le_add_right _ _

/-- **The groups around the parts make up what their row reads.** -/
theorem madeUp_of_row (h : IsRow folded parts regexes row) (hlength : parts.length = regexes.length)
    {origin i : Nat} {own : Found} (hi : i ≤ text.size)
    (hown : row.matchFrom text origin i = some own) (hspan : m.span = own.span)
    (hgroups : ∀ n ≤ row.groups, (m.groups[n]?).join = own.group? n) :
    MadeUpBy m ((List.range parts.length).map (partGroup regexes)) := by
  unfold MadeUpBy
  rw [hspan]
  refine (h.tiled hi hown).congr fun k hk => hgroups k ?_
  obtain ⟨i, hi, rfl⟩ := List.mem_map.mp hk
  have := groupsOf_take_le regexes i
  rw [h.groups, partGroup]
  rw [List.mem_range] at hi
  omega

/-- What a search of the rules of a mode finds is read by one of them. -/
theorem exists_reads {outer : Nat} (hc : compileLanguage name l = .ok arena)
    (houter : outer < arena.modes.size)
    (hplain : ∀ r ∈ (arena.mode outer).rules.rules, Plain l.caseInsensitive r.source) {i first next : Nat}
    (hm : (arena.mode outer).rules.next text i first = .ok (some m, next)) :
    ∃ r ∈ (arena.mode outer).rules.rules, m.kind = r.kind ∧ m.span.start ≤ text.size ∧
      ∃ origin, r.reads l.caseInsensitive text origin m.span.start m.rule = some m := by
  obtain ⟨_, hmake⟩ := (made_mode hc houter).rules
  obtain ⟨hrules, hfolded, _⟩ := RuleSet.make_eq_ok hmake
  obtain ⟨origin, hread⟩ := reads_of_next hmake (hrules ▸ hplain) hm
  obtain ⟨r, hr, hread⟩ := Option.bind_eq_some_iff.mp hread
  rw [hfolded] at hread
  exact ⟨r, List.mem_of_getElem? hr, kind_of_reads hread, (reads_eq_some hread).2.2, origin, hread⟩

/-- The rule for the beginning of a mode has the pattern of its beginning. -/
theorem eq_begins_of_mem (hw : WellFormed arena) {outer id : Nat} (houter : outer < arena.modes.size)
    {r : Rule} (hr : r ∈ (arena.mode outer).rules.rules) (hk : r.kind = .begins id) :
    r = ⟨.begins id, (arena.mode id).beginSource⟩ := by
  rw [hw.rules outer houter] at hr
  rcases List.mem_append.mp hr with hr | hr
  · rcases List.mem_append.mp hr with hr | hr
    · obtain ⟨c, _, rfl⟩ := List.mem_map.mp hr
      cases hk
      rfl
    · split at hr
      · cases hr
      · rw [List.mem_singleton.mp hr] at hk
        cases hk
  · obtain ⟨_, _, rfl⟩ := List.mem_map.mp hr
    cases hk

theorem madeUp_of_begins (hc : compileLanguage name l = .ok arena)
    (h : IsRow l.caseInsensitive parts regexes row) (hlength : parts.length = regexes.length)
    (hrow : Pattern.compile (merge parts "") l.caseInsensitive = .ok row) {outer id : Nat}
    (hsource : (arena.mode id).beginSource = merge parts "") (houter : outer < arena.modes.size)
    (hplain : ∀ r ∈ (arena.mode outer).rules.rules, Plain l.caseInsensitive r.source) {i first next : Nat}
    (hm : (arena.mode outer).rules.next text i first = .ok (some m, next))
    (hkind : m.kind = .begins id) :
    MadeUpBy m ((List.range parts.length).map (partGroup regexes)) := by
  obtain ⟨r, hr, hk, hstart, origin, hread⟩ := exists_reads hc houter hplain hm
  have hr := eq_begins_of_mem (wellFormed_of_compileLanguage hc) houter hr (hk.symm.trans hkind)
  rw [← hsource] at hrow
  obtain ⟨own, hown, hspan, hgroups⟩ := found_of_reads (by rw [hr]; exact hrow) hread
  refine madeUp_of_row h hlength hstart hown hspan fun n hn => ?_
  rw [hgroups, List.getElem?_map, List.getElem?_range (Nat.lt_succ_of_le hn)]
  rfl

theorem madeUp_of_ends (hc : compileLanguage name l = .ok arena)
    (h : IsRow l.caseInsensitive parts regexes row) (hlength : parts.length = regexes.length)
    (hrow : Pattern.compile (merge parts "") l.caseInsensitive = .ok row) {id : Nat}
    (hid : id < arena.modes.size) {outer : List String}
    (hends : EndsThrough l (arena.mode id) (merge parts "" :: outer))
    (hjoined : ∀ e ∈ merge parts "" :: outer, Plain l.caseInsensitive e)
    (hapart : isApart 0 ((merge parts "" :: outer).map String.toList) = true)
    (hplain : ∀ r ∈ (arena.mode id).rules.rules, Plain l.caseInsensitive r.source)
    (horigin : row.node.ignoresOrigin = true) {i first next : Nat}
    (hm : (arena.mode id).rules.next text i first = .ok (some m, next)) (hkind : m.kind = .ends)
    (hown : (row.matchAt text m.span.start).isSome = true) :
    MadeUpBy m ((List.range parts.length).map (partGroup regexes)) := by
  obtain ⟨r, hr, hk, hstart, origin, hread⟩ := exists_reads hc hid hplain hm
  rw [eq_ends_of_mem (made_mode hc hid) hr (hk.symm.trans hkind)] at hread
  obtain ⟨own, hown⟩ := Option.isSome_iff_exists.mp hown
  rw [matchAt_eq_matchFrom horigin hstart origin] at hown
  have hnone : ∀ s ∈ ([] : List String), ∀ r, Pattern.compile s l.caseInsensitive = .ok r →
      r.groups = 0 ∧ r.matchFrom text origin m.span.start = none := fun s hs => by cases hs
  obtain ⟨hspan, hgroups⟩ := groups_of_end hends hjoined hapart hread hnone hrow hown
  exact madeUp_of_row h hlength hstart hown hspan fun n _ => hgroups n

end Matches

/-! ## 4. Labels and matches -/

/-- **Some groups make up whatever is found of the beginning of a mode**, in any mode of the language
    whose patterns are plain. -/
def MakeUpBeginnings (l : Language) (arena : Arena) (id : Nat) (keys : List Nat) : Prop :=
  ∀ outer < arena.modes.size,
    (∀ r ∈ (arena.mode outer).rules.rules, Plain l.caseInsensitive r.source) →
    ∀ text i first m next, (arena.mode outer).rules.next text i first = .ok (some m, next) →
      m.kind = .begins id → MadeUpBy m keys

/-- **Some groups make up whatever is found of the own end of a mode**: where its patterns are plain,
    and so are the ends that end it, none of which refers to its groups behind groups of others. -/
def MakeUpEnds (l : Language) (arena : Arena) (id : Nat) (own : String) (keys : List Nat) : Prop :=
  ∀ outer, EndsThrough l (arena.mode id) (own :: outer) →
    (∀ e ∈ own :: outer, Plain l.caseInsensitive e) →
    isApart 0 ((own :: outer).map String.toList) = true →
    (∀ r ∈ (arena.mode id).rules.rules, Plain l.caseInsensitive r.source) →
    ∀ regex, (arena.mode id).endRegex = some regex → regex.node.ignoresOrigin = true →
      ∀ text i first m next, (arena.mode id).rules.next text i first = .ok (some m, next) →
        m.kind = .ends → (regex.matchAt text m.span.start).isSome = true → MadeUpBy m keys

/-- **A part that can stand by itself**: its pattern is plain and can be compiled, also where case
    counts. -/
structure IsPart (folded : Bool) (pattern : String) (regex : Regex) : Prop where
  plain : Plain folded pattern
  compiled : Pattern.compile pattern folded = .ok regex
  counted : (groupCount pattern).isOk = true

theorem IsPart.groups {pattern : String} {regex : Regex} (h : IsPart folded pattern regex) :
    groupCount pattern = .ok regex.groups := by
  obtain ⟨n, hn⟩ := exists_of_isOk h.counted
  obtain ⟨p, hp⟩ := has_of_groupCount (r := ⟨.ends, pattern⟩) hn h.plain.clear folded
  obtain ⟨q, _, hq⟩ := exists_compiles h.plain h.compiled
  rw [hp.groups, hq.compiled, compiledPart, hp.chars, hq.chars]

/-- **The labels of parts that can stand by themselves** are at the groups around them. -/
theorem exists_labels (h : List.Forall₂ (IsPart folded) parts regexes)
    (names : Dictionary Nat (Option String)) :
    ∃ labels, labelParts names 1 0 parts = .ok labels ∧
      labels.entries = (List.range parts.length).map (fun i =>
        (partGroup regexes i, (names.get? (i + 1)).join)) ∧
      labels.keys = (List.range parts.length).map (partGroup regexes) := by
  obtain ⟨labels, hlabels, hentries⟩ :=
    exists_labelParts (h.imp fun _ _ => IsPart.groups) names 1 0
  have hentries : labels.entries = (List.range parts.length).map fun i =>
      (partGroup regexes i, (names.get? (i + 1)).join) := by
    rw [hentries]
    refine List.map_congr_left fun i _ => ?_
    rw [partGroup, Nat.add_comm 1 i]
    exact congrArg (·, _) (by omega)
  refine ⟨labels, hlabels, hentries, ?_⟩
  rw [Dictionary.keys, hentries, List.map_map]
  rfl

/-- **What the end of a mode in several parts is compiled to**, and its labels. -/
theorem row_of_ends {m : ArenaMode}
    (h : List.Forall₂ (IsPart l.caseInsensitive) parts regexes)
    (hle : groupsOf regexes + regexes.length ≤ Text.maxCount) (hends : EndsInParts l m parts names)
    (hext : l.extensions = []) :
    ∃ labels row, labelParts names 1 0 parts = .ok labels ∧
      labels.keys = (List.range parts.length).map (partGroup regexes) ∧
      m.endSource = some (merge parts "") ∧ m.endScope = some (.parts labels) ∧
      m.endRegex = some row ∧ Pattern.compile (merge parts "") l.caseInsensitive = .ok row ∧
      IsRow l.caseInsensitive parts regexes row := by
  obtain ⟨labels, hlabels, _, hkeys⟩ := exists_labels h names
  obtain ⟨hsource, hscope, row, hregex, hcompiled⟩ := ends_in_parts hends hext hlabels
  obtain ⟨_, hrow⟩ := compile_sequence (h.imp fun _ _ hp => ⟨hp.plain, hp.compiled⟩) hle
  obtain ⟨row', hcompiled', hisRow⟩ := hrow.resolve_left (by simp [hcompiled])
  cases hcompiled.symm.trans hcompiled'
  exact ⟨labels, row, hlabels, hkeys, hsource, hscope, hregex, hcompiled, hisRow⟩

/-- **Each label stands at the group around its part.** A delimiter in several parts that are plain is
    one pattern, whose labels are as many as the parts: at the number of the group around a part
    stands its label, if it has one. The pattern is plain in turn and can be compiled, unless a part is
    too deep in its group, and the group with this number holds the part. And whatever is found of the
    delimiter in a compiled language, these groups make it up, one after another. -/
theorem labels_at_parts (h : List.Forall₂ (IsPart folded) parts regexes)
    (hle : groupsOf regexes + regexes.length ≤ Text.maxCount)
    (names : Dictionary Nat (Option String)) :
    ∃ labels : Dictionary Nat (Option String),
      labels.entries = (List.range parts.length).map (fun i =>
        (partGroup regexes i, (names.get? (i + 1)).join)) ∧
      (∀ key flags, firstSet flags = none →
        joinDelimiter (some (.sequence parts)) (some (.groups names)) key flags =
          .ok (some (.single (merge parts "")), some (.parts labels))) ∧
      (Plain folded (merge parts "") ∧ (Pattern.compile (merge parts "") folded = .error .tooDeep ∨
        ∃ row, Pattern.compile (merge parts "") folded = .ok row ∧
          IsRow folded parts regexes row)) ∧
      ∀ name l arena, compileLanguage name l = .ok arena → l.extensions = [] →
        l.caseInsensitive = folded → ∀ id < arena.modes.size,
          (BeginsInParts l (arena.mode id) parts names →
            (arena.mode id).beginSource = merge parts "" ∧
            (arena.mode id).beginScope = some (.parts labels) ∧
            MakeUpBeginnings l arena id labels.keys) ∧
          (EndsInParts l (arena.mode id) parts names →
            (arena.mode id).endSource = some (merge parts "") ∧
            (arena.mode id).endScope = some (.parts labels) ∧
            MakeUpEnds l arena id (merge parts "") labels.keys) := by
  obtain ⟨labels, hlabels, hentries, hkeys⟩ := exists_labels h names
  obtain ⟨hplain, hrow⟩ := compile_sequence (h.imp fun _ _ hp => ⟨hp.plain, hp.compiled⟩) hle
  have hlength := h.length_eq
  refine ⟨labels, hentries, fun key flags hflags => ?_, ⟨hplain, hrow⟩, ?_⟩
  · simp only [joinDelimiter, hflags, hlabels, bind, Except.bind]
    rfl
  · rintro name l arena hc hext rfl id hid
    refine ⟨fun hbegins => ?_, fun hends => ?_⟩
    · obtain ⟨hsource, hscope, row, hcompiled⟩ := begins_in_parts hbegins hext hlabels
      obtain ⟨row', hcompiled', hisRow⟩ := hrow.resolve_left (by simp [hcompiled])
      refine ⟨hsource, hscope, fun outer houter hplain text i first m next hm hkind => ?_⟩
      rw [hkeys]
      exact madeUp_of_begins hc hisRow hlength hcompiled' hsource houter hplain hm hkind
    · obtain ⟨labels', row, hlabels', _, hsource, hscope, hregex, hcompiled, hisRow⟩ :=
        row_of_ends h hle hends hext
      cases hlabels.symm.trans hlabels'
      refine ⟨hsource, hscope, fun outer hthrough hjoined hapart hplain regex hregex' horigin text i
        first m next hm hkind hown => ?_⟩
      cases hregex.symm.trans hregex'
      rw [hkeys]
      exact madeUp_of_ends hc hisRow hlength hcompiled hid hthrough hjoined hapart hplain horigin hm
        hkind hown

theorem isParts_of_checks (h : parts.mapM (Pattern.compile · folded) = .ok regexes)
    (hclear : ∀ p ∈ parts, Clear 0 p.toList)
    (hsteady : ∀ p ∈ parts, Pattern.isSteady folded p.toList = true)
    (hcounted : ∀ p ∈ parts, (groupCount p).isOk = true) :
    List.Forall₂ (IsPart folded) parts regexes := by
  have hall := forall₂_of_mapM h
  clear h
  induction hall with
  | nil => exact .nil
  | @cons p _ _ _ hp _ ih =>
    exact .cons ⟨⟨hclear p List.mem_cons_self, hsteady p List.mem_cons_self⟩, hp,
        hcounted p List.mem_cons_self⟩
      (ih (fun q hq => hclear q (List.mem_cons_of_mem p hq))
        (fun q hq => hsteady q (List.mem_cons_of_mem p hq))
        fun q hq => hcounted q (List.mem_cons_of_mem p hq))

/-- Labels for the first part and for one that is not there. -/
def firstLabelled : Dictionary Nat (Option String) := .ofList [(1, some "p"), (2, none), (7, some "z")]

/-- A mode that begins and ends with some parts. -/
def betweenParts (parts : List String) : Mode where
  beginPattern := some (.sequence parts)
  beginScope := some (.groups firstLabelled)
  endPattern := some (.sequence parts)
  endScope := some (.groups firstLabelled)

/-- A language of such modes. -/
def partsLanguage (parts : List String) : Language where
  mode := { contains := some [.mode ⟨[("parts", 0)], betweenParts parts⟩] }

theorem writtenWith_parts (parts : List String) :
    WrittenWith (partsLanguage parts) fun raw => raw = betweenParts parts := by
  refine ⟨rfl, rfl, ?_, ?_, ?_⟩
  · rintro raw (rfl | rfl) <;> rfl
  · rintro raw (rfl | rfl) c hc es hes s hs
    · obtain rfl := List.mem_singleton.mp hc
      cases hes
      cases List.mem_singleton.mp hs
      rfl
    · cases hc
  · rintro raw rfl s hs
    cases hs

/-- What is doubled in two parts has its label at the first group, and nothing at the third. -/
theorem doubled_parts_labelled : ∃ arena regexes labels m next,
    compileLanguage "l" (partsLanguage ["(a)\\1", "(b)\\1"]) = .ok arena ∧
    List.Forall₂ (IsPart false) ["(a)\\1", "(b)\\1"] regexes ∧
    groupsOf regexes + regexes.length ≤ Text.maxCount ∧
    labels.entries = [(1, some "p"), (3, none)] ∧
    (arena.mode 1).beginScope = some (.parts labels) ∧
    (arena.mode 1).endScope = some (.parts labels) ∧
    (arena.mode 0).rules.next (Text.ofString "aabb") 0 0 = .ok (some m, next) ∧
    MadeUpBy m [1, 3] := by
  have hregexes : (["(a)\\1", "(b)\\1"].mapM (Pattern.compile · false)).toOption.any (fun regexes =>
      regexes.map (·.groups) == [1, 1]) = true := by decide +kernel
  obtain ⟨regexes, hcompiled, hgroups⟩ := exists_of_any hregexes
  obtain ⟨r, _, rfl, hr, hgroups⟩ := List.map_eq_cons_iff.mp (beq_iff_eq.mp hgroups)
  obtain ⟨r', _, rfl, hr', hgroups⟩ := List.map_eq_cons_iff.mp hgroups
  obtain rfl := List.map_eq_nil_iff.mp hgroups
  have hparts : List.Forall₂ (IsPart false) ["(a)\\1", "(b)\\1"] [r, r'] :=
    isParts_of_checks hcompiled (by unfold Clear; decide +kernel) (by decide +kernel)
      (by decide +kernel)
  have hle : groupsOf [r, r'] + [r, r'].length ≤ Text.maxCount := by
    rw [show groupsOf [r, r'] + [r, r'].length = 4 by simp [groupsOf, hr, hr']]
    decide +kernel
  have hcheck : (compileLanguage "l" (partsLanguage ["(a)\\1", "(b)\\1"])).toOption.any (fun arena =>
      arena.modes.size == 2 && (arena.mode 1).endSource.isSome &&
        (arena.mode 0).rules.rules == [⟨.begins 1, merge ["(a)\\1", "(b)\\1"] ""⟩] &&
        ((arena.mode 0).rules.next (Text.ofString "aabb") 0 0).toOption.any fun found =>
          found.1.any (·.kind == .begins 1)) = true := by decide +kernel
  obtain ⟨arena, hc, hcheck⟩ := exists_of_any hcheck
  simp only [Bool.and_eq_true, beq_iff_eq] at hcheck
  obtain ⟨⟨⟨hsize, hends⟩, hrules⟩, hfound⟩ := hcheck
  obtain ⟨⟨found, next⟩, hnext, hbegins⟩ := exists_of_any hfound
  obtain ⟨m, rfl, hkind⟩ := (Option.any_eq_true _ _).mp hbegins
  obtain ⟨parent, key, raw, p, rfl, hp, hm⟩ := (writtenWith_parts _).compiled hc hends
  have hwritten : written ((key.map Key.place).getD [("root", 0)])
      (betweenParts ["(a)\\1", "(b)\\1"]) = .ok (betweenParts ["(a)\\1", "(b)\\1"]) := rfl
  obtain ⟨labels, hentries, _, ⟨hplain, _⟩, hlanguages⟩ :=
    labels_at_parts hparts hle firstLabelled
  obtain ⟨hbegin, hend⟩ := hlanguages "l" _ arena hc rfl rfl 1 (by omega)
  obtain ⟨_, hbeginScope, hmade⟩ := hbegin ⟨parent, key, _, p, _, hp, hm, hwritten, rfl, rfl, rfl⟩
  obtain ⟨_, hendScope, _⟩ := hend ⟨parent, key, _, p, _, hp, hm, hwritten, rfl, rfl⟩
  have hlabels : labels.entries = [(1, some "p"), (3, none)] := by
    rw [hentries]
    simp only [List.length_cons, List.length_nil, List.range, List.range.loop, List.map_cons,
      List.map_nil, partGroup, List.take, groupsOf, hr]
    decide +kernel
  refine ⟨arena, _, labels, m, next, hc, hparts, hle, hlabels, hbeginScope, hendScope, hnext, ?_⟩
  have hmade := hmade 0 (by omega) (fun r hr => ?_) _ _ _ m next hnext (by simpa using hkind)
  · rwa [Dictionary.keys, hlabels] at hmade
  · rw [hrules] at hr
    rw [List.mem_singleton.mp hr]
    exact hplain

/-- **A parenthesis that belongs to an escape is taken for a group**: both parts can be compiled, and so
    can their row with the reference moved behind the two groups before it; but it is moved by one
    more, and the delimiter cannot be compiled. -/
theorem control_takes_parenthesis :
    (∀ p ∈ ["\\c(", "(a)\\1"], (Pattern.compile p false).isOk = true ∧ (groupCount p).isOk = true) ∧
    merge ["\\c(", "(a)\\1"] "" = "(\\c()((a)\\4)" ∧
    (Pattern.compile "(\\c()((a)\\3)" false).isOk = true ∧
    (Pattern.compile "(\\c()((a)\\4)" false).isOk = false ∧
    Pattern.compile "(\\c()((a)\\4)" false ≠ .error .tooDeep ∧
    (compileLanguage "l" (partsLanguage ["\\c(", "(a)\\1"])).isOk = false := by
  decide +kernel

end Highlight.Arena
