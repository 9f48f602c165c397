import Highlight.Proofs.Arena.Joined

/-!
# Where a mode ends

The terminator of a mode that ends with its parent is its own end with that of the mode around it
behind a bar. Level by level that makes a list of ends, the innermost first, and the rule for the end
of the mode stands for any of them.

* `CompiledUnder`, `under_of_follows` -- a mode compiled inside one with a terminator, as what follows
  a mode is;
* `WrittenWith` -- the modes that a language is written with;
* `EndsThrough` -- the ends that end a mode, level by level;
* `EndsThrough.terminator`, `EndsThrough.compiled` -- its terminator joins them, and each can be
  compiled;
* `groups_of_end`, `unread_of_end` -- a match of the end of a mode has the groups of the end that has
  matched, and leaves those of the own end unread else;
* `ends_where_parts_end` -- **a mode that ends with its parent ends where its own end or that of the
  mode around it reads something**;
* `part_misses_doubled` -- a reference of the outer end leads to a group of the own end.
-/

namespace Highlight.Arena

open Highlight.Grammar
open Regex Pattern

variable {name : String} {l : Language} {arena : Arena} {m m' : ArenaMode} {t e : String}
  {es : List String}

/-! ## 1. Modes inside modes -/

/-- **A mode is compiled inside one with terminator `t`.** -/
def CompiledUnder (l : Language) (m : ArenaMode) (t : String) : Prop :=
  ∃ parent key raw p, compileParts l (some parent) key raw = .ok p ∧ parent.terminator = t ∧
    m = p.assemble m.contains m.starts m.rules

/-- The delimiters of a mode inside another one. -/
theorem delimiters_inside {parent : Parent} {key : Option Key} {raw : Mode} {p : Parts}
    (h : compileParts l (some parent) key raw = .ok p) :
    p.delimiters.endSource = ownEnd p.prepared.mode ∧
      (ownEnd p.prepared.mode).mapM (fun source => compilePattern source l.caseInsensitive) =
        .ok p.delimiters.endRegex := by
  obtain ⟨_, _, h⟩ := exists_of_bind (delimiters_of_compileParts h)
  obtain ⟨endRegex, hend, h⟩ := exists_of_bind h
  generalize p.delimiters = delimiters at h
  cases h
  exact ⟨rfl, hend⟩

/-- Its terminator is its own end, with that of the other mode behind it if it ends with that. -/
theorem CompiledUnder.terminator (h : CompiledUnder l m t) : m.terminator =
    if m.endsWithParent && t != "" then
      match m.endSource with
      | some own => own ++ "|" ++ t
      | none => t
    else m.endSource.getD "" := by
  obtain ⟨parent, key, raw, p, hp, rfl, hm⟩ := h
  have hsource : m.endSource = ownEnd p.prepared.mode :=
    (congrArg ArenaMode.endSource hm).trans (delimiters_inside hp).1
  have hends : m.endsWithParent = isSet p.prepared.mode.endsWithParent :=
    congrArg ArenaMode.endsWithParent hm
  rw [hsource, hends]
  exact (congrArg ArenaMode.terminator hm).trans (terminator_of_compileParts hp)

/-- It is its own end alone, if it does not end with the other mode or that has no end. -/
theorem CompiledUnder.terminator_own (h : CompiledUnder l m t)
    (hends : m.endsWithParent = false ∨ t = "") : m.terminator = m.endSource.getD "" := by
  have hcond : (m.endsWithParent && t != "") = false := by
    rcases hends with hends | rfl
    · rw [hends, Bool.false_and]
    · rw [bne_self_eq_false, Bool.and_false]
  have hterminator := h.terminator
  rw [hcond] at hterminator
  exact hterminator

/-- Its own end has been compiled. -/
theorem CompiledUnder.compiled (h : CompiledUnder l m t) (he : m.endSource = some e) :
    ∃ regex, m.endRegex = some regex ∧ Pattern.compile e l.caseInsensitive = .ok regex := by
  obtain ⟨parent, key, raw, p, hp, _, hm⟩ := h
  obtain ⟨hsource, hregex⟩ := delimiters_inside hp
  have hown : ownEnd p.prepared.mode = some e :=
    (hsource.symm.trans (congrArg ArenaMode.endSource hm).symm).trans he
  rw [hown] at hregex
  obtain ⟨regex, hcompiled, hsome⟩ := exists_of_bind (x := compilePattern e l.caseInsensitive)
    (f := fun regex => .ok (some regex)) hregex
  refine ⟨regex, ?_, ok_of_mapError hcompiled⟩
  exact (congrArg ArenaMode.endRegex hm).trans (Except.ok.inj hsome).symm

/-- The root has no delimiters. -/
theorem delimiters_root {key : Option Key} {raw : Mode} {p : Parts}
    (h : compileParts l none key raw = .ok p) : p.delimiters.endSource = none ∧
      p.delimiters.endRegex = none ∧ p.delimiters.terminator = "" := by
  have hdelimiters : _ = Except.ok p.delimiters := delimiters_of_compileParts h
  rw [← Except.ok.inj hdelimiters]
  exact ⟨rfl, rfl, rfl⟩

/-- A mode is compiled inside another one, or has no end. -/
theorem under_or_endless {parent : Option Parent} {key : Option Key} {raw : Mode} {p : Parts}
    (hp : compileParts l parent key raw = .ok p) (hm : m = p.assemble m.contains m.starts m.rules) :
    CompiledUnder l m (outerTerminator parent) ∨
      outerTerminator parent = "" ∧ m.endSource = none ∧ m.endRegex = none ∧ m.terminator = "" := by
  cases parent with
  | some outer => exact .inl ⟨outer, key, raw, p, hp, rfl, hm⟩
  | none =>
    obtain ⟨hsource, hregex, hterminator⟩ := delimiters_root hp
    exact .inr ⟨rfl, (congrArg ArenaMode.endSource hm).trans hsource,
      (congrArg ArenaMode.endRegex hm).trans hregex,
      (congrArg ArenaMode.terminator hm).trans hterminator⟩

theorem Made.under_or_endless {size : Nat} (h : Made l size m) : (∃ t, CompiledUnder l m t) ∨
    m.endSource = none ∧ m.endRegex = none ∧ m.terminator = "" := by
  obtain ⟨parent, key, raw, p, hp, hm⟩ := h.parts
  exact (Arena.under_or_endless hp hm).imp (fun hunder => ⟨_, hunder⟩) And.right

/-- The end of a mode is looked for with the pattern that it is compiled from. -/
theorem Made.end_of_regex {size : Nat} {regex : Regex} (h : Made l size m)
    (hregex : m.endRegex = some regex) :
    ∃ e, m.endSource = some e ∧ Pattern.compile e l.caseInsensitive = .ok regex := by
  rcases h.under_or_endless with ⟨t, parent, key, raw, p, hp, _, hm⟩ | ⟨_, hnone, _⟩
  · obtain ⟨hsource, hmap⟩ := delimiters_inside hp
    have hsome : p.delimiters.endRegex = some regex :=
      (congrArg ArenaMode.endRegex hm).symm.trans hregex
    rw [hsome] at hmap
    have hrel := rel_of_mapM hmap
    cases hown : ownEnd p.prepared.mode with
    | none => rw [hown] at hrel; cases hrel
    | some e =>
      rw [hown] at hrel
      cases hrel with
      | some hcompiled =>
        exact ⟨e, (congrArg ArenaMode.endSource hm).trans (hsource.trans hown),
          ok_of_mapError hcompiled⟩
  · rw [hnone] at hregex
    cases hregex

/-- **A mode that follows another one and ends with its parent is compiled inside one with the
    terminator of the other one**, if it is not started where that stands inside itself; unless
    neither has an end. -/
theorem under_of_follows {p c : Nat} (hc : compileLanguage name l = .ok arena)
    (hext : l.extensions = []) (hfollows : Follows arena p c) (hself : ¬ StartedInItself arena p c)
    (hends : (arena.mode c).endsWithParent = true) :
    CompiledUnder l (arena.mode c) (arena.mode p).terminator ∨
      (arena.mode p).terminator = "" ∧ (arena.mode c).endSource = none ∧
        (arena.mode c).terminator = "" := by
  obtain ⟨b, hb⟩ := exists_builtFrom hc
  have hknown := (knownFor_of_follows hext hb hfollows).resolve_right hself
  obtain ⟨parent, key, raw, q, hfrom, _, ht⟩ := from_of_knownFor hext hb hknown hends
  rw [← ht]
  exact (Arena.under_or_endless hfrom.parts hfrom.assembled).imp_right fun h =>
    ⟨h.1, h.2.1, h.2.2.2⟩

/-- **A language is written with some modes** inside its root: these, and those they refer to, of
    which nothing comes before any. -/
structure WrittenWith (l : Language) (Ok : Mode → Prop) : Prop where
  extensions : l.extensions = []
  starts : l.mode.starts = none
  before : ∀ raw, raw = l.mode ∨ Ok raw → raw.beforeMatch = none
  contained : ∀ raw, raw = l.mode ∨ Ok raw → ∀ c ∈ raw.contains.getD [], ∀ es,
    entryOf l.repository c = .ok es → ∀ s, some s ∈ es → Ok s.value
  started : ∀ raw, Ok raw → ∀ s, raw.starts = some s → Ok s.value

section Written

variable {Ok : Mode → Prop}

/-- They are linked as they are written. -/
theorem WrittenWith.links (h : WrittenWith l Ok) {parent : Option Parent} {key : Option Key}
    {raw : Mode} {p : Parts} (hraw : raw = l.mode ∨ Ok raw)
    (hp : compileParts l parent key raw = .ok p) : linksOf p.prepared.mode = linksOf raw := by
  have hprepare := prepare_of_compileParts hp
  rw [h.extensions] at hprepare
  obtain ⟨v, hv, ⟨_, hlinks⟩ | ⟨before, hbefore, _⟩⟩ := links_prepare hprepare
  · exact hlinks
  · rw [(links_spelled hv).2.1, h.before raw hraw] at hbefore
    cases hbefore

theorem WrittenWith.passes (h : WrittenWith l Ok) :
    Passes l fun inside _ raw => inside = true ∧ Ok raw := by
  have hraw : ∀ {parent : Option Parent} {key : Option Key} {raw : Mode},
      Admitted l (fun inside _ raw => inside = true ∧ Ok raw) parent raw key →
        raw = l.mode ∨ parent.isSome = true ∧ Ok raw := by
    intro parent key raw hadmitted
    cases key with
    | none => exact .inl hadmitted.2
    | some key => exact .inr hadmitted.1
  refine ⟨fun {parent key raw p c es s} hadmitted hp hc hes hs => ?_,
    fun {parent key raw p s} hadmitted hp hs => ?_⟩
  · have hraw := (hraw hadmitted).imp_right And.right
    have hcontains := congrArg Links.contains (h.links hraw hp)
    rw [show p.prepared.mode.contains = raw.contains from hcontains] at hc
    exact ⟨rfl, h.contained raw hraw c hc es hes s hs⟩
  · have hstarts := congrArg Links.starts (h.links ((hraw hadmitted).imp_right And.right) hp)
    rw [show p.prepared.mode.starts = raw.starts from hstarts] at hs
    rcases hraw hadmitted with rfl | ⟨hinside, hok⟩
    · rw [h.starts] at hs
      cases hs
    · exact ⟨hinside, h.started raw hok s hs⟩

/-- A compiled mode that has an end is one of those that the language is written with. -/
theorem WrittenWith.compiled (h : WrittenWith l Ok) (hc : compileLanguage name l = .ok arena) {id : Nat}
    (he : (arena.mode id).endSource.isSome = true) : ∃ parent key raw p, Ok raw ∧
      compileParts l (some parent) key raw = .ok p ∧ arena.mode id =
        p.assemble (arena.mode id).contains (arena.mode id).starts (arena.mode id).rules := by
  obtain ⟨b, hb, hmodes, _⟩ := coherent_of_compileLanguage h.passes hc
  rcases filled_mode hb hmodes id with hblank | ⟨parent, key, raw, p, hfrom, hadmitted, _⟩
  · rw [hblank] at he
    cases he
  · have hassembled := hfrom.assembled
    cases key with
    | none =>
      obtain ⟨rfl, rfl⟩ := hadmitted
      rw [hassembled, show (p.assemble _ _ _).endSource = none from
        (delimiters_root hfrom.parts).1] at he
      cases he
    | some key =>
      obtain ⟨⟨hinside, hok⟩, _⟩ := hadmitted
      obtain ⟨outer, rfl⟩ := Option.isSome_iff_exists.mp hinside
      exact ⟨outer, some key, raw, p, hok, hfrom.parts, hassembled⟩

end Written

/-! ## 2. Level by level -/

/-- **The ends that end a mode, the innermost first**: its own; and if it ends with its parent, those
    that end the mode that it was compiled in. -/
inductive EndsThrough (l : Language) : ArenaMode → List String → Prop
  | own {m : ArenaMode} {t e : String} : CompiledUnder l m t → (m.endsWithParent = false ∨ t = "") →
      m.endSource = some e → e ≠ "" → EndsThrough l m [e]
  | parent {m m' : ArenaMode} {es : List String} : CompiledUnder l m m'.terminator →
      m.endsWithParent = true → EndsThrough l m' es → EndsThrough l m (m.endSource.toList ++ es)

/-- A mode that does not end with another one has its own end, or none. -/
theorem CompiledUnder.ends_itself (h : CompiledUnder l m t)
    (hends : m.endsWithParent = false ∨ t = "") (hne : ∀ e ∈ m.endSource.toList, e ≠ "") :
    m.endSource.toList = [] ∧ m.terminator = "" ∨ EndsThrough l m m.endSource.toList := by
  cases he : m.endSource with
  | none => exact .inl ⟨rfl, (h.terminator_own hends).trans (congrArg (·.getD "") he)⟩
  | some e => exact .inr (.own h hends he (hne e (Option.mem_toList.mpr he)))

theorem EndsThrough.ne_nil (h : EndsThrough l m es) : es ≠ [] := by
  induction h with
  | own => exact List.cons_ne_nil _ _
  | parent _ _ _ ih => exact fun hnil => ih (List.append_eq_nil_iff.mp hnil).2

theorem append_bar_ne_empty (own t : String) : own ++ "|" ++ t ≠ "" := by
  intro h
  have := congrArg String.length h
  simp at this

/-- **The terminator of a mode joins its ends.** -/
theorem EndsThrough.terminator (h : EndsThrough l m es) :
    m.terminator = String.intercalate "|" es ∧ m.terminator ≠ "" := by
  induction h with
  | @own m t e hunder hends he hne =>
    rw [hunder.terminator_own hends, he]
    exact ⟨String.intercalate_singleton.symm, hne⟩
  | @parent m m' es hunder hends hes ih =>
    have hterminator := hunder.terminator
    rw [hends, bne_iff_ne.mpr ih.2] at hterminator
    cases he : m.endSource with
    | none =>
      rw [he] at hterminator
      rw [show m.terminator = m'.terminator from hterminator]
      exact ih
    | some own =>
      rw [he] at hterminator
      rw [show m.terminator = own ++ "|" ++ m'.terminator from hterminator]
      refine ⟨?_, append_bar_ne_empty own _⟩
      rw [ih.1]
      exact (String.intercalate_cons_of_ne_nil hes.ne_nil).symm

/-- Each of its ends has been compiled. -/
theorem EndsThrough.compiled (h : EndsThrough l m es) :
    ∀ e ∈ es, ∃ regex, Pattern.compile e l.caseInsensitive = .ok regex := by
  induction h with
  | own hunder _ he _ =>
    intro e' he'
    obtain rfl := List.mem_singleton.mp he'
    obtain ⟨regex, _, hregex⟩ := hunder.compiled he
    exact ⟨regex, hregex⟩
  | parent hunder _ _ ih =>
    intro e' he'
    rcases List.mem_append.mp he' with he' | he'
    · obtain ⟨regex, _, hregex⟩ := hunder.compiled (Option.mem_toList.mp he')
      exact ⟨regex, hregex⟩
    · exact ih e' he'

/-! ## 3. What an end reads -/

/-- **What the rule for the end of a mode reads is what the first of its ends reads that reads
    anything**, with the groups of all of them. -/
theorem firstJoined_of_reads {text : Text} {origin i k : Nat} {found : RuleMatch}
    {regexes : List Regex} (hes : EndsThrough l m es)
    (hall : List.Forall₂ (fun s r => Plain l.caseInsensitive s ∧
      Pattern.compile s l.caseInsensitive = .ok r) es regexes)
    (hapart : isApart 0 (es.map String.toList) = true)
    (hread : (Rule.mk .ends m.terminator).reads l.caseInsensitive text origin i k = some found) :
    ∃ m', FirstJoined text origin i 0 regexes (some m') ∧ found.span = m'.span ∧
      found.groups = (List.range (groupsOf regexes + 1)).map m'.group? := by
  obtain ⟨_, joined, hjoined, hgroups, hfirst⟩ := compile_joined hes.ne_nil hall hapart
  rw [← hes.terminator.1] at hjoined
  obtain ⟨m', hm', hspan, hlist⟩ := found_of_reads (r := ⟨.ends, m.terminator⟩) hjoined hread
  have hmatch := hfirst text origin i
  rw [hm'] at hmatch
  exact ⟨m', hmatch, hspan, hgroups ▸ hlist⟩

/-- **A match of the end of a mode has the groups of the end that has matched**, if the ends before it
    read nothing there and have no groups. -/
theorem groups_of_end {before after : List String} {text : Text} {origin i k : Nat}
    {found : RuleMatch} {regex : Regex} {own : Found} (hes : EndsThrough l m (before ++ e :: after))
    (hplain : ∀ s ∈ before ++ e :: after, Plain l.caseInsensitive s)
    (hapart : isApart 0 ((before ++ e :: after).map String.toList) = true)
    (hread : (Rule.mk .ends m.terminator).reads l.caseInsensitive text origin i k = some found)
    (hbefore : ∀ s ∈ before, ∀ r, Pattern.compile s l.caseInsensitive = .ok r →
      r.groups = 0 ∧ r.matchFrom text origin i = none)
    (hregex : Pattern.compile e l.caseInsensitive = .ok regex)
    (hown : regex.matchFrom text origin i = some own) :
    found.span = own.span ∧ ∀ n, (found.groups[n]?).join = own.group? n := by
  have haccepted : ∀ s ∈ before ++ e :: after, Accepted l.caseInsensitive s := fun s hs =>
    ⟨hplain s hs, hes.compiled s hs⟩
  obtain ⟨rb, hrb⟩ := exists_regexes fun s hs => haccepted s (List.mem_append_left _ hs)
  obtain ⟨ra, hra⟩ := exists_regexes fun s (hs : s ∈ after) =>
    haccepted s (List.mem_append_right _ (List.mem_cons_of_mem e hs))
  have hall : List.Forall₂ _ (before ++ e :: after) (rb ++ regex :: ra) :=
    List.rel_append hrb (.cons ⟨hplain e (by simp), hregex⟩ hra)
  obtain ⟨m', hmatch, hspan, hlist⟩ := firstJoined_of_reads hes hall hapart hread
  have hnone : ∀ r ∈ rb, r.groups = 0 ∧ r.matchFrom text origin i = none := fun r hr => by
    obtain ⟨s, hs, _, hcompiled⟩ := exists_of_mem_forall₂ hrb hr
    exact hbefore s hs r hcompiled
  obtain ⟨hspan', hsame, hbeyond⟩ := group?_firstJoined hmatch (fun r hr => (hnone r hr).2)
    (groupsOf_eq_zero fun r hr => (hnone r hr).1) hown
  refine ⟨hspan.trans hspan', fun n => ?_⟩
  rw [hlist, List.getElem?_map, ← hsame n]
  by_cases hn : n < groupsOf (rb ++ regex :: ra) + 1
  · rw [List.getElem?_range hn]
    rfl
  · rw [List.getElem?_eq_none (by simpa using hn)]
    refine (hbeyond n ?_).symm
    rw [groupsOf_append, groupsOf] at hn
    omega

/-- **A match of the end of a mode leaves the groups of the own end unread** where that reads nothing. -/
theorem unread_of_end {after : List String} {text : Text} {origin i k : Nat} {found : RuleMatch}
    {regex : Regex} (hes : EndsThrough l m (e :: after))
    (hplain : ∀ s ∈ e :: after, Plain l.caseInsensitive s)
    (hapart : isApart 0 ((e :: after).map String.toList) = true)
    (hread : (Rule.mk .ends m.terminator).reads l.caseInsensitive text origin i k = some found)
    (hregex : Pattern.compile e l.caseInsensitive = .ok regex)
    (hown : regex.matchFrom text origin i = none) {n : Nat} (hpos : 1 ≤ n) (hn : n ≤ regex.groups) :
    (found.groups[n]?).join = none := by
  obtain ⟨ra, hra⟩ := exists_regexes fun s (hs : s ∈ after) =>
    ⟨hplain s (List.mem_cons_of_mem e hs), hes.compiled s (List.mem_cons_of_mem e hs)⟩
  obtain ⟨m', hmatch, _, hlist⟩ := firstJoined_of_reads hes
    (.cons ⟨hplain e List.mem_cons_self, hregex⟩ hra) hapart hread
  have hbehind : FirstJoined text origin i (0 + groupsOf [regex]) ra (some m') :=
    firstJoined_behind hmatch fun r hr => by rw [List.mem_singleton.mp hr, hown]
  have hunread := unread_firstJoined hbehind (n := n) hpos (by simp only [groupsOf]; omega)
  rw [hlist, List.getElem?_map]
  by_cases hn : n < groupsOf (regex :: ra) + 1
  · rw [List.getElem?_range hn]
    exact hunread
  · rw [List.getElem?_eq_none (by simpa using hn)]
    rfl

/-! ## 4. The end of a mode -/

/-- **A mode that ends with its parent ends where its own end or that of the mode around it reads
    something**: the rule for its end stands for its own end and all those of the other mode, and the
    terminator of that one reads what these read, through any number of levels; if the ends are plain
    and none refers to its groups behind groups of others. -/
theorem ends_where_parts_end (hc : compileLanguage name l = .ok arena) (hm : m ∈ arena.modes)
    (hunder : CompiledUnder l m m'.terminator) (hends : m.endsWithParent = true)
    (he : m.endSource = some e) (hes : EndsThrough l m' es)
    (hplain : ∀ s ∈ e :: es, Plain l.caseInsensitive s)
    (hapart : isApart 0 ((e :: es).map String.toList) = true) :
    m.terminator = e ++ "|" ++ m'.terminator ∧
      StandsForAny l m .ends m.terminator (e :: es) ∧
      (∀ text origin i k,
        ((Rule.mk .ends m.terminator).reads l.caseInsensitive text origin i k).isSome = true ↔
          (spanAt l.caseInsensitive text origin i e).isSome = true ∨
            (spanAt l.caseInsensitive text origin i m'.terminator).isSome = true) ∧
      ∀ text origin i, spanAt l.caseInsensitive text origin i m'.terminator =
        es.findSome? (spanAt l.caseInsensitive text origin i) := by
  have hall : EndsThrough l m (e :: es) := by
    have := hes.parent hunder hends
    rwa [he] at this
  have haccepted : ∀ s ∈ e :: es, Accepted l.caseInsensitive s := fun s hs =>
    ⟨hplain s hs, hall.compiled s hs⟩
  have hmade := (made_of_compileLanguage hc).2 m hm
  obtain ⟨hterminator, hne⟩ := hall.terminator
  obtain ⟨⟨hwhole, _⟩, hreads⟩ := spanAt_joined hall.ne_nil haccepted hapart
  rw [← hterminator] at hwhole hreads
  have hstands := standsForAny_of_made hmade (only_ends hmade hne) hwhole hreads
  rw [List.map_cons, isApart, Bool.and_eq_true] at hapart
  obtain ⟨_, houter⟩ := spanAt_joined hes.ne_nil
    (fun s hs => haccepted s (List.mem_cons_of_mem e hs)) (isApart_mono (Nat.zero_le _) hapart.2)
  rw [← hes.terminator.1] at houter
  refine ⟨?_, hstands, fun text origin i k => ?_, houter⟩
  · rw [hterminator, hes.terminator.1]
    exact String.intercalate_cons_of_ne_nil hes.ne_nil
  · rw [hstands.any text origin i k, houter text origin i, List.findSome?_isSome_iff,
      List.exists_mem_cons_iff]

/-- A language of tags: `<` opens one, a bracket opens a part of it, and a parenthesis a part of
    that. All parts end with the tag. -/
def nestedTags (part tag : String) : Language where
  mode := {
    contains := some [.mode ⟨[("tag", 0)], {
      scope := some (.single "p")
      beginPattern := some (.single "<")
      endPattern := some (.single tag)
      contains := some [.mode ⟨[("part", 0)], {
        scope := some (.single "c")
        beginPattern := some (.single "\\[")
        endPattern := some (.single part)
        endsWithParent := some true
        contains := some [.mode ⟨[("inner", 0)], {
          beginPattern := some (.single "\\(")
          endPattern := some (.single "\\)")
          endsWithParent := some true }⟩] }⟩] }⟩] }

/-- The modes of such a language stand inside one another. -/
def IsNested (part tag : String) (arena : Arena) : Prop :=
  arena.modes.size = 4 ∧ (arena.mode 1).contains = [2] ∧ (arena.mode 2).contains = [3] ∧
    ((arena.mode 1).endSource = some tag ∧ (arena.mode 1).endsWithParent = false) ∧
    ((arena.mode 2).endSource = some part ∧ (arena.mode 2).endsWithParent = true) ∧
    (arena.mode 3).endSource = some "\\)" ∧ (arena.mode 3).endsWithParent = true

instance (part tag : String) (arena : Arena) : Decidable (IsNested part tag arena) :=
  inferInstanceAs (Decidable (_ ∧ _))

/-- Each part of a tag is compiled inside the one around it. -/
theorem nested_parts {part tag : String} (hc : compileLanguage name (nestedTags part tag) = .ok arena)
    (h : IsNested part tag arena) (htag : tag ≠ "") :
    EndsThrough (nestedTags part tag) (arena.mode 1) [tag] ∧
      CompiledUnder (nestedTags part tag) (arena.mode 2) (arena.mode 1).terminator ∧
      CompiledUnder (nestedTags part tag) (arena.mode 3) (arena.mode 2).terminator := by
  obtain ⟨hsize, hin1, hin2, ⟨he1, hends1⟩, ⟨he2, hends2⟩, he3, hends3⟩ := h
  have hself1 : ¬ StartedInItself arena 1 2 := fun h => absurd h.1 (by simp [hin1])
  have hself2 : ¬ StartedInItself arena 2 3 := fun h => absurd h.1 (by simp [hin2])
  obtain ⟨t, hunder⟩ := (made_mode hc (show 1 < arena.modes.size by omega)).under_or_endless.resolve_right
    fun h => by simp [he1] at h
  refine ⟨.own hunder (.inl hends1) he1 htag, ?_, ?_⟩
  · exact (under_of_follows hc rfl (.inside (by simp [hin1])) hself1 hends2).resolve_right
      fun h => by simp [he2] at h
  · exact (under_of_follows hc rfl (.inside (by simp [hin2])) hself2 hends3).resolve_right
      fun h => by simp [he3] at h

/-- What is doubled ends a tag, and so all parts of it. -/
theorem parts_end_with_doubled : ∃ (arena : Arena) (m m' : ArenaMode),
    compileLanguage "l" (nestedTags "\\]" "(b)\\1") = .ok arena ∧ m ∈ arena.modes ∧
      CompiledUnder (nestedTags "\\]" "(b)\\1") m m'.terminator ∧
      EndsThrough (nestedTags "\\]" "(b)\\1") m' ["\\]", "(b)\\1"] ∧
      StandsForAny (nestedTags "\\]" "(b)\\1") m .ends m.terminator
        ["\\)", "\\]", "(b)\\1"] := by
  have hcheck : (compileLanguage "l" (nestedTags "\\]" "(b)\\1")).toOption.any
      (fun arena => decide (IsNested "\\]" "(b)\\1" arena)) = true := by decide +kernel
  obtain ⟨arena, hc, hcheck⟩ := exists_of_any hcheck
  have hnested := of_decide_eq_true hcheck
  obtain ⟨htag, hpart, hinner⟩ := nested_parts hc hnested (by decide)
  obtain ⟨hsize, _, _, _, ⟨he2, hends2⟩, he3, hends3⟩ := hnested
  have hes := htag.parent hpart hends2
  rw [he2] at hes
  have hplain : ∀ s ∈ ["\\)", "\\]", "(b)\\1"], Plain false s := by
    intro s hs
    simp only [List.mem_cons, List.not_mem_nil, or_false] at hs
    rcases hs with rfl | rfl | rfl
    all_goals exact ⟨by unfold Clear; decide +kernel, by decide +kernel⟩
  have hm : arena.mode 3 ∈ arena.modes := mode_mem (by omega)
  exact ⟨arena, _, _, hc, hm, hinner, hes,
    (ends_where_parts_end hc hm hinner hends3 he3 hes hplain (by decide +kernel)).2.1⟩

/-- **Behind a group of the own end, a reference of the end around it leads to that group**: what is
    doubled ends the tag, and does not end a part of it. -/
theorem part_misses_doubled : ∃ (arena : Arena) (m m' : ArenaMode),
    compileLanguage "l" (nestedTags "(a)" "(b)\\1") = .ok arena ∧ m ∈ arena.modes ∧
      CompiledUnder (nestedTags "(a)" "(b)\\1") m m'.terminator ∧ m.endsWithParent = true ∧
      m.endSource = some "(a)" ∧ m'.terminator = "(b)\\1" ∧
      (∀ e ∈ ["(a)", "(b)\\1"], (Pattern.compile e false).isOk = true) ∧
      (spanAt false (Text.ofString "bb") 0 0 m'.terminator).isSome = true ∧
      ∀ k, (Rule.mk .ends m.terminator).reads false (Text.ofString "bb") 0 0 k = none := by
  have hcheck : (compileLanguage "l" (nestedTags "(a)" "(b)\\1")).toOption.any
      (fun arena => decide (IsNested "(a)" "(b)\\1" arena)) = true := by decide +kernel
  obtain ⟨arena, hc, hcheck⟩ := exists_of_any hcheck
  have hnested := of_decide_eq_true hcheck
  obtain ⟨htag, hpart, _⟩ := nested_parts hc hnested (by decide)
  obtain ⟨hsize, _, _, _, ⟨he2, hends2⟩, _⟩ := hnested
  have ht : (arena.mode 1).terminator = "(b)\\1" := htag.terminator.1
  have hterminator := hpart.terminator
  rw [hends2, he2, ht] at hterminator
  refine ⟨arena, _, _, hc, mode_mem (by omega), hpart, hends2, he2, ht, by decide +kernel, ?_,
    fun k => ?_⟩
  · rw [ht]
    decide +kernel
  · rw [show (arena.mode 2).terminator = "(a)|(b)\\1" from hterminator]
    have hspan : spanAt false (Text.ofString "bb") 0 0 "(a)|(b)\\1" = none := by decide +kernel
    exact Option.map_eq_none_iff.mp ((span_reads _ k).trans hspan)

end Highlight.Arena
