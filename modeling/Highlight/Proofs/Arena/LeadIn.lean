import Highlight.Proofs.Arena.Joined
import Highlight.Proofs.Arena.Parts
import Highlight.Proofs.Arena.Sharing
import Highlight.Proofs.Arena.WellFormed
import Highlight.Proofs.Pattern.Ahead

/-!
# Modes that something comes before

A mode that something comes before is compiled to three modes. A lead-in takes its place: it begins
with what comes before, where the beginning of the mode comes next, and ends at once. It starts the
mode between, which contains nothing but the mode itself and ends at once too, wherever that does not
begin. And the mode itself ends the mode between with itself.

* `bareMode`, `prepare_leadIn`, `prepare_bareMode` -- what the compiler makes of the two others;
* `EndsAtOnce` -- a mode that does;
* `contained_written_or_next` -- only a mode between contains what is led in;
* `LeadIn` -- the three modes, and what leads into them;
* `exists_leadIn` -- a mode that something comes before is compiled to three.
-/

namespace Highlight.Arena

open Highlight.Grammar
open Highlight.Pattern (Clear Plain)

variable {l : Language} {name before : String} {arena : Arena} {raw m : Mode} {place : Identity}

/-! ## 1. Preparation -/

/-- A mode with nothing but keywords, a beginning, what it contains and what it starts. -/
def bareMode (keywords : Option Keywords) (beginning : Option String)
    (contains : Option (List (Contained Mode))) (starts : Option (Shared Mode)) : Mode where
  keywords := keywords
  beginPattern := beginning.map .single
  relevance := some 0
  contains := contains
  starts := starts

/-- The pattern of a lead-in. -/
def leadInPattern (before : String) (m : Mode) : String :=
  Pattern.join [before, Pattern.lookahead ((m.beginPattern.map sourceText).getD "")]

theorem leadIn_eq (place : Identity) (m : Mode) (before : String) :
    leadIn place { m with beforeMatch := none } before =
      bareMode m.keywords (some (leadInPattern before m)) none
        (some ⟨("next", 0) :: place, nextMode place m⟩) := rfl

theorem nextMode_eq (place : Identity) (m : Mode) : nextMode place m =
    bareMode none none (some [.mode ⟨("led", 0) :: place, ledMode m⟩]) none := rfl

/-- What is bare is prepared as it is. -/
theorem prepare_bareMode (parent : Option Mode) (keywords : Option Keywords)
    (beginning : Option String) (contains : Option (List (Contained Mode)))
    (starts : Option (Shared Mode)) :
    prepare [] place parent (bareMode keywords beginning contains starts) =
      .ok ⟨bareMode keywords beginning contains starts, none, none, false⟩ := by
  cases beginning <;> cases parent <;> rfl

/-- A mode that something comes before is prepared as its lead-in. -/
theorem prepare_leadIn (parent : Option Mode) (h : spelled raw = .ok m)
    (hbefore : m.beforeMatch = some before) (hstarts : m.starts = none) :
    prepare [] place parent raw =
      .ok ⟨leadIn place { m with beforeMatch := none } before, none, none, false⟩ := by
  have hspell : spellBefore place m = .ok (leadIn place { m with beforeMatch := none } before) := by
    unfold spellBefore
    rw [hbefore, hstarts]
    rfl
  unfold spelled at h
  have hbare : prepare [] place parent _ = _ := prepare_bareMode parent m.keywords
    (some (leadInPattern before m)) none (some ⟨("next", 0) :: place, nextMode place m⟩)
  rw [← leadIn_eq] at hbare
  simp only [prepare, h, hspell, bind, Except.bind] at hbare ⊢
  exact hbare

/-- What is prepared of a mode that something comes before is its lead-in; the mode starts none. -/
theorem leadIn_of_prepare {parent : Option Mode} {q : Prepared}
    (h : prepare [] place parent raw = .ok q) (hm : spelled raw = .ok m)
    (hbefore : m.beforeMatch = some before) :
    m.starts = none ∧ q = ⟨leadIn place { m with beforeMatch := none } before, none, none, false⟩ := by
  obtain ⟨m', hm', ⟨hnone, _⟩ | ⟨_, _, hstarts, _⟩⟩ := links_prepare h
  · cases hm.symm.trans hm'
    cases hnone.symm.trans hbefore
  · cases hm.symm.trans hm'
    exact ⟨hstarts, Except.ok.inj (h.symm.trans (prepare_leadIn parent hm hbefore hstarts))⟩

/-- What is spelled out has none of the older spellings left. -/
theorem spelled_ledMode (h : spelled raw = .ok m) : spelled (ledMode m) = .ok (ledMode m) := by
  have hfields : m.className = none ∧ m.matchPattern = none := by
    have hscope : (spellScope raw).className = none := by
      unfold spellScope
      split
      · rfl
      · assumption
    unfold spelled spellMatch at h
    split at h
    · split at h
      · cases h
      · cases h
        exact ⟨hscope, rfl⟩
    · rename_i hmatch
      cases h
      exact ⟨hscope, hmatch⟩
  unfold spelled spellScope
  rw [show (ledMode m).className = none from hfields.1]
  unfold spellMatch
  rw [show (ledMode m).matchPattern = none from hfields.2]

/-! ## 2. Modes that end at once -/

/-- The pattern that reads nothing, wherever that is. -/
def anywhere : Regex := ⟨.alt (.anchor .noWordEdge) (.anchor .wordEdge), 0⟩

theorem compile_matchEmpty (folded : Bool) : Pattern.compile matchEmpty folded = .ok anywhere := by
  have h : ((Pattern.compile matchEmpty folded).toOption == some anywhere) = true := by
    cases folded <;> decide +kernel
  have h := beq_iff_eq.mp h
  cases hc : Pattern.compile matchEmpty folded with
  | error f => rw [hc] at h; cases h
  | ok regex => rw [hc] at h; exact congrArg Except.ok (Option.some.inj h)

theorem matchFrom_anywhere (text : Text) (origin i : Nat) :
    anywhere.matchFrom text origin i = some ⟨⟨i, i⟩, []⟩ := by
  unfold Regex.matchFrom anywhere Regex.Node.run Regex.Node.run Regex.Anchor.holds
  by_cases h : Regex.wordBefore text i = Regex.wordAt text i
  · simp [h]
  · simp [h]

theorem plain_matchEmpty (folded : Bool) : Plain folded matchEmpty :=
  ⟨by unfold Clear; decide +kernel, by cases folded <;> decide +kernel⟩

theorem spanAt_matchEmpty {folded : Bool} {text : Text} {i : Nat} (origin : Nat)
    (hi : i ≤ text.size) : spanAt folded text origin i matchEmpty = some ⟨i, i⟩ := by
  rw [spanAt_of_compile (compile_matchEmpty folded) hi, matchFrom_anywhere]
  rfl

/-- **Where a mode can end anywhere, every search finds something at once**: what one of the rules before
    the end reads there, or else the end. -/
theorem finds_at_once {rules : List Rule} {folded : Bool} {rs : RuleSet} {text : Text} {i : Nat}
    (hmake : RuleSet.make (rules ++ [⟨.ends, matchEmpty⟩]) folded = .ok rs)
    (hplain : ∀ r ∈ rules, Plain folded r.source) (hi : i ≤ text.size) :
    ∃ m first, rs.next text i 0 = .ok (some m, first) ∧ m.span.start = i ∧
      ((∃ r ∈ rules, m.kind = r.kind ∧ spanAt folded text i i r.source = some m.span) ∨
        m.kind = .ends ∧ m.span = ⟨i, i⟩ ∧ ∀ r ∈ rules, spanAt folded text i i r.source = none) := by
  obtain ⟨hrules, hfolded, _⟩ := RuleSet.make_eq_ok hmake
  obtain ⟨found, hnext, hfirst⟩ := isFirst_next hmake (fun r hr => by
    rcases List.mem_append.mp hr with hr | hr
    · exact hplain r hr
    · rw [List.mem_singleton.mp hr]
      exact plain_matchEmpty folded) text i
  have hreads : ∀ {k : Nat} {r : Rule}, (rules ++ [⟨.ends, matchEmpty⟩])[k]? = some r →
      ∀ j, (rs.reads text i j k).map (·.span) = spanAt folded text i j r.source := by
    intro k r hk j
    rw [RuleSet.reads, hrules, hk, hfolded]
    exact span_reads r k
  have hend := hreads (List.getElem?_concat_length (l := rules)) i
  rw [spanAt_matchEmpty i hi] at hend
  obtain ⟨e, he, hspan⟩ := Option.map_eq_some_iff.mp hend
  cases found with
  | none => exact absurd (he.symm.trans (hfirst i rules.length (Nat.le_refl i))) (by simp)
  | some m =>
    obtain ⟨hle, hread, hbefore, hearlier⟩ := hfirst
    have hstart : m.span.start = i := by
      refine Nat.le_antisymm (Nat.le_of_not_lt fun hlt => ?_) hle
      exact absurd (he.symm.trans (hearlier i rules.length (Nat.le_refl i) hlt)) (by simp)
    refine ⟨m, _, hnext, hstart, ?_⟩
    rw [hstart] at hread hbefore
    rcases Nat.lt_trichotomy m.rule rules.length with hlt | heq | hgt
    · obtain ⟨rule, hrule, hown⟩ := Option.bind_eq_some_iff.mp hread
      rw [hrules] at hrule
      have hspan := hreads hrule i
      rw [hread, Option.map_some] at hspan
      rw [List.getElem?_append_left hlt] at hrule
      exact .inl ⟨rule, List.mem_of_getElem? hrule, kind_of_reads hown, hspan.symm⟩
    · rw [heq] at hread hbefore
      cases he.symm.trans hread
      refine .inr ⟨?_, hspan, fun r hr => ?_⟩
      · obtain ⟨rule, hrule, hreads⟩ := Option.bind_eq_some_iff.mp he
        rw [hrules, List.getElem?_concat_length] at hrule
        cases hrule
        exact kind_of_reads hreads
      · obtain ⟨k, hk, rfl⟩ := List.mem_iff_getElem.mp hr
        rw [← hreads (k := k) (by rw [List.getElem?_append_left hk, List.getElem?_eq_getElem hk]) i,
          hbefore k hk]
        rfl
    · exact absurd (he.symm.trans (hbefore _ hgt)) (by simp)

/-- **A mode that ends at once**: it ends with nothing, wherever that is, and has no flags, no labels
    for its delimiters and no hooks. -/
structure EndsAtOnce (m : ArenaMode) : Prop where
  endSource : m.endSource = some matchEmpty
  endRegex : m.endRegex = some anywhere
  terminator : m.terminator = matchEmpty
  illegal : m.illegal = none
  endsAlone : m.endsWithParent = false ∧ m.endsParent = false
  returnsNothing : m.returnBegin = false ∧ m.returnEnd = false
  hookless : m.onBegin = none ∧ m.onEnd = none
  handsNothing : m.subLanguage = none
  skipAfterDot : m.skipAfterDot = false

/-- What is bare ends at once, inside another mode. -/
theorem endsAtOnce_of_bare {parent : Parent} {key : Option Key} {p : Parts}
    {keywords : Option Keywords} {beginning : Option String}
    {contains : Option (List (Contained Mode))} {starts : Option (Shared Mode)} {c : ArenaMode}
    (hp : compileParts l (some parent) key raw = .ok p)
    (hbare : p.prepared = ⟨bareMode keywords beginning contains starts, none, none, false⟩)
    (hc : c = p.assemble c.contains c.starts c.rules) :
    EndsAtOnce c ∧ c.beginSource = beginning.getD matchEmpty := by
  have hsource : c.endSource = some matchEmpty := by
    refine (congrArg ArenaMode.endSource hc).trans ((delimiters_inside hp).1.trans ?_)
    rw [hbare]
    rfl
  have hunder : CompiledUnder l c parent.terminator := ⟨parent, key, raw, p, hp, rfl, hc⟩
  have hterminator := hunder.terminator
  obtain ⟨regex, hregex, hcompiled⟩ := hunder.compiled hsource
  cases (compile_matchEmpty l.caseInsensitive).symm.trans hcompiled
  have hillegal : p.illegal = none := by
    rw [(madeParts hp).illegal, hbare]
    rfl
  have hbegin : p.delimiters.beginSource = beginning.getD matchEmpty := by
    rw [(beginSource_inside hp).1, hbare]
    cases beginning <;> rfl
  obtain ⟨prepared, delimiters, illegal, words⟩ := p
  cases hbare
  have hends : c.endsWithParent = false := by rw [hc]; rfl
  rw [hends, hsource] at hterminator
  refine ⟨⟨hsource, hregex, hterminator, (congrArg ArenaMode.illegal hc).trans hillegal, ⟨hends, ?_⟩,
    ⟨?_, ?_⟩, ⟨?_, ?_⟩, ?_, ?_⟩, (congrArg ArenaMode.beginSource hc).trans hbegin⟩
  all_goals rw [hc]; rfl

/-- The rules of a mode that ends at once are the beginnings of what it contains, and its end. -/
theorem EndsAtOnce.rules {id : Nat} (h : EndsAtOnce (arena.mode id)) (hwell : WellFormed arena)
    (hid : id < arena.modes.size) : (arena.mode id).rules.rules =
      (arena.mode id).contains.map (fun c => ⟨.begins c, (arena.mode c).beginSource⟩) ++
        [⟨.ends, matchEmpty⟩] := by
  have hne : ¬ matchEmpty = "" := by decide
  rw [hwell.rules id hid, h.terminator, h.illegal, if_neg hne]
  exact List.append_nil _

/-- **A search in a mode that ends at once finds something at once**: the beginning of what the mode
    contains, or else its end. -/
theorem EndsAtOnce.finds {id : Nat} {text : Text} {i : Nat} (h : EndsAtOnce (arena.mode id))
    (hc : compileLanguage name l = .ok arena) (hid : id < arena.modes.size)
    (hplain : ∀ c ∈ (arena.mode id).contains, Plain l.caseInsensitive (arena.mode c).beginSource)
    (hi : i ≤ text.size) :
    ∃ m first, (arena.mode id).rules.next text i 0 = .ok (some m, first) ∧ m.span.start = i ∧
      ((∃ c ∈ (arena.mode id).contains, m.kind = .begins c ∧
          spanAt l.caseInsensitive text i i (arena.mode c).beginSource = some m.span) ∨
        m.kind = .ends ∧ m.span = ⟨i, i⟩ ∧ ∀ c ∈ (arena.mode id).contains,
          spanAt l.caseInsensitive text i i (arena.mode c).beginSource = none) := by
  obtain ⟨_, hmake⟩ := (made_mode hc hid).rules
  have hrules := h.rules (wellFormed_of_compileLanguage hc) hid
  rw [(RuleSet.make_eq_ok hmake).1] at hrules
  rw [hrules] at hmake
  have hrulesPlain : ∀ r ∈ (arena.mode id).contains.map
      (fun c => (⟨.begins c, (arena.mode c).beginSource⟩ : Rule)), Plain l.caseInsensitive r.source := by
    intro r hr
    obtain ⟨c, hmem, rfl⟩ := List.mem_map.mp hr
    exact hplain c hmem
  obtain ⟨m, first, hnext, hstart, hkind⟩ := finds_at_once hmake hrulesPlain hi
  refine ⟨m, first, hnext, hstart, hkind.imp ?_ ?_⟩
  · rintro ⟨r, hr, hkind⟩
    obtain ⟨c, hmem, rfl⟩ := List.mem_map.mp hr
    exact ⟨c, hmem, hkind⟩
  · rintro ⟨hends, hspan, hnone⟩
    refine ⟨hends, hspan, fun c hmem => hnone ⟨.begins c, (arena.mode c).beginSource⟩ ?_⟩
    exact List.mem_map.mpr ⟨c, hmem, rfl⟩

/-! ## 3. What contains a mode that is led in -/

/-- **Only a mode between contains what is not written**; and so it is with variants. -/
theorem contained_written_or_next {id : Identity} {v : Mode} (h : Names l id v) :
    ((∀ c, .mode c ∈ v.contains.getD [] → Written l c) ∨
      ∃ place m, id = ("next", 0) :: place ∧ v = nextMode place m) ∧
    ∀ u ∈ v.variants.getD [], ∀ c, .mode c ∈ u.contains.getD [] → Written l c := by
  induction h with
  | written hm _ hv =>
    rw [hv]
    exact ⟨.inl fun c hc => .contained hm.within hc,
      fun u hu c hc => .contained (.variant hm.within hu) hc⟩
  | @variant id id' v v' u vs i _ hvs hu hnone _ hv ih =>
    obtain ⟨hwritten, hvariants⟩ := ih
    have hmem : u ∈ v'.variants.getD [] := by
      rw [hvs]
      exact List.mem_of_getElem? hu
    have hv' : ∀ c, .mode c ∈ v'.contains.getD [] → Written l c := by
      rcases hwritten with hwritten | ⟨place, m, _, rfl⟩
      · exact hwritten
      · cases hvs
    have hnovariants : v.variants = none := by
      rw [hv]
      show (u.variants <|> none) = none
      rw [hnone]
      rfl
    refine ⟨.inl fun c hc => ?_, fun u' hu' => ?_⟩
    · rw [hv] at hc
      have hc : .mode c ∈ (u.contains <|> v'.contains).getD [] := hc
      cases hcontains : u.contains with
      | none =>
        rw [hcontains] at hc
        exact hv' c hc
      | some cs =>
        rw [hcontains] at hc
        exact hvariants u hmem c (by rw [hcontains]; exact hc)
    · rw [hnovariants] at hu'
      cases hu'
  | next _ _ _ _ _ hid hv =>
    refine ⟨.inr ⟨_, _, hid, hv⟩, fun u hu => ?_⟩
    rw [hv] at hu
    cases hu
  | @led id v raw m key hraw hroot hm hbefore _ _ hv ih =>
    have hall : (∀ c, .mode c ∈ raw.contains.getD [] → Written l c) ∧
        ∀ u ∈ raw.variants.getD [], ∀ c, .mode c ∈ u.contains.getD [] → Written l c := by
      cases hkey : key with
      | none =>
        rw [hroot hkey]
        exact ⟨fun c hc => .contained .root hc, fun u hu c hc => .contained (.variant .root hu) hc⟩
      | some k =>
        obtain ⟨hwritten | ⟨place, m', _, rfl⟩, hvariants⟩ := ih k hkey
        · exact ⟨hwritten, hvariants⟩
        · rw [(links_spelled hm).2.1] at hbefore
          cases hbefore
    obtain ⟨hlinks, _, hvariants⟩ := links_spelled hm
    have hcontains : m.contains = raw.contains := congrArg Links.contains hlinks
    rw [hv]
    refine ⟨.inl fun c hc => hall.1 c ?_, fun u hu => hall.2 u ?_⟩
    · rw [← hcontains]
      exact hc
    · rw [← hvariants]
      exact hu

/-- What a mode contains is written, a variant, or led in by the mode that contains it. -/
theorem entry_cases (hext : l.extensions = []) {parent : Option Parent} {key : Option Key} {p : Parts}
    (hadmitted : Admitted l (Knows l) parent raw key) (hp : compileParts l parent key raw = .ok p)
    {entries : List (Option (Shared Mode))} {s : Shared Mode}
    (hentries : entriesOf l.repository (p.prepared.mode.contains.getD []) = .ok entries)
    (hs : some s ∈ entries) :
    Written l s ∨ (∃ i rest, s.id = ("variant", i) :: rest) ∨
      ∃ k place m, key = some k ∧ k.id = ("next", 0) :: place ∧ raw = nextMode place m ∧
        s.id = ("led", 0) :: place := by
  obtain ⟨c, hc, es, hes, hmem⟩ := mem_entriesOf hentries hs
  have hprepare := prepare_of_compileParts hp
  rw [hext] at hprepare
  have hexpanded : ∀ m : Shared Mode, Names l m.id m.value → (expanded m).map (·.map some) = .ok es →
      s = m ∨ ∃ i rest, s.id = ("variant", i) :: rest := by
    intro m hm hmap
    cases hms : expanded m with
    | error e =>
      rw [hms] at hmap
      cases hmap
    | ok ms =>
      rw [hms] at hmap
      cases hmap
      obtain ⟨s', hs', heq⟩ := List.mem_map.mp hmem
      cases heq
      exact (names_of_expanded hm hms hs').2
  have hraw : c ∈ raw.contains.getD [] := by
    obtain ⟨m, _, ⟨_, hlinks⟩ | ⟨before, _, _, hlinks⟩⟩ := links_prepare hprepare
    · have hcontains : p.prepared.mode.contains = raw.contains := congrArg Links.contains hlinks
      rwa [hcontains] at hc
    · have hcontains : p.prepared.mode.contains = none := congrArg Links.contains hlinks
      rw [hcontains] at hc
      cases hc
  cases c with
  | self =>
    cases hes
    cases List.mem_singleton.mp hmem
  | named name =>
    unfold entryOf at hes
    split at hes
    · rename_i heq
      cases heq
    · rename_i name' heq
      cases heq
      split at hes
      · cases hes
      · rename_i m hm
        have hwritten : Written l m := .named (mem_of_valueOf? hm)
        rcases hexpanded m (.written hwritten rfl rfl) hes with rfl | hvariant
        · exact .inl hwritten
        · exact .inr (.inl hvariant)
    · rename_i heq
      cases heq
  | mode m =>
    rcases hexpanded m ((refers_of_admitted hadmitted).1.contains m hraw).1 hes with rfl | hvariant
    · cases key with
      | none => exact .inl (.contained .root (hadmitted.2 ▸ hraw))
      | some k =>
        rcases (contained_written_or_next hadmitted.1.1).1 with hwritten | ⟨place, m, hid, rfl⟩
        · exact .inl (hwritten _ hraw)
        · cases List.mem_singleton.mp hraw
          exact .inr (.inr ⟨k, place, m, rfl, hid, rfl, rfl⟩)
    · exact .inr (.inl hvariant)

/-- What a mode starts is written, or the mode is a lead-in that starts the mode between. -/
theorem started_cases (hext : l.extensions = []) {parent : Option Parent} {key : Option Key} {p : Parts}
    (hadmitted : Admitted l (Knows l) parent raw key) (hp : compileParts l parent key raw = .ok p)
    {s : Shared Mode} (hs : p.prepared.mode.starts = some s) :
    Written l s ∨ s.id = ("next", 0) :: placeOf key := by
  have hprepare := prepare_of_compileParts hp
  rw [hext] at hprepare
  obtain ⟨m, _, ⟨_, hlinks⟩ | ⟨before, _, _, hlinks⟩⟩ := links_prepare hprepare
  · have hstarts : p.prepared.mode.starts = raw.starts := congrArg Links.starts hlinks
    exact .inl ((refers_of_admitted hadmitted).1.starts s (hstarts ▸ hs))
  · have hstarts : some (⟨("next", 0) :: placeOf key, nextMode (placeOf key) m⟩ : Shared Mode) =
        some s := (congrArg Links.starts hlinks).symm.trans hs
    cases hstarts
    exact .inr rfl

/-! ## 4. The three modes -/

/-- A delimiter in several parts becomes one pattern, with the same text. -/
theorem sourceText_joinDelimiter {pattern : Option Source} {scope : Option Scope} {key : String}
    {flags : List (String × Option Bool)} {joined : Option Source × Option ScopeEmit}
    (h : joinDelimiter pattern scope key flags = .ok joined) :
    joined.1.map sourceText = pattern.map sourceText := by
  unfold joinDelimiter at h
  split at h
  · split at h
    · cases h
    · obtain ⟨labels, _, h⟩ := exists_of_bind h
      cases h
      rfl
    · cases h
  · split at h <;> cases h <;> rfl

/-- The last shorthands leave what has no words to begin with, but for what it forbids and is worth. -/
theorem ends_spellRest (parent : Option Mode) {m : Mode} (h : m.beginKeywords = none) :
    (spellRest parent m).1.endsParent = m.endsParent ∧ (spellRest parent m).2 = false := by
  have hkeywords : spellKeywords m = (m, false) := by
    unfold spellKeywords
    rw [h]
  have hillegal : ∀ n : Mode, (spellIllegal n).endsParent = n.endsParent := by
    intro n
    unfold spellIllegal
    split <;> rfl
  unfold spellRest
  rw [hkeywords, ite_self]
  exact ⟨hillegal m, rfl⟩

/-- What becomes of the mode itself before its last shorthands are written out. -/
theorem extended_ledMode {parent : Option Mode} {e : Mode × Option ScopeEmit × Option ScopeEmit}
    {g : Source} (h : extended [] place parent (ledMode m) = .ok e)
    (hm : spelled (ledMode m) = .ok (ledMode m)) (hbegin : m.beginPattern = some g)
    (hwords : m.beginKeywords = none) : e.1.beginPattern.map sourceText = some (sourceText g) ∧
      e.1.beginKeywords = none ∧ e.1.endsParent = some true := by
  obtain ⟨m', hm', h⟩ := exists_of_bind h
  cases hm.symm.trans hm'
  obtain ⟨w, hw, h⟩ := exists_of_bind h
  cases hw
  obtain ⟨begins, hbegins, h⟩ := exists_of_bind h
  obtain ⟨ends, _, h⟩ := exists_of_bind h
  cases h
  have hmove : (moveScope (ledMode m)).beginPattern = some g ∧
      (moveScope (ledMode m)).beginKeywords = none ∧
      (moveScope (ledMode m)).endsParent = some true := by
    unfold moveScope
    split <;> exact ⟨hbegin, hwords, rfl⟩
  have hjoined := sourceText_joinDelimiter hbegins
  rw [hmove.1] at hjoined
  exact ⟨hjoined, hmove.2⟩

/-- What becomes of the mode itself: it begins as it is written, and ends the mode around it. -/
theorem prepared_ledMode {parent : Option Mode} {q : Prepared} {g : Source}
    (h : prepare [] place parent (ledMode m) = .ok q) (hm : spelled (ledMode m) = .ok (ledMode m))
    (hbegin : m.beginPattern = some g) (hwords : m.beginKeywords = none) :
    q.mode.beginPattern.map sourceText = some (sourceText g) ∧ isSet q.mode.endsParent = true ∧
      linksOf q.mode = linksOf m ∧ q.skipAfterDot = false := by
  have hlinks : linksOf q.mode = linksOf (ledMode m) := by
    obtain ⟨m', hm', ⟨_, hlinks⟩ | ⟨before, hbefore, _⟩⟩ := links_prepare h
    · exact hlinks
    · cases hm.symm.trans hm'
      cases hbefore
  rw [prepare_eq_extended] at h
  cases he : extended [] place parent (ledMode m) with
  | error cause => rw [he] at h; cases h
  | ok e =>
    rw [he] at h
    obtain rfl := Except.ok.inj h
    obtain ⟨hpattern, hnone, hends⟩ := extended_ledMode he hm hbegin hwords
    obtain ⟨hparent, hdot⟩ := ends_spellRest parent hnone
    refine ⟨?_, ?_, hlinks, hdot⟩
    · exact (congrArg (Option.map sourceText) ((delimiters_spellRest parent e.1).1 hnone)).trans
        hpattern
    · exact congrArg isSet (hparent.trans hends)

/-- **A mode that something comes before has been compiled to three**: the lead-in `w`, which begins
    where `before` is read and `first` comes next; the mode `next` between, which only the lead-in
    starts; and the mode `o` itself, which begins with `first`, and which only the mode between
    contains, or it itself. -/
structure LeadIn (arena : Arena) (before first : String) (w next o : Nat) : Prop where
  begins : (arena.mode w).beginSource = Pattern.join [before, Pattern.lookahead first]
  leads : EndsAtOnce (arena.mode w)
  leadsTo : (arena.mode w).contains = [] ∧ (arena.mode w).starts = some next
  between : EndsAtOnce (arena.mode next)
  holds : (arena.mode next).contains = [o] ∧ (arena.mode next).starts = none
  led : (arena.mode o).beginSource = first ∧ (arena.mode o).endsParent = true ∧
    (arena.mode o).starts = none ∧ (arena.mode o).skipAfterDot = false
  below : w < arena.modes.size ∧ next < arena.modes.size ∧ arena.root ≠ next ∧ arena.root ≠ o
  inside : ∀ p, o ∈ (arena.mode p).contains → p = next ∨ p = o
  apart : ∀ p, next ∉ (arena.mode p).contains
  startsNext : ∀ p, (arena.mode p).starts = some next → p = w
  startsLed : ∀ p, (arena.mode p).starts ≠ some o

/-- What stands inside another mode has a key. -/
theorem Stands.key {slot : Nat} {key : Option Key} {t : String}
    (h : Stands l arena slot key raw (some t)) : ∃ k, key = some k := by
  cases h with
  | contained => exact ⟨_, rfl⟩
  | started => exact ⟨_, rfl⟩

/-- What a mode contains has no variants left. -/
theorem variants_of_entriesOf {repository : Dictionary String (Shared Mode)}
    {cs : List (Contained Mode)} {entries : List (Option (Shared Mode))} {s : Shared Mode}
    (hentries : entriesOf repository cs = .ok entries) (hs : some s ∈ entries) :
    s.value.variants = none := by
  obtain ⟨c, _, es, hes, hmem⟩ := mem_entriesOf hentries hs
  have hexpanded : ∀ m : Shared Mode, (expanded m).map (·.map some) = .ok es →
      s.value.variants = none := by
    intro m hmap
    unfold expanded at hmap
    split at hmap
    · rename_i hnone
      cases hmap
      cases List.mem_singleton.mp hmem
      exact hnone
    · cases hms : expandVariants m _ with
      | error e =>
        rw [hms] at hmap
        cases hmap
      | ok ms =>
        rw [hms] at hmap
        cases hmap
        obtain ⟨s', hs', heq⟩ := List.mem_map.mp hmem
        cases heq
        obtain ⟨_, u, _, hnone, rfl⟩ := mem_expandVariants hms hs'
        show (u.variants <|> none) = none
        rw [hnone]
        rfl
  unfold entryOf at hes
  split at hes
  · cases hes
    cases List.mem_singleton.mp hmem
  · split at hes
    · cases hes
    · exact hexpanded _ hes
  · exact hexpanded _ hes

/-- A mode contains itself where this is written. -/
theorem self_of_entriesOf {repository : Dictionary String (Shared Mode)} {cs : List (Contained Mode)}
    {entries : List (Option (Shared Mode))} (hentries : entriesOf repository cs = .ok entries)
    (hs : none ∈ entries) : .self ∈ cs := by
  obtain ⟨c, hc, es, hes, hmem⟩ := mem_entriesOf hentries hs
  have hexpanded : ∀ m : Shared Mode, (expanded m).map (·.map some) ≠ .ok es := by
    intro m hmap
    cases hms : expanded m with
    | error e =>
      rw [hms] at hmap
      cases hmap
    | ok ms =>
      rw [hms] at hmap
      cases hmap
      simp at hmem
  unfold entryOf at hes
  split at hes
  · exact hc
  · split at hes
    · cases hes
    · exact absurd hes (hexpanded _)
  · exact absurd hes (hexpanded _)

/-- **A mode that none starts has no variants left**, where it stands inside another one. -/
theorem Stands.variants_none {slot : Nat} {key : Option Key} {t : String}
    (h : Stands l arena slot key raw (some t)) (hunstarted : ∀ p, (arena.mode p).starts ≠ some slot) :
    raw.variants = none := by
  cases h with
  | contained _ _ hentries hs _ => exact variants_of_entriesOf hentries (List.mem_of_getElem? hs)
  | started _ _ _ hstarts => exact absurd hstarts (hunstarted _)

/-- The keys of a mode that fits are one. -/
theorem Fits.key_eq {b : Building} {slot : Nat} {outer : Option String} {parent : Option Parent}
    {p : Parts} {k k' : Key} (h : Fits l b arena slot (some k) raw outer parent p)
    (hk : b.memo.lookup k' = some slot) : k' = k :=
  (Option.some.inj ((h.known k').mp hk)).symm

section Known

variable {b : Building} (hb : Coherent l (Knows l) b) (hmodes : b.slots.toList = arena.modes.toList.map some)

include hb hmodes

/-- What a mode contains is the mode itself, or is known by the key of one of its entries. -/
theorem known_of_contained {p c : Nat} (hc : c ∈ (arena.mode p).contains) : p = c ∨
    ∃ parent key raw parts entries s, compileParts l parent key raw = .ok parts ∧
      Admitted l (Knows l) parent raw key ∧ (∀ k, b.memo.lookup k = some p ↔ key = some k) ∧
      entriesOf l.repository (parts.prepared.mode.contains.getD []) = .ok entries ∧
      some s ∈ entries ∧ b.memo.lookup (keyOf s parts.delimiters.terminator) = some c := by
  by_cases hp : p < arena.modes.size
  · obtain ⟨parent, key, raw, parts, hfrom, hadmitted, hkey⟩ := exists_from hb hmodes hp
    obtain ⟨entries, hentries, hmap⟩ := hfrom.contains
    have hmem : some c ∈ entries.map (b.numberOf p parts.delimiters.terminator) := by
      rw [hmap]
      exact List.mem_map_of_mem hc
    obtain ⟨e, he, hnumber⟩ := List.mem_map.mp hmem
    cases e with
    | none => exact .inl (Option.some.inj hnumber)
    | some s =>
      exact .inr ⟨parent, key, raw, parts, entries, s, hfrom.parts, hadmitted, hkey, hentries, he,
        hnumber⟩
  · rw [mode_of_size_le (Nat.le_of_not_lt hp)] at hc
    cases hc

/-- What a mode starts is known by its key. -/
theorem known_of_started {p c : Nat} (hc : (arena.mode p).starts = some c) :
    ∃ parent key raw parts s t, compileParts l parent key raw = .ok parts ∧
      Admitted l (Knows l) parent raw key ∧ (∀ k, b.memo.lookup k = some p ↔ key = some k) ∧
      parts.prepared.mode.starts = some s ∧ b.memo.lookup (keyOf s t) = some c := by
  by_cases hp : p < arena.modes.size
  · obtain ⟨parent, key, raw, parts, hfrom, hadmitted, hkey⟩ := exists_from hb hmodes hp
    have hstarts := hfrom.starts
    rw [hc] at hstarts
    obtain ⟨s, hs, hlookup⟩ := Option.map_eq_some_iff.mp hstarts
    exact ⟨parent, key, raw, parts, s, _, hfrom.parts, hadmitted, hkey, hs, hlookup⟩
  · rw [mode_of_size_le (Nat.le_of_not_lt hp)] at hc
    cases hc

end Known

/-! ## 5. Compiled to three -/

section Compiled

variable {w next o p : Nat} {k : Key} {t : String} {m' : Mode}

/-- The key of the mode between. -/
def nextKey (place : Identity) : Key := ⟨("next", 0) :: place, none⟩

theorem keyOf_next (place : Identity) (m : Mode) (t : String) :
    keyOf ⟨("next", 0) :: place, nextMode place m⟩ t = nextKey place := by
  have hdepends : (nextMode place m).dependsOnParent = false := by
    rw [dependsOnParent_eq]
    rfl
  unfold keyOf
  rw [hdepends]
  rfl

variable {b : Building} (hw : WellNamed l) (hext : l.extensions = [])
  (hb : Coherent l (Knows l) b) (hmodes : b.slots.toList = arena.modes.toList.map some)

include hw hext hb hmodes

/-- **Only the mode between contains what is led in**, or this itself. -/
theorem contains_led (hnext : b.memo.lookup (nextKey place) = some next)
    (hled : ∀ k, b.memo.lookup k = some o → k.id = ("led", 0) :: place)
    (ho : o ∈ (arena.mode p).contains) : p = next ∨ p = o := by
  rcases known_of_contained hb hmodes ho with rfl | ⟨parent, key, raw, parts, entries, s, hparts,
    hadmitted, hkey, hentries, hs, hlookup⟩
  · exact .inr rfl
  · have hid : s.id = ("led", 0) :: place := hled _ hlookup
    rcases entry_cases hext hadmitted hparts hentries hs with hwritten | ⟨i, rest, hvariant⟩ |
      ⟨k, place', m, rfl, hk, rfl, hplace⟩
    · exact absurd hid (fun heq => hw.unlike s _ _ _ hwritten heq (by decide))
    · rw [hvariant] at hid
      simp at hid
    · rw [hplace] at hid
      obtain rfl : place' = place := by simpa using hid
      have hterminator := hadmitted.2
      rw [dependsOnParent_eq] at hterminator
      have hk' : k = nextKey place' := by
        obtain ⟨id, terminator⟩ := k
        cases hk
        cases hterminator
        rfl
      have hp := (hkey k).mpr rfl
      rw [hk'] at hp
      exact .inl (Option.some.inj (hp.symm.trans hnext))

/-- No mode contains the mode between. -/
theorem not_contains_next (hnext : ∀ k, b.memo.lookup k = some next → k.id = ("next", 0) :: place)
    (hself : next ∉ (arena.mode next).contains) : next ∉ (arena.mode p).contains := by
  intro hmem
  rcases known_of_contained hb hmodes hmem with rfl | ⟨parent, key, raw, parts, entries, s, hparts,
    hadmitted, hkey, hentries, hs, hlookup⟩
  · exact hself hmem
  · have hid : s.id = ("next", 0) :: place := hnext _ hlookup
    rcases entry_cases hext hadmitted hparts hentries hs with hwritten | ⟨i, rest, hvariant⟩ |
      ⟨k, place', m, rfl, hk, rfl, hplace⟩
    · exact hw.unlike s _ _ _ hwritten hid (by decide)
    · rw [hvariant] at hid
      simp at hid
    · rw [hplace] at hid
      simp at hid

/-- **Only the lead-in starts the mode between.** -/
theorem starts_leadIn (hlead : b.memo.lookup k = some w)
    (hnext : ∀ k', b.memo.lookup k' = some next → k'.id = ("next", 0) :: placeOf (some k))
    (hs : (arena.mode p).starts = some next) : p = w := by
  obtain ⟨parent, key, raw, parts, s, t, hparts, hadmitted, hkey, hstarts, hlookup⟩ :=
    known_of_started hb hmodes hs
  have hid : s.id = ("next", 0) :: placeOf (some k) := hnext _ hlookup
  rcases started_cases hext hadmitted hparts hstarts with hwritten | hplace
  · exact absurd hid (fun heq => hw.unlike s _ _ _ hwritten heq (by decide))
  · obtain hplaces : placeOf key = placeOf (some k) := by simpa using hplace.symm.trans hid
    have hp := (hkey k).mpr (placeOf_injective hplaces)
    exact Option.some.inj (hp.symm.trans hlead)

omit hb hmodes in
/-- **What is led in contains itself** only where it is written so. -/
theorem self_of_contains_led {parent : Option Parent} {parts : Parts}
    (hfrom : From l b o (arena.mode o) parent (some k) raw parts)
    (hadmitted : Admitted l (Knows l) parent raw (some k)) (hk : k.id = ("led", 0) :: place)
    (hled : ∀ k, b.memo.lookup k = some o → k.id = ("led", 0) :: place)
    (ho : o ∈ (arena.mode o).contains) : .self ∈ parts.prepared.mode.contains.getD [] := by
  obtain ⟨entries, hentries, hmap⟩ := hfrom.contains
  have hmem : some o ∈ entries.map (b.numberOf o parts.delimiters.terminator) := by
    rw [hmap]
    exact List.mem_map_of_mem ho
  obtain ⟨e, he, hnumber⟩ := List.mem_map.mp hmem
  cases e with
  | none => exact self_of_entriesOf hentries he
  | some s =>
    have hid : s.id = ("led", 0) :: place := hled _ hnumber
    rcases entry_cases hext hadmitted hfrom.parts hentries he with hwritten | ⟨i, rest, hvariant⟩ |
      ⟨k', place', m, hkey, hnext, _⟩
    · exact absurd hid (fun heq => hw.unlike s _ _ _ hwritten heq (by decide))
    · rw [hvariant] at hid
      simp at hid
    · cases hkey
      rw [hk] at hnext
      simp at hnext

/-- No mode starts what is led in. -/
theorem not_starts_led (hled : ∀ k, b.memo.lookup k = some o → k.id = ("led", 0) :: place) :
    (arena.mode p).starts ≠ some o := by
  intro hs
  obtain ⟨parent, key, raw, parts, s, t, hparts, hadmitted, hkey, hstarts, hlookup⟩ :=
    known_of_started hb hmodes hs
  have hid : s.id = ("led", 0) :: place := hled _ hlookup
  rcases started_cases hext hadmitted hparts hstarts with hwritten | hplace
  · exact hw.unlike s _ _ _ hwritten hid (by decide)
  · rw [hplace] at hid
    simp at hid

end Compiled

/-! ## 6. Three modes -/

section Three

variable {b : Building} {w next o : Nat} {key : Option Key} {t : String} {g : Source}
  {parent : Option Parent} {p : Parts}

/-- What has no entries contains nothing. -/
theorem From.contains_nil {c : ArenaMode} {id : Nat} (h : From l b id c parent key raw p)
    (hnone : p.prepared.mode.contains = none) : c.contains = [] := by
  obtain ⟨entries, hentries, hmap⟩ := h.contains
  rw [hnone] at hentries
  cases hentries
  exact (List.map_eq_nil_iff.mp hmap.symm)

/-- What has one entry contains the mode with its key. -/
theorem From.contains_singleton {c : ArenaMode} {id : Nat} {s : Shared Mode}
    (h : From l b id c parent key raw p)
    (hone : p.prepared.mode.contains = some [.mode s]) (hvariants : s.value.variants = none) :
    entriesOf l.repository (p.prepared.mode.contains.getD []) = .ok [some s] ∧
      ∃ o, c.contains = [o] ∧ b.memo.lookup (keyOf s p.delimiters.terminator) = some o := by
  have hentry : entriesOf l.repository (p.prepared.mode.contains.getD []) = .ok [some s] := by
    have hexpanded : expanded s = .ok [s] := by
      unfold expanded
      rw [hvariants]
    rw [hone]
    show entriesOf l.repository [.mode s] = _
    simp only [entriesOf, entryOf, hexpanded]
    rfl
  obtain ⟨entries, hentries, hmap⟩ := h.contains
  cases hentry.symm.trans hentries
  refine ⟨hentry, ?_⟩
  cases hcontains : c.contains with
  | nil => rw [hcontains] at hmap; cases hmap
  | cons o rest =>
    rw [hcontains] at hmap
    obtain ⟨ho, hrest⟩ := List.cons.inj hmap
    rw [List.map_eq_nil_iff.mp hrest.symm]
    exact ⟨o, rfl, ho⟩

/-- What starts nothing. -/
theorem From.starts_none {c : ArenaMode} {id : Nat} (h : From l b id c parent key raw p)
    (hnone : p.prepared.mode.starts = none) : c.starts = none := by
  have hstarts := h.starts
  rw [hnone] at hstarts
  exact Option.map_eq_none_iff.mp hstarts.symm

/-- What starts another mode starts the one with its key. -/
theorem From.starts_some {c : ArenaMode} {id : Nat} {s : Shared Mode}
    (h : From l b id c parent key raw p) (hs : p.prepared.mode.starts = some s) :
    ∃ next, c.starts = some next ∧ b.memo.lookup (keyOf s (outerTerminator parent)) = some next := by
  have hstarts := h.starts
  rw [hs] at hstarts
  obtain ⟨next, hnext, hlookup⟩ := Option.map_eq_some_iff.mp hstarts.symm
  exact ⟨next, hnext, hlookup.symm⟩

/-- What is compiled of the mode itself. -/
theorem led_of_compileParts {parent : Parent} {c : ArenaMode} (hext : l.extensions = [])
    (hp : compileParts l (some parent) key (ledMode m) = .ok p)
    (hc : c = p.assemble c.contains c.starts c.rules) (hm : spelled raw = .ok m)
    (hbegin : m.beginPattern = some g) (hwords : m.beginKeywords = none) :
    linksOf p.prepared.mode = linksOf m ∧ c.beginSource = sourceText g ∧ c.endsParent = true ∧
      c.skipAfterDot = false := by
  have hprepare := prepare_of_compileParts hp
  rw [hext] at hprepare
  obtain ⟨hpattern, hends, hlinks, hdot⟩ :=
    prepared_ledMode hprepare (spelled_ledMode hm) hbegin hwords
  have hsource : p.delimiters.beginSource = sourceText g := by
    rw [(beginSource_inside hp).1, hpattern]
    rfl
  exact ⟨hlinks, (congrArg ArenaMode.beginSource hc).trans hsource,
    (congrArg ArenaMode.endsParent hc).trans hends, (congrArg ArenaMode.skipAfterDot hc).trans hdot⟩

end Three

/-- **A mode that something comes before is compiled to three modes**: where it stands, and no mode
    starts it, there are a lead-in, the mode between, and the mode itself, which is written without
    what comes before it. -/
theorem exists_leadIn (hw : WellNamed l) (hext : l.extensions = []) (hroot : l.mode.starts = none)
    (hc : compileLanguage name l = .ok arena) {w : Nat} {key : Option Key} {t : String} {g : Source}
    (hstands : Stands l arena w key raw (some t)) (hunstarted : ∀ p, (arena.mode p).starts ≠ some w)
    (hm : spelled raw = .ok m) (hbefore : m.beforeMatch = some before)
    (hbegin : m.beginPattern = some g) (hwords : m.beginKeywords = none) :
    ∃ next o key', LeadIn arena before (sourceText g) w next o ∧
      Stands l arena o (some key') (ledMode m) (some matchEmpty) ∧
      (.self ∉ m.contains.getD [] → o ∉ (arena.mode o).contains) := by
  obtain ⟨b, hb, hmodes, hkeyless⟩ := coherent_of_compileLanguage (passes_names hw hext hroot) hc
  have hfits : ∀ {slot : Nat} {key : Option Key} {raw : Mode} {t : String},
      Stands l arena slot key raw (some t) → ∃ parent p,
        Fits l b arena slot key raw (some t) (some parent) p := by
    intro slot key raw t h
    obtain ⟨parent, p, hfits⟩ :=
      fits_of_stands hb hmodes hw hext hroot (made_of_compileLanguage hc).1 hkeyless h
    cases parent with
    | none => cases hfits.inside
    | some parent => exact ⟨parent, p, hfits⟩
  have hsize : b.slots.size = arena.modes.size := by simpa using congrArg List.length hmodes
  obtain ⟨k, rfl⟩ := hstands.key
  have hvariants : (ledMode m).variants = none :=
    (links_spelled hm).2.2.trans (hstands.variants_none hunstarted)
  -- The lead-in.
  obtain ⟨parent, p, hfit⟩ := hfits hstands
  have hprepare := prepare_of_compileParts hfit.comes.parts
  rw [hext] at hprepare
  obtain ⟨hstarts, hlead⟩ := leadIn_of_prepare hprepare hm hbefore
  rw [leadIn_eq] at hlead
  obtain ⟨hleads, hbegins⟩ := endsAtOnce_of_bare hfit.comes.parts hlead hfit.comes.assembled
  have hstarted : p.prepared.mode.starts = some ⟨("next", 0) :: placeOf (some k),
      nextMode (placeOf (some k)) m⟩ := by rw [hlead]; rfl
  obtain ⟨next, hnext, _⟩ := hfit.comes.starts_some hstarted
  -- The mode between.
  have hstandsNext := Stands.started hstands ⟨some ⟨0, {}, t⟩, rfl, hfit.parts hext rfl⟩ hstarted hnext
  obtain ⟨parent', p', hfit'⟩ := hfits hstandsNext
  have hprepare' := prepare_of_compileParts hfit'.comes.parts
  rw [hext] at hprepare'
  have hbare := Except.ok.inj (hprepare'.symm.trans (nextMode_eq _ m ▸ prepare_bareMode _ _ _ _ _))
  rw [nextMode_eq] at hbare
  obtain ⟨hbetween, _⟩ := endsAtOnce_of_bare hfit'.comes.parts hbare hfit'.comes.assembled
  have hone : p'.prepared.mode.contains = some [.mode ⟨("led", 0) :: placeOf (some k), ledMode m⟩] := by
    rw [hbare]
    rfl
  obtain ⟨hentries, o, hholds, ho⟩ := hfit'.comes.contains_singleton hone hvariants
  -- The mode itself.
  have hstandsLed := Stands.contained hstandsNext ⟨some ⟨0, {}, t⟩, rfl, hfit'.parts hext rfl⟩
    hentries (i := 0) (c := o) rfl (by rw [hholds]; rfl)
  obtain ⟨parent'', p'', hfit''⟩ := hfits hstandsLed
  obtain ⟨hlinks, hfirst, hendsParent, hdot⟩ := led_of_compileParts hext hfit''.comes.parts
    hfit''.comes.assembled hm hbegin hwords
  have hknown : b.memo.lookup (nextKey (placeOf (some k))) = some next := by
    rw [← keyOf_next (placeOf (some k)) m t]
    exact (hfit'.known _).mpr rfl
  have hidNext : ∀ k', b.memo.lookup k' = some next → k'.id = ("next", 0) :: placeOf (some k) :=
    fun _ hk' => congrArg Key.id (hfit'.key_eq hk')
  have hidLed : ∀ k', b.memo.lookup k' = some o → k'.id = ("led", 0) :: placeOf (some k) :=
    fun _ hk' => congrArg Key.id (hfit''.key_eq hk')
  have hlookup : b.memo.lookup k = some w := (hfit.known k).mpr rfl
  refine ⟨next, o, _, ⟨?_, hleads, ⟨hfit.comes.contains_nil (by rw [hlead]; rfl), hnext⟩, hbetween,
    ⟨hholds, hfit'.comes.starts_none (by rw [hbare]; rfl)⟩,
    ⟨hfirst, hendsParent, hfit''.comes.starts_none ((congrArg Links.starts hlinks).trans hstarts),
      hdot⟩,
    ⟨hsize ▸ hb.known_lt _ w hlookup, hsize ▸ hb.known_lt _ next hknown,
      fun heq => hkeyless _ (heq ▸ hknown), fun heq => hkeyless _ (heq ▸ (hfit''.known _).mpr rfl)⟩,
    fun p hp => contains_led hw hext hb hmodes hknown hidLed hp,
    fun p => not_contains_next hw hext hb hmodes hidNext fun hself => ?_,
    fun p hp => starts_leadIn hw hext hb hmodes hlookup hidNext hp,
    fun p => not_starts_led hw hext hb hmodes hidLed⟩, hbetween.terminator ▸ hstandsLed,
    fun hself ho => hself ?_⟩
  · rw [hbegins, Option.getD_some, leadInPattern, hbegin]
    rfl
  · rw [hholds] at hself
    obtain rfl := List.mem_singleton.mp hself
    have := hidLed _ hknown
    simp [nextKey] at this
  · have hcontains : p''.prepared.mode.contains = m.contains := congrArg Links.contains hlinks
    rw [← hcontains]
    exact self_of_contains_led hw hext hfit''.comes hfit''.admitted rfl hidLed ho

/-! ## 7. What a lead-in reads -/

/-- **What comes before a mode is read as it is meant**: the pattern of the lead-in is read as what
    comes before, with a look ahead at the beginning of the mode; both are plain; and the beginning
    does not ask where the search began. -/
structure ReadAsMeant (folded : Bool) (before first : String) : Prop where
  looks : Pattern.looksAhead folded before first = true
  plain : Plain folded before ∧ Plain folded first
  origin : ∃ regex, Pattern.compile first folded = .ok regex ∧ regex.node.ignoresOrigin = true

/-- **Behind whatever the lead-in reads the mode begins.** -/
theorem ReadAsMeant.begins {folded : Bool} {before first : String} (h : ReadAsMeant folded before first)
    {text : Text} {origin i : Nat} {span : Regex.Span}
    (hread : spanAt folded text origin i (Pattern.join [before, Pattern.lookahead first]) = some span) :
    ∃ own, spanAt folded text span.stop span.stop first = some own := by
  obtain ⟨regex, hregex, horigin⟩ := h.origin
  have hi : i ≤ text.size := by
    by_contra hi
    rw [spanAt, if_neg hi] at hread
    cases hread
  cases hw : Pattern.compile (Pattern.join [before, Pattern.lookahead first]) folded with
  | error e =>
    rw [spanAt, if_pos hi, compilePattern, hw] at hread
    cases hread
  | ok whole =>
    rw [spanAt_of_compile hw hi] at hread
    obtain ⟨m, hm, rfl⟩ := Option.map_eq_some_iff.mp hread
    have hown := Pattern.reads_ahead h.looks h.plain.1 h.plain.2 hregex horigin hw hi hm m.span.stop
    obtain ⟨own, hown⟩ := Option.isSome_iff_exists.mp hown
    have hstop : m.span.stop ≤ text.size := ((Regex.span_matchFrom hi hm).2 0 m.span rfl).2
    exact ⟨own.span, by rw [spanAt_of_compile hregex hstop, hown]; rfl⟩

end Highlight.Arena
