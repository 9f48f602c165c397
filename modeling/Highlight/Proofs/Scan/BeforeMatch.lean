import Highlight.Proofs.Scan.LeadIn

/-!
# What comes before a mode

A mode that something comes before is entered exactly behind that: only where that has been read, with
the beginning of the mode ahead; there at once; and when the mode ends, what was open before is open
again. That is so where what comes before the mode reads something, and is read as it is meant.

* `EntersBehind` -- what holds of one run;
* `before_match_leads_in` -- **a mode is entered exactly behind what comes before it**;
* `entered_behind_letter` -- behind a letter it is entered at once;
* `look_behind_enters_late` -- behind what reads nothing it is entered one character late;
* `bar_leaves_mode_out` -- behind the first of two patterns it is not entered at all.
-/

namespace Highlight.Scan

open Highlight.Arena (EndsAtOnce LeadIn ReadAsMeant RuleMatch Stands WellNamed compileLanguage
  exists_leadIn ledMode spanAt spelled)
open Highlight.Grammar (Language Mode Source)
open Highlight.Pattern (Plain)

variable {s : Scene} {name : String} {language : Language} {continuation : Option (List Nat)}
  {w next o : Nat} {before opening : String}

/-! ## 1. Behind what comes before -/

/-- **In a run, a mode is entered exactly behind what comes before it.** What is led in begins nowhere
    else, but in itself; in any mode whose patterns are plain, the lead-in begins where `before` is
    read and `opening` comes next; behind that the mode is entered, before anything else is read,
    unless the guard ends the run; and an end that closes the mode leaves the frames that were open
    before it was led in, or those that an earlier run has left. -/
structure EntersBehind (s : Scene) (language : Language) (continuation : Option (List Nat))
    (before opening : String) (w next o : Nat) : Prop where
  entered : ∀ n r m first, Reached s continuation n r → lookUp s r = .ok (some m, first) →
    m.kind = .begins o → (s.topId r.frames = o ∧ o ∈ (s.arena.mode o).contains) ∨
      ∃ k r0 m0 f, LedIn s continuation w k r0 m0 ∧ n = k + 2 ∧ m.span.start = m0.span.stop ∧
        r.frames = f :: r0.frames ∧ f.mode = next
  read : ∀ k r m, LedIn s continuation w k r m →
    (∀ rule ∈ (s.top r).rules.rules, Plain language.caseInsensitive rule.source) →
    ∃ origin, spanAt language.caseInsensitive s.text origin m.span.start
      (Pattern.join [before, Pattern.lookahead opening]) = some m.span
  followed : ∀ k r m r1, LedIn s continuation w k r m →
    ReadAsMeant language.caseInsensitive before opening →
    (∀ rule ∈ (s.top r).rules.rules, Plain language.caseInsensitive rule.source) →
    Reached s continuation (k + 1) r1 → lacksHeadway s (k + 3) m.span.stop = true ∨
      ∃ r2 r3 m' first f data, Reached s continuation (k + 2) r2 ∧ Reached s continuation (k + 3) r3 ∧
        r1.index = m.span.stop ∧ r2.index = m.span.stop ∧ lookUp s r2 = .ok (some m', first) ∧
        m'.kind = .begins o ∧ m'.span.start = m.span.stop ∧ r2.frames = f :: r.frames ∧
        f.mode = next ∧ r3.frames = ⟨o, data⟩ :: r2.frames
  left : ∀ n r m k asked r' above f below, Ended s continuation n r m k asked r' →
    r.frames = above ++ f :: below → f.mode = o → above.length < k →
    ∃ inner f', below = inner ++ f' :: r'.frames ∧ (∀ g ∈ inner, g.mode = o) ∧ f'.mode = next ∧
      ((∃ k0 r0 m0, LedIn s continuation w k0 r0 m0 ∧ k0 + 2 ≤ n ∧ r'.frames = r0.frames ∧
          Since s continuation (k0 + 2) n (f' :: r0.frames)) ∨
        Since s continuation 0 n (f' :: r'.frames))

/-- A run in which a mode is led in enters it exactly behind what comes before it. -/
theorem entersBehind (h : LeadsIn s language continuation before opening w next o) :
    EntersBehind s language continuation before opening w next o where
  entered := fun _ _ _ _ hr hl hkind => led_in_of_found h hr hl hkind
  read := fun _ _ _ hled hplain => by
    obtain ⟨_, hc⟩ := h.compiled
    exact h.modes.begins ▸ hled.read hc hplain
  followed := by
    intro k r m r1 hled hmeant hplain hr
    obtain ⟨_, hc⟩ := h.compiled
    obtain ⟨origin, hread⟩ := hled.read hc hplain
    rw [h.modes.begins] at hread
    obtain ⟨own, hown⟩ := hmeant.begins hread
    rcases entered_of_ledIn h hled hr with hlacks | ⟨r2, r3, m', first, f, hr2, hr3, hindex, hindex2,
      hframes, hf, hl, hstart, ⟨hkind, _, data, hopened⟩ | ⟨hnone, _⟩⟩
    · exact .inl hlacks
    · exact .inr ⟨r2, r3, m', first, f, data, hr2, hr3, hindex, hindex2, hl, hkind, hstart, hframes,
        hf, hopened⟩
    · exact absurd (hown.symm.trans hnone) (by simp)
  left := by
    intro n r m k asked r' above f below hended hframes hf hk
    obtain ⟨inner, f', outer, rfl, hinner, hf', rfl⟩ := left_of_ended h hended hframes hf hk
    have hsuffix : f' :: r'.frames <:+ r.frames :=
      ⟨above ++ f :: inner, by rw [hframes, List.append_assoc, List.cons_append]⟩
    refine ⟨inner, f', rfl, hinner, hf', ?_⟩
    rcases (leading_reached h hended.reached).inside f' _ hsuffix hf' with
      ⟨k0, r0, m0, hled, hk0, hframes0, hsince⟩ | hsince
    · exact .inl ⟨k0, r0, m0, hled, hk0, hframes0, hframes0 ▸ hsince⟩
    · exact .inr hsince

/-- **A mode is entered exactly behind what comes before it**: wherever a mode is contained in another
    one that is written with a beginning and with what comes before it, and that no mode starts, there
    are a lead-in, a mode between and the mode itself, and every run of the language that is free to
    lead it in enters the mode behind what comes before it. Only a mode that is written to contain
    itself also begins in itself. -/
theorem before_match_leads_in {l : Language} {arena : Arena} (hw : WellNamed l)
    (hext : l.extensions = []) (hroot : l.mode.starts = none)
    (hc : compileLanguage name l = .ok arena) {key : Option Arena.Key} {raw : Mode} {t : String}
    {prepared : Mode} {g : Source} (hstands : Stands l arena w key raw (some t))
    (hunstarted : ∀ p, (arena.mode p).starts ≠ some w) (hm : spelled raw = .ok prepared)
    (hbefore : prepared.beforeMatch = some before) (hbegin : prepared.beginPattern = some g)
    (hwords : prepared.beginKeywords = none)
    (hplain : Plain l.caseInsensitive (Arena.sourceText g)) :
    ∃ next o key', LeadIn arena before (Arena.sourceText g) w next o ∧
      Stands l arena o (some key') (ledMode prepared) (some Arena.matchEmpty) ∧
      (.self ∉ prepared.contains.getD [] → o ∉ (arena.mode o).contains) ∧
      ∀ s continuation, s.arena = arena → FreeToLead s continuation w next o →
        EntersBehind s l continuation before (Arena.sourceText g) w next o := by
  obtain ⟨next, o, key', hmodes, hstandsLed, hself⟩ :=
    exists_leadIn hw hext hroot hc hstands hunstarted hm hbefore hbegin hwords
  refine ⟨next, o, key', hmodes, hstandsLed, hself, fun s continuation harena hfree => ?_⟩
  subst harena
  exact entersBehind ⟨hfree, ⟨name, hc⟩, hmodes, hunstarted, hplain⟩

/-! ## 2. Behind a letter -/

/-- A mode with something before it. -/
def behindPrefix (before opening : String) : Mode where
  scope := some (.single "o")
  beginPattern := some (.single opening)
  beforeMatch := some before

/-- A language with such a mode. -/
def prefixLanguage (before opening : String) : Language where
  mode := { contains := some [.mode ⟨[("behind", 0)], behindPrefix before opening⟩] }

theorem within_prefixed {v : Mode} (h : Arena.Within (prefixLanguage before opening) v) :
    v = (prefixLanguage before opening).mode ∨ v = behindPrefix before opening := by
  induction h with
  | root => exact .inl rfl
  | named hm => cases hm
  | contained _ hm ih =>
    rcases ih with rfl | rfl
    · cases List.mem_singleton.mp hm
      exact .inr rfl
    · cases hm
  | variant _ hu ih => rcases ih with rfl | rfl <;> cases hu
  | started _ hs ih => rcases ih with rfl | rfl <;> cases hs

theorem wellNamed_prefixed (before opening : String) : WellNamed (prefixLanguage before opening) := by
  have hwritten : ∀ m, Arena.Written (prefixLanguage before opening) m →
      m = ⟨[("behind", 0)], behindPrefix before opening⟩ := by
    intro m h
    cases h with
    | named hm => cases hm
    | contained hv hm =>
      rcases within_prefixed hv with rfl | rfl
      · cases List.mem_singleton.mp hm
        rfl
      · cases hm
    | started hv hs => rcases within_prefixed hv with rfl | rfl <;> cases hs
  refine ⟨fun m m' h h' _ => ?_, fun m word i rest h hid => ?_⟩
  · rw [hwritten m h, hwritten m' h']
  · rw [hwritten m h] at hid
    cases hid
    decide

/-- The mode stands in the root. -/
theorem stands_prefixed {arena : Arena}
    (hc : compileLanguage name (prefixLanguage before opening) = .ok arena)
    (hw : (arena.mode arena.root).contains = [w]) : ∃ key t,
      Stands (prefixLanguage before opening) arena w key (behindPrefix before opening) (some t) := by
  obtain ⟨p, hp, _⟩ := Arena.root_parts hc
  have hcontains : p.prepared.mode.contains = (prefixLanguage before opening).mode.contains := by
    rw [← Except.ok.inj (Arena.prepare_of_compileParts hp)]
    rfl
  refine ⟨_, _, Stands.contained .root ⟨none, rfl, hp⟩ (by rw [hcontains]; rfl) (i := 0) rfl
    (by rw [hw]; rfl)⟩

/-- What is found after some rounds, to look at it. -/
def findsIn (s : Scene) (n : Nat) (test : Run → RuleMatch → Bool) : Bool :=
  (afterRounds? s none n).any fun r => (lookUp s r).toOption.any fun found => found.1.any (test r)

theorem exists_of_findsIn {test : Run → RuleMatch → Bool} {n : Nat} (h : findsIn s n test = true) :
    ∃ r m first, Reached s none n r ∧ lookUp s r = .ok (some m, first) ∧ test r m = true := by
  obtain ⟨r, hr, h⟩ := (Option.any_eq_true _ _).mp h
  obtain ⟨⟨found, first⟩, hl, h⟩ := exists_of_any h
  obtain ⟨m, rfl, htest⟩ := (Option.any_eq_true _ _).mp h
  exact ⟨r, m, first, reached_of_afterRounds? hr, hl, htest⟩

/-- What begins with a letter reads something. -/
theorem reads_letter {source : String} {text : Text} {origin i : Nat} {span : Regex.Span}
    (hcheck : (Pattern.compile source false).toOption.any (fun regex => match regex.node with
      | .seq (.text cs) _ => cs.length == 1
      | _ => false) = true) (h : spanAt false text origin i source = some span) :
    span.start < span.stop := by
  obtain ⟨regex, hregex, hcheck⟩ := exists_of_any hcheck
  have hi : i ≤ text.size := by
    by_contra hi
    rw [spanAt, if_neg hi] at h
    cases h
  rw [Arena.spanAt_of_compile hregex hi] at h
  obtain ⟨m, hm, rfl⟩ := Option.map_eq_some_iff.mp h
  obtain ⟨r, hrun, rfl⟩ := Option.map_eq_some_iff.mp hm
  split at hcheck
  · rename_i cs b hnode
    rw [hnode] at hrun
    replace hrun : (if Regex.standsAt text cs i then
        b.run text origin (Regex.Place.move ⟨i, []⟩ cs.length) some else none) = some r := hrun
    split at hrun
    · rename_i hstands
      obtain ⟨q, hon, hq⟩ := Regex.advances_run b _ some r (Regex.standsAt_le cs i hi hstands) hrun
      cases hq
      have hlength : cs.length = 1 := beq_iff_eq.mp hcheck
      have hle : i + cs.length ≤ r.pos := hon.from_le
      show i < r.pos
      omega
    · cases hrun
  · cases hcheck

/-- Behind a letter a mode is entered at once. -/
theorem entered_behind_letter : ∃ arena next o,
    compileLanguage "l" (prefixLanguage "y" "z+") = .ok arena ∧ LeadIn arena "y" "z+" 1 next o ∧
    EntersBehind (aloneIn arena "yzz") (prefixLanguage "y" "z+") none "y" "z+" 1 next o ∧
    ∃ r m first, Reached (aloneIn arena "yzz") none 2 r ∧
      lookUp (aloneIn arena "yzz") r = .ok (some m, first) ∧ m.kind = .begins o ∧ m.span.start = 1 := by
  have hcheck : (compileLanguage "l" (prefixLanguage "y" "z+")).toOption.any (fun arena =>
      (arena.mode arena.root).contains == [1] && arena.root == 0 &&
        arena.modes.all (fun m => m.starts != some 1) && arena.modes.all (·.onBegin.isNone) &&
        arena.modes.all (·.rules.rules.all fun rule => isPlainPattern false rule.source) &&
        findsIn (aloneIn arena "yzz") 0 (fun _ m => m.kind == .begins 1 && m.span.stop == 1) &&
        (afterRounds? (aloneIn arena "yzz") none 1).isSome &&
        !lacksHeadway (aloneIn arena "yzz") 3 1) = true := by decide +kernel
  obtain ⟨arena, hc, hcheck⟩ := exists_of_any hcheck
  simp only [Bool.and_eq_true, beq_iff_eq, Bool.not_eq_true'] at hcheck
  obtain ⟨⟨⟨⟨⟨⟨⟨hcontains, hroot⟩, hstarts⟩, hhooks⟩, hrules⟩, hfinds⟩, hafter⟩, hheadway⟩ := hcheck
  obtain ⟨r0, m0, first0, hr0, hl0, htest⟩ := exists_of_findsIn hfinds
  simp only [Bool.and_eq_true, beq_iff_eq] at htest
  obtain ⟨r1, hr1⟩ := Option.isSome_iff_exists.mp hafter
  obtain ⟨key, t, hstands⟩ := stands_prefixed hc hcontains
  have hplain : ∀ id, ∀ rule ∈ (arena.mode id).rules.rules, Plain false rule.source :=
    fun id rule hrule => plain_of_isPlainPattern
      (List.all_eq_true.mp (Arena.mode_all rfl hrules id) rule hrule)
  obtain ⟨next, o, _, hmodes, _, _, henters⟩ := before_match_leads_in
    (wellNamed_prefixed "y" "z+") rfl rfl hc hstands
    (fun p hp => by simpa [hp] using Arena.mode_all rfl hstarts p) rfl rfl rfl rfl
    (plain_of_isPlainPattern (by decide +kernel))
  have hmeant : ReadAsMeant false "y" "z+" := by
    have horigin : (Pattern.compile "z+" false).toOption.any (·.node.ignoresOrigin) = true := by
      decide +kernel
    exact ⟨by decide +kernel, ⟨plain_of_isPlainPattern (by decide +kernel),
      plain_of_isPlainPattern (by decide +kernel)⟩, exists_of_any horigin⟩
  have hbehind := henters (aloneIn arena "yzz") none rfl ⟨fun m => ⟨.empty, ?_⟩, fun _ h => (by cases h),
    fun id hid => ?_, fun k r m hled => ?_⟩
  · refine ⟨arena, next, o, hc, hmodes, hbehind, ?_⟩
    rcases hbehind.followed 0 r0 m0 r1 ⟨hr0, ⟨first0, hl0⟩, htest.1⟩ hmeant (hplain _)
      (reached_of_afterRounds? hr1) with hlacks | ⟨r2, _, m, first, _, _, hr2, _, _, _, hl, hkind, hstart, _⟩
    · rw [htest.2, hheadway] at hlacks
      cases hlacks
    · exact ⟨r2, m, first, hr2, hl, hkind, hstart.trans htest.2⟩
  · have hnone : (arena.mode o).onBegin = none :=
      Option.isNone_iff_eq_none.mp (Arena.mode_all rfl hhooks o)
    rw [show (aloneIn arena "yzz").arena = arena from rfl, hnone]
    rfl
  · obtain rfl : arena.root = id := Option.some.inj hid
    exact ⟨by rw [hroot]; decide, hmodes.below.2.2.1⟩
  · obtain ⟨origin, hread⟩ := hled.read hc (hplain _)
    rw [show (aloneIn arena "yzz").arena = arena from rfl, hmodes.begins] at hread
    exact reads_letter (by decide +kernel) hread

/-- **Behind what reads nothing a mode is entered late**: a look behind leads in at the first `z`, but
    the mode is entered one character further on, where the look behind reads nothing. -/
theorem look_behind_enters_late : ∃ arena next o r0 m0 r m first,
    compileLanguage "l" (prefixLanguage "(?<=y)" "z+") = .ok arena ∧
    LeadIn arena "(?<=y)" "z+" 1 next o ∧ LedIn (aloneIn arena "yzz") none 1 0 r0 m0 ∧
    m0.span = ⟨1, 1⟩ ∧ Reached (aloneIn arena "yzz") none 3 r ∧
    lookUp (aloneIn arena "yzz") r = .ok (some m, first) ∧ m.kind = .begins o ∧ m.span = ⟨2, 3⟩ ∧
    ∀ i < 3, spanAt false (Text.ofString "yzz") i i
      (Pattern.join ["(?<=y)", Pattern.lookahead "z+"]) ≠ some ⟨i, 2⟩ := by
  have hcheck : (compileLanguage "l" (prefixLanguage "(?<=y)" "z+")).toOption.any (fun arena =>
      (arena.mode arena.root).contains == [1] && arena.modes.all (fun m => m.starts != some 1) &&
        (arena.mode 1).starts == some 2 && (arena.mode 2).contains == [3] &&
        findsIn (aloneIn arena "yzz") 0 (fun _ m => m.kind == .begins 1 && m.span == ⟨1, 1⟩) &&
        findsIn (aloneIn arena "yzz") 3 fun _ m => m.kind == .begins 3 && m.span == ⟨2, 3⟩) = true := by
    decide +kernel
  obtain ⟨arena, hc, hcheck⟩ := exists_of_any hcheck
  simp only [Bool.and_eq_true, beq_iff_eq] at hcheck
  obtain ⟨⟨⟨⟨⟨hcontains, hstarts⟩, hnext⟩, hled⟩, hfinds⟩, hlate⟩ := hcheck
  obtain ⟨r0, m0, first0, hr0, hl0, htest0⟩ := exists_of_findsIn hfinds
  obtain ⟨r, m, first, hr, hl, htest⟩ := exists_of_findsIn hlate
  simp only [Bool.and_eq_true, beq_iff_eq] at htest0 htest
  obtain ⟨key, t, hstands⟩ := stands_prefixed hc hcontains
  obtain ⟨next, o, _, hmodes, _⟩ := exists_leadIn (wellNamed_prefixed "(?<=y)" "z+") rfl rfl hc hstands
    (fun p hp => by simpa [hp] using Arena.mode_all rfl hstarts p) rfl rfl rfl rfl
  obtain rfl : 2 = next := Option.some.inj (hnext.symm.trans hmodes.leadsTo.2)
  obtain rfl : 3 = o := List.singleton_injective (hled.symm.trans hmodes.holds.1)
  exact ⟨arena, 2, 3, r0, m0, r, m, first, hc, hmodes, ⟨hr0, ⟨first0, hl0⟩, htest0.1⟩, htest0.2, hr, hl,
    htest.1, htest.2, by decide +kernel⟩

/-- **Behind the first of two patterns a mode is not entered**: the bar parts it from the look ahead, so
    that the lead-in begins and ends where the mode does not begin. -/
theorem bar_leaves_mode_out : ∃ arena r0 m0 r,
    compileLanguage "l" (prefixLanguage "a|ab" "c") = .ok arena ∧
    LedIn (aloneIn arena "abc") none 1 0 r0 m0 ∧ m0.span = ⟨0, 1⟩ ∧
    Reached (aloneIn arena "abc") none 3 r ∧ r.frames = r0.frames ∧ r.index = 1 ∧
    spanAt false (Text.ofString "abc") 0 0 "(?:a|ab)(?=c)" = some ⟨0, 2⟩ := by
  have hcheck : (compileLanguage "l" (prefixLanguage "a|ab" "c")).toOption.any (fun arena =>
      findsIn (aloneIn arena "abc") 0 (fun r m => m.kind == .begins 1 && m.span == ⟨0, 1⟩ &&
          r.frames.isEmpty) &&
        (afterRounds? (aloneIn arena "abc") none 3).any fun r => r.frames.isEmpty && r.index == 1) =
      true := by decide +kernel
  obtain ⟨arena, hc, hcheck⟩ := exists_of_any hcheck
  obtain ⟨hfinds, hafter⟩ := Bool.and_eq_true_iff.mp hcheck
  obtain ⟨r0, m0, first0, hr0, hl0, htest0⟩ := exists_of_findsIn hfinds
  obtain ⟨r, hr, htest⟩ := (Option.any_eq_true _ _).mp hafter
  simp only [Bool.and_eq_true, beq_iff_eq, List.isEmpty_iff] at htest0 htest
  exact ⟨arena, r0, m0, r, hc, ⟨hr0, ⟨first0, hl0⟩, htest0.1.1⟩, htest0.1.2, reached_of_afterRounds? hr,
    htest.1.trans htest0.2.symm, htest.2, by decide +kernel⟩

end Highlight.Scan
