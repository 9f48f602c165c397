import Highlight.Proofs.Arena.Compiled
import Highlight.Proofs.Arena.Hits
import Highlight.Proofs.Pattern.Compiled

/-!
# The rules of a mode in order

What the search of a rule set finds can be said of its rules one by one: at the least index where
any rule reads something by itself, what the first one of these reads there. A search that takes up
behind a rule looks at the index itself at the rules from there on, and further on at all of them.

* `Rule.reads`, `RuleSet.reads` -- what a rule reads by itself;
* `RuleSet.IsFirst`, `RuleSet.IsNext` -- what is to be found;
* `Merges`, `Mergeable` -- rules that can be merged, and whose patterns mean the same by themselves
  and among others;
* `merges_of_build`, `build_of_merges` -- merged patterns of such rules, and of their tails;
* `pick_firstMatch`, `isLeast_search` -- what a merged pattern finds;
* `RuleSet.finds_in_order` -- **the search finds what the rules read in order**;
* `readsApart_of_plain` -- the same where no rule asks where the search began.
-/

namespace Highlight.Arena

open Regex Pattern

/-! ## 1. What rules read by themselves -/

/-- **What a rule reads by itself** at index `i`, in a search that began at index `origin`; `k` is
    its number. -/
def Rule.reads (folded : Bool) (text : Text) (origin i k : Nat) (r : Rule) : Option RuleMatch :=
  if i ≤ text.size then do
    let regex ← (compilePattern r.source folded).toOption
    let m ← regex.matchFrom text origin i
    return ⟨r.kind, k, m.span, (List.range (regex.groups + 1)).map m.group?⟩
  else none

/-- What rule number `k` reads by itself. -/
def RuleSet.reads (rs : RuleSet) (text : Text) (origin i k : Nat) : Option RuleMatch :=
  rs.rules[k]?.bind (Rule.reads rs.folded text origin i k)

/-- What is found from index `i` on: at the least index where any rule reads something, what the
    first one of these reads. -/
def RuleSet.IsFirst (rs : RuleSet) (text : Text) (i : Nat) : Option RuleMatch → Prop
  | some m =>
    i ≤ m.span.start ∧ rs.reads text i m.span.start m.rule = some m ∧
      (∀ k < m.rule, rs.reads text i m.span.start k = none) ∧
      ∀ j k, i ≤ j → j < m.span.start → rs.reads text i j k = none
  | none => ∀ j k, i ≤ j → rs.reads text i j k = none

/-- What is found from index `i` on behind the rules before number `first`: at index `i` itself what
    the first of the rules from there on reads; if none does, what is found further on. -/
def RuleSet.IsNext (rs : RuleSet) (text : Text) (i first : Nat) (found : Option RuleMatch) : Prop :=
  if first = 0 then rs.IsFirst text i found
  else
    (∃ m, found = some m ∧ first ≤ m.rule ∧ rs.reads text i i m.rule = some m ∧
      ∀ k, first ≤ k → k < m.rule → rs.reads text i i k = none) ∨
    (∀ k, first ≤ k → rs.reads text i i k = none) ∧ rs.IsFirst text (i + 1) found

/-- What the first of some rules reads that reads anything; the first of them has number `k`. -/
def firstReading (folded : Bool) (text : Text) (origin i : Nat) : Nat → List Rule → Option RuleMatch
  | _, [] => none
  | k, r :: rules => r.reads folded text origin i k <|> firstReading folded text origin i (k + 1) rules

section Readings

variable {folded : Bool} {text : Text} {origin i k : Nat} {m : RuleMatch} {rules : List Rule}
  {r : Rule}

theorem kind_of_reads (h : r.reads folded text origin i k = some m) : m.kind = r.kind := by
  unfold Rule.reads at h
  split at h
  · obtain ⟨regex, _, h⟩ := Option.bind_eq_some_iff.mp h
    obtain ⟨found, _, h⟩ := Option.bind_eq_some_iff.mp h
    cases h
    rfl
  · cases h

theorem reads_eq_some (h : r.reads folded text origin i k = some m) :
    m.rule = k ∧ m.span.start = i ∧ i ≤ text.size := by
  unfold Rule.reads at h
  split at h
  · rename_i hi
    obtain ⟨regex, _, h⟩ := Option.bind_eq_some_iff.mp h
    obtain ⟨found, hfound, h⟩ := Option.bind_eq_some_iff.mp h
    obtain ⟨p, _, rfl⟩ := Option.map_eq_some_iff.mp hfound
    cases h
    exact ⟨rfl, rfl, hi⟩
  · cases h

theorem firstReading_eq_some : ∀ {k : Nat} {rules : List Rule},
    firstReading folded text origin i k rules = some m →
      ∃ n, m.rule = k + n ∧ rules[n]?.bind (Rule.reads folded text origin i (k + n)) = some m ∧
        ∀ n' < n, rules[n']?.bind (Rule.reads folded text origin i (k + n')) = none
  | _, [], h => by cases h
  | k, r :: rules, h => by
      unfold firstReading at h
      cases hr : r.reads folded text origin i k with
      | some m' =>
        rw [hr] at h
        cases h
        exact ⟨0, (reads_eq_some hr).1, hr, fun n' hn' => absurd hn' (Nat.not_lt_zero n')⟩
      | none =>
        rw [hr] at h
        obtain ⟨n, hrule, hn, hbefore⟩ := firstReading_eq_some (k := k + 1) h
        refine ⟨n + 1, by omega, ?_, fun n' hn' => ?_⟩
        · rw [← hn, Nat.add_assoc, Nat.add_comm 1 n]
          rfl
        · cases n' with
          | zero => exact hr
          | succ n' =>
            rw [← hbefore n' (by omega), Nat.add_assoc, Nat.add_comm 1 n']
            rfl

theorem firstReading_eq_none : ∀ {k : Nat} {rules : List Rule},
    firstReading folded text origin i k rules = none →
      ∀ n, rules[n]?.bind (Rule.reads folded text origin i (k + n)) = none
  | _, [], _, _ => rfl
  | k, r :: rules, h, n => by
      unfold firstReading at h
      cases hr : r.reads folded text origin i k with
      | some m' => rw [hr] at h; cases h
      | none =>
        rw [hr] at h
        cases n with
        | zero => exact hr
        | succ n =>
          rw [← firstReading_eq_none (k := k + 1) h n, Nat.add_assoc, Nat.add_comm 1 n]
          rfl

end Readings

/-! ## 2. Rules whose patterns mean the same -/

/-- The pattern of a rule, and its tree. -/
structure Rule.Has (folded : Bool) (r : Rule) (p : List Char × Syntax) : Prop where
  chars : p.1 = r.source.toList
  standing : Standing ⟨folded, false⟩ p.1 p.2
  groups : groupCount r.source = .ok (opens p.1)

/-- Rules whose patterns, with their trees before and after they are settled, can be merged. -/
structure Merges (folded : Bool) (rules : List Rule) (ps qs : List (List Char × Syntax)) : Prop where
  rules : List.Forall₂ (Rule.Has folded) rules ps
  fits : ∀ p ∈ ps, Pattern.Fits ⟨folded, false⟩ p
  settled : List.Forall₂ (fun p q => settledPart p = .ok q) ps qs

/-- Rules whose patterns, with their trees before and after they are settled, mean the same by
    themselves and among others. -/
structure Mergeable (folded : Bool) (rules : List Rule) (ps qs : List (List Char × Syntax)) : Prop where
  rules : List.Forall₂ (Rule.Has folded) rules ps
  fits : ∀ p ∈ ps, Pattern.Fits ⟨folded, false⟩ p
  settles : List.Forall₂ Settles ps qs

section Mergeable

variable {folded : Bool} {rules : List Rule} {ps qs : List (List Char × Syntax)}

theorem Mergeable.merges (h : Mergeable folded rules ps qs) : Merges folded rules ps qs :=
  ⟨h.rules, h.fits, h.settles.imp fun _ _ => Settles.settled⟩

theorem Mergeable.drop (h : Mergeable folded rules ps qs) (k : Nat) :
    Mergeable folded (rules.drop k) (ps.drop k) (qs.drop k) :=
  ⟨List.forall₂_drop k h.rules, fun p hp => h.fits p (List.mem_of_mem_drop hp),
    List.forall₂_drop k h.settles⟩

/-- A merged pattern that has been built can be compiled. -/
theorem readPattern_of_build {first : Nat} {merged : Merged}
    (h : Merged.build folded first rules = .ok merged) :
    readPattern (Pattern.merge (rules.map (·.source)) "|").toList folded = .ok merged.regex := by
  obtain ⟨_, _, h⟩ := exists_of_bind h
  obtain ⟨regex, hregex, h⟩ := exists_of_bind h
  cases h
  exact ok_of_mapError hregex

theorem has_of_groupCount {r : Rule} {n : Nat} (h : groupCount r.source = .ok n)
    (hclear : Clear 0 r.source.toList) (folded : Bool) : ∃ p, r.Has folded p := by
  have hcount := ok_of_mapError h
  unfold Pattern.countGroups at hcount
  cases hc : Pattern.compile r.source false with
  | error e => rw [hc] at hcount; cases hcount
  | ok regex =>
    rw [hc] at hcount
    cases hcount
    obtain ⟨a, ha⟩ := readSyntax_of_readPattern hc
    obtain ⟨hn, b, hb⟩ := exists_standing hclear ha folded
    exact ⟨(r.source.toList, b), rfl, hb, hn ▸ h⟩

theorem has_of_slots (folded : Bool) : ∀ {group rule : Nat} {rules : List Rule} {slots : List Slot},
    slotsFrom group rule rules = .ok slots → (∀ r ∈ rules, Clear 0 r.source.toList) →
      ∃ ps, List.Forall₂ (Rule.Has folded) rules ps
  | _, _, [], _, _, _ => ⟨[], .nil⟩
  | group, rule, r :: rules, slots, h, hclear => by
      simp only [slotsFrom, bind, Except.bind] at h
      split at h
      · cases h
      · rename_i n hn
        split at h
        · cases h
        · rename_i slots' hslots
          obtain ⟨p, hp⟩ := has_of_groupCount hn (hclear r (by simp)) folded
          obtain ⟨ps, hps⟩ := has_of_slots folded hslots fun r' hr' =>
            hclear r' (List.mem_cons_of_mem r hr')
          exact ⟨p :: ps, .cons hp hps⟩

theorem toList_merge_rules (h : List.Forall₂ (Rule.Has folded) rules ps) :
    (Pattern.merge (rules.map (·.source)) "|").toList = mergedText 0 (ps.map (·.1)) := by
  rw [toList_merge, List.map_map]
  refine congrArg (mergedText 0) ?_
  induction h with
  | nil => rfl
  | cons hp _ ih => rw [List.map_cons, List.map_cons, ih, hp.chars]; rfl

theorem ne_nil_of_rules (h : List.Forall₂ (Rule.Has folded) rules ps) (hne : rules ≠ []) :
    ps ≠ [] := by
  rintro rfl
  cases h
  exact hne rfl

theorem standing_of_rules (h : List.Forall₂ (Rule.Has folded) rules ps) :
    ∀ p ∈ ps, Standing ⟨folded, false⟩ p.1 p.2 := fun _ hp =>
  have ⟨_, _, hr⟩ := exists_of_mem_forall₂ h hp
  hr.standing

theorem settles_of_rules {rules : List Rule} {ps qs : List (List Char × Syntax)}
    (h : List.Forall₂ (Rule.Has folded) rules ps)
    (hqs : List.Forall₂ (fun p q => settledPart p = .ok q) ps qs)
    (hplain : ∀ r ∈ rules, Plain folded r.source) : List.Forall₂ Settles ps qs := by
  induction h generalizing qs with
  | nil =>
    cases hqs
    exact .nil
  | @cons r p rules ps hp _ ih =>
    cases hqs with
    | cons hq hqs =>
      exact .cons (settles_of_plain (hplain r (by simp)) hp.chars hp.standing hq)
        (ih hqs fun r' hr' => hplain r' (List.mem_cons_of_mem r hr'))

/-- Rules whose patterns are clear have trees that can be merged, where they themselves can be. -/
theorem merges_of_build {first : Nat} {merged : Merged} (hne : rules ≠ [])
    (h : Merged.build folded first rules = .ok merged)
    (hclear : ∀ r ∈ rules, Clear 0 r.source.toList) : ∃ ps qs, Merges folded rules ps qs := by
  obtain ⟨ps, hps⟩ := has_of_slots folded (slots_build h) hclear
  have hstanding := standing_of_rules hps
  have hcompiled := readPattern_of_build h
  rw [toList_merge_rules hps] at hcompiled
  obtain ⟨a, ha⟩ := readSyntax_of_readPattern hcompiled
  have hfits := fits_of_readSyntax hstanding ha
  rw [readPattern_merged hstanding (ne_nil_of_rules hps hne) hfits] at hcompiled
  cases hqs : ps.mapM settledPart with
  | error e => rw [hqs] at hcompiled; cases hcompiled
  | ok qs => exact ⟨ps, qs, hps, hfits, forall₂_of_mapM hqs⟩

/-- **Rules whose patterns are plain mean the same by themselves and among others**, where they can
    be merged. -/
theorem mergeable_of_build {first : Nat} {merged : Merged} (hne : rules ≠ [])
    (h : Merged.build folded first rules = .ok merged)
    (hplain : ∀ r ∈ rules, Plain folded r.source) : ∃ ps qs, Mergeable folded rules ps qs := by
  obtain ⟨ps, qs, hmerges⟩ := merges_of_build hne h fun r hr => (hplain r hr).clear
  exact ⟨ps, qs, hmerges.rules, hmerges.fits, settles_of_rules hmerges.rules hmerges.settled hplain⟩

theorem exists_slots : ∀ {rules : List Rule} {ps : List (List Char × Syntax)} (group first : Nat),
    List.Forall₂ (Rule.Has folded) rules ps → ∃ slots, slotsFrom group first rules = .ok slots := by
  intro rules ps group first h
  induction h generalizing group first with
  | nil => exact ⟨[], rfl⟩
  | @cons r p _ _ hp _ ih =>
    obtain ⟨slots, hslots⟩ := ih (group + opens p.1 + 1) (first + 1)
    refine ⟨⟨group, opens p.1, first, r.kind⟩ :: slots, ?_⟩
    simp only [slotsFrom, hp.groups, bind, Except.bind, hslots, pure, Except.pure]

/-- **Such rules can be merged.** -/
theorem build_of_merges (h : Merges folded rules ps qs) (hne : rules ≠ []) (first : Nat) :
    ∃ slots, slotsFrom 1 first rules = .ok slots ∧
      Merged.build folded first rules = .ok ⟨compiledParts ps qs, slots⟩ := by
  obtain ⟨slots, hslots⟩ := exists_slots 1 first h.rules
  have hcompiled := readPattern_merged (standing_of_rules h.rules) (ne_nil_of_rules h.rules hne)
    h.fits
  rw [mapM_of_forall₂ h.settled, ← toList_merge_rules h.rules] at hcompiled
  refine ⟨slots, hslots, ?_⟩
  simp only [Merged.build, hslots, bind, Except.bind, compilePattern, Pattern.compile, hcompiled,
    Except.map, Except.mapError, pure, Except.pure]

end Mergeable

/-! ## 3. What a merged pattern finds -/

section Search

variable {folded : Bool} {text : Text} {origin i : Nat}

theorem compilePattern_of_has {r : Rule} {p q : List Char × Syntax} (hr : r.Has folded p)
    (hq : settledPart p = .ok q) :
    compilePattern r.source folded = .ok (compiledPart p q) := by
  simp only [compilePattern, Pattern.compile, ← hr.chars, readPattern_standing hr.standing, hq,
    Except.map, Except.mapError]

/-- What the rule of a pattern reads by itself. -/
theorem reads_of_has {r : Rule} {p q : List Char × Syntax} (hr : r.Has folded p)
    (hq : settledPart p = .ok q) (hi : i ≤ text.size) (origin k : Nat) :
    r.reads folded text origin i k =
      ((compiledPart p q).matchFrom text origin i).map fun m =>
        ⟨r.kind, k, m.span, (List.range (opens p.1 + 1)).map m.group?⟩ := by
  simp only [Rule.reads, if_pos hi, compilePattern_of_has hr hq, Except.toOption,
    Option.bind_eq_bind, Option.bind_some]
  cases (compiledPart p q).matchFrom text origin i <;> rfl

/-- The groups of a rule have read in a merged pattern what they read in the rule by itself. -/
theorem groupsOf_reports {g size k : Nat} {kind : RuleKind} {m m' : Found}
    (h : Reports g size m m') :
    (Slot.mk (g + 1) size k kind).groupsOf m' = (List.range (size + 1)).map m.group? := by
  refine List.map_congr_left fun n hn => ?_
  have hsize : n ≤ size := Nat.le_of_lt_succ (List.mem_range.mp hn)
  have hne : (g + 1 + n == 0) = false := by
    rw [beq_eq_false_iff_ne]
    omega
  simp only [Found.group?, hne, Bool.false_eq_true, if_false]
  cases n with
  | zero => exact h.whole
  | succ n =>
    rw [Nat.add_comm (g + 1), h.groups (n + 1) (by omega) hsize]
    rfl

/-- **A match of merged patterns is taken for that of the first rule that reads anything.** -/
theorem pick_firstMatch {g k : Nat} {ps qs : List (List Char × Syntax)} {found : Option Found}
    (h : FirstMatch text origin i g ps qs found) {rules : List Rule} {slots : List Slot}
    (hrules : List.Forall₂ (Rule.Has folded) rules ps) (hsettles : List.Forall₂ Settles ps qs)
    (hslots : slotsFrom (g + 1) k rules = .ok slots) (hi : i ≤ text.size) :
    match firstReading folded text origin i k rules with
    | none => found = none
    | some m => ∃ m', found = some m' ∧ (∀ regex, Merged.pick ⟨regex, slots⟩ m' = some m) ∧
        ∀ n, n ≤ g → m'.captures.find? n = none := by
  induction h generalizing k rules slots with
  | none =>
    cases hrules
    rfl
  | @here g p q ps qs m m' hown hreports =>
    cases hrules with
    | @cons r _ rules _ hr hrules =>
      cases hsettles with
      | cons hq _ =>
        have hreads := reads_of_has hr hq.settled hi origin k
        rw [hown, Option.map_some] at hreads
        simp only [slotsFrom, hr.groups, bind, Except.bind] at hslots
        split at hslots
        · cases hslots
        · cases hslots
          rw [firstReading, hreads]
          refine ⟨m', rfl, fun regex => ?_, fun n hn => hreports.others n (.inl hn)⟩
          have hwhole : m'.group? (g + 1) = some m.span := hreports.whole
          simp only [Merged.pick, List.find?_cons, hwhole, Option.isSome_some, hreports.span]
          exact congrArg (fun groups => some (RuleMatch.mk r.kind k m.span groups))
            (groupsOf_reports hreports)
  | @later g p q ps qs found hown hrest ih =>
    cases hrules with
    | @cons r _ rules _ hr hrules =>
      cases hsettles with
      | cons hq hsettles =>
        have hreads := reads_of_has hr hq.settled hi origin k
        rw [hown, Option.map_none] at hreads
        simp only [slotsFrom, hr.groups, bind, Except.bind] at hslots
        split at hslots
        · cases hslots
        · rename_i slots' hslots'
          cases hslots
          have ih := ih hrules hsettles hslots'
          have hfirst : firstReading folded text origin i k (r :: rules) =
              firstReading folded text origin i (k + 1) rules := by
            rw [firstReading, hreads]
            rfl
          rw [hfirst]
          cases hrest : firstReading folded text origin i (k + 1) rules with
          | none =>
            rw [hrest] at ih
            exact ih
          | some m =>
            rw [hrest] at ih
            obtain ⟨m', rfl, hpick, hnone⟩ := ih
            refine ⟨m', rfl, fun regex => ?_, fun n hn => hnone n (by omega)⟩
            have hskip : (m'.group? (g + 1)).isSome = false := by
              rw [show m'.group? (g + 1) = m'.captures.find? (g + 1) from rfl,
                hnone (g + 1) (by omega)]
              rfl
            rw [← hpick regex]
            simp only [Merged.pick, List.find?_cons, hskip]

theorem firstReading_beyond (hi : text.size < i) : ∀ (k : Nat) (rules : List Rule),
    firstReading folded text origin i k rules = none
  | _, [] => rfl
  | k, r :: rules => by
      have hr : r.reads folded text origin i k = none := by
        unfold Rule.reads
        rw [if_neg (by omega)]
      rw [firstReading, hr, firstReading_beyond hi (k + 1) rules]
      rfl

/-- The first answer, index by index, from index `i` on. -/
def IsLeast (f : Nat → Option RuleMatch) (i : Nat) : Option RuleMatch → Prop
  | some m => ∃ j, i ≤ j ∧ f j = some m ∧ ∀ j', i ≤ j' → j' < j → f j' = none
  | none => ∀ j, i ≤ j → f j = none

/-- **A merged pattern finds what the first of its rules reads at the least index where any of them
    reads anything.** -/
theorem isLeast_search {rules : List Rule} {ps qs : List (List Char × Syntax)} {slots : List Slot}
    {k : Nat} (h : Mergeable folded rules ps qs) (hne : rules ≠ [])
    (hslots : slotsFrom 1 k rules = .ok slots) :
    IsLeast (fun j => firstReading folded text i j k rules) i
      (Merged.search ⟨compiledParts ps qs, slots⟩ text i) := by
  have hfirst : ∀ n j, n = text.size + 1 - j →
      IsLeast (fun j => firstReading folded text i j k rules) j
        (((compiledParts ps qs).firstFrom text i n j).bind
          (Merged.pick ⟨compiledParts ps qs, slots⟩)) := by
    intro n
    induction n with
    | zero => exact fun j hj j' hj' => firstReading_beyond (by omega) k rules
    | succ n ih =>
      intro j hj
      have hat := pick_firstMatch (firstMatch_merged h.settles (ne_nil_of_rules h.rules hne) text i j) h.rules h.settles
        hslots (by omega)
      unfold Regex.firstFrom
      cases hread : firstReading folded text i j k rules with
      | some m =>
        rw [hread] at hat
        obtain ⟨m', hm', hpick, _⟩ := hat
        rw [hm', Option.orElse_eq_orElse, Option.orElse_some, Option.bind_some, hpick]
        exact ⟨j, Nat.le_refl j, hread, fun j' h1 h2 => by omega⟩
      | none =>
        rw [hread] at hat
        rw [hat]
        have hrest := ih (j + 1) (by omega)
        have hstep : ∀ j', j ≤ j' → j' = j ∨ j + 1 ≤ j' := by omega
        rw [Option.orElse_eq_orElse, Option.orElse_none]
        cases hfound : ((compiledParts ps qs).firstFrom text i n (j + 1)).bind
            (Merged.pick ⟨compiledParts ps qs, slots⟩) with
        | none =>
          rw [hfound] at hrest
          intro j' hj'
          rcases hstep j' hj' with rfl | hj'
          · exact hread
          · exact hrest j' hj'
        | some m =>
          rw [hfound] at hrest
          obtain ⟨l, hl, hlm, hbefore⟩ := hrest
          refine ⟨l, by omega, hlm, fun j' h1 h2 => ?_⟩
          rcases hstep j' h1 with rfl | h1
          · exact hread
          · exact hbefore j' h1 h2
  exact hfirst _ i rfl

end Search

/-! ## 4. The search of a rule set -/

section Next

variable {rs : RuleSet} {text : Text} {i : Nat} {found : Option RuleMatch}

theorem isFirst_of_isLeast
    (h : IsLeast (fun j => firstReading rs.folded text i j 0 rs.rules) i found) :
    rs.IsFirst text i found := by
  have hnone : ∀ j, firstReading rs.folded text i j 0 rs.rules = none →
      ∀ k, rs.reads text i j k = none := fun j hj k => by
    have := firstReading_eq_none hj k
    rwa [Nat.zero_add] at this
  cases found with
  | none => exact fun j k hj => hnone j (h j hj) k
  | some m =>
    obtain ⟨j, hj, hm, hbefore⟩ := h
    obtain ⟨n, hrule, hn, hfirst⟩ := firstReading_eq_some hm
    obtain ⟨r, _, hr⟩ := Option.bind_eq_some_iff.mp hn
    obtain ⟨_, rfl, _⟩ := reads_eq_some hr
    rw [Nat.zero_add] at hrule hn
    subst hrule
    refine ⟨hj, hn, fun k hk => ?_, fun j' k h1 h2 => hnone j' (hbefore j' h1 h2) k⟩
    have := hfirst k hk
    rwa [Nat.zero_add] at this

/-- What the rules from number `first` on read at an index. -/
theorem reads_of_firstReading {first j : Nat} {m : RuleMatch}
    (h : firstReading rs.folded text i j first (rs.rules.drop first) = some m) :
    first ≤ m.rule ∧ m.span.start = j ∧ rs.reads text i j m.rule = some m ∧
      ∀ k, first ≤ k → k < m.rule → rs.reads text i j k = none := by
  obtain ⟨n, hrule, hn, hbefore⟩ := firstReading_eq_some h
  rw [List.getElem?_drop] at hn
  obtain ⟨r, _, hr⟩ := Option.bind_eq_some_iff.mp hn
  refine ⟨by omega, (reads_eq_some hr).2.1, by rw [hrule]; exact hn, fun k h1 h2 => ?_⟩
  have hk := hbefore (k - first) (by omega)
  rw [List.getElem?_drop, show first + (k - first) = k by omega] at hk
  exact hk

theorem not_reads_of_firstReading {first j : Nat}
    (h : firstReading rs.folded text i j first (rs.rules.drop first) = none) :
    ∀ k, first ≤ k → rs.reads text i j k = none := by
  intro k hk
  have hn := firstReading_eq_none h (k - first)
  rw [List.getElem?_drop, show first + (k - first) = k by omega] at hn
  exact hn

theorem drop_ne_nil {k : Nat} (hk : k < rs.size) : rs.rules.drop k ≠ [] :=
  List.ne_nil_of_length_pos (by
    rw [List.length_drop]
    exact Nat.sub_pos_of_lt hk)

theorem rule_lt_of_reads {j k : Nat} {m : RuleMatch} (h : rs.reads text i j k = some m) :
    m.rule < rs.size := by
  obtain ⟨r, hr, hm⟩ := Option.bind_eq_some_iff.mp h
  rw [(reads_eq_some hm).1]
  exact (List.getElem?_eq_some_iff.mp hr).1

/-- Where the next search looks: behind the rule that was found, and after the last one at the
    first. -/
def RuleSet.resume (rs : RuleSet) (first : Nat) : Option RuleMatch → Nat
  | some m => (m.rule + 1) % rs.size
  | none => first

theorem advance_eq (h : ∀ m, found = some m → m.rule < rs.size) (first : Nat) :
    rs.advance first found = (found, rs.resume first found) := by
  cases found with
  | none => rfl
  | some m =>
    have hlt := h m rfl
    simp only [RuleSet.advance, RuleSet.resume, Prod.mk.injEq, true_and, beq_iff_eq]
    split
    · rename_i heq
      rw [heq, Nat.mod_self]
    · rw [Nat.mod_eq_of_lt (by omega)]

theorem rule_lt_of_isFirst (h : rs.IsFirst text i found) : ∀ m, found = some m → m.rule < rs.size := by
  rintro m rfl
  exact rule_lt_of_reads h.2.1

/-- What is found at the index itself is what the first of the rules from there on reads. -/
theorem isNext_of_near {first : Nat} (hpos : first ≠ 0)
    (h : IsLeast (fun j => firstReading rs.folded text i j first (rs.rules.drop first)) i found)
    (hat : found.any (·.span.start == i) = true) :
    rs.IsNext text i first found ∧ ∀ m, found = some m → m.rule < rs.size := by
  cases found with
  | none => cases hat
  | some m =>
    obtain ⟨j, _, hread, _⟩ := h
    obtain ⟨hle, hspan, hreads, hbefore⟩ := reads_of_firstReading hread
    obtain rfl : j = i := hspan.symm.trans (beq_iff_eq.mp hat)
    refine ⟨?_, fun m' hm' => by cases hm'; exact rule_lt_of_reads hreads⟩
    rw [RuleSet.IsNext, if_neg hpos]
    exact .inl ⟨m, rfl, hle, hreads, hbefore⟩

/-- What is found further on shows that none of the rules from there on reads anything at the index
    itself. -/
theorem not_reads_of_far {first : Nat}
    (h : IsLeast (fun j => firstReading rs.folded text i j first (rs.rules.drop first)) i found)
    (hat : ¬ found.any (·.span.start == i) = true) :
    ∀ k, first ≤ k → rs.reads text i i k = none := by
  refine not_reads_of_firstReading ?_
  cases found with
  | none => exact h i (Nat.le_refl i)
  | some m =>
    obtain ⟨j, hj, hread, hbefore⟩ := h
    have hspan := (reads_of_firstReading hread).2.1
    refine hbefore i (Nat.le_refl i) (Nat.lt_of_le_of_ne hj fun heq => hat ?_)
    simp only [Option.any_some, beq_iff_eq]
    omega

end Next

section Make

variable {rules : List Rule} {folded : Bool} {rs : RuleSet}
  (hmake : RuleSet.make rules folded = .ok rs) (hplain : ∀ r ∈ rules, Plain folded r.source)

include hmake hplain

/-- The rules of a rule set can be merged. -/
theorem mergeable_of_make (hne : rs.rules ≠ []) :
    ∃ ps qs, Mergeable rs.folded rs.rules ps qs := by
  obtain ⟨rfl, rfl, hmerged⟩ := RuleSet.make_eq_ok hmake
  obtain ⟨merged, hmerged⟩ := hmerged hne
  rw [RuleSet.mergedFrom_eq, List.drop_zero] at hmerged
  exact mergeable_of_build hne hmerged hplain

/-- Every tail of rules that can be merged can be merged, and finds what its rules read in order. -/
theorem exists_tail {k : Nat} (hk : k < rs.size) (text : Text) :
    ∃ merged, rs.mergedFrom k = .ok merged ∧ ∀ i,
      IsLeast (fun j => firstReading rs.folded text i j k (rs.rules.drop k)) i
        (merged.search text i) := by
  obtain ⟨ps, qs, hmergeable⟩ := mergeable_of_make hmake hplain
    (List.ne_nil_of_length_pos (Nat.lt_of_le_of_lt (Nat.zero_le k) hk))
  have hne := drop_ne_nil hk
  obtain ⟨slots, hslots, hbuild⟩ := build_of_merges (hmergeable.drop k).merges hne k
  refine ⟨_, (rs.mergedFrom_eq k).trans hbuild, fun i => ?_⟩
  exact isLeast_search (hmergeable.drop k) hne hslots

end Make

/-- **The search of a rule set finds what its rules read in order**, and goes on behind the rule that
    it has found: for rules that can be merged and whose patterns are plain, in every text, from
    every index on and behind every rule. -/
theorem RuleSet.finds_in_order {rules : List Rule} {folded : Bool} {rs : RuleSet}
    (hmake : RuleSet.make rules folded = .ok rs) (hplain : ∀ r ∈ rules, Plain folded r.source)
    (text : Text) (i first : Nat) :
    ∃ found, rs.next text i first = .ok (found, rs.resume first found) ∧
      rs.IsNext text i (if first < rs.size then first else 0) found := by
  unfold RuleSet.next
  by_cases hempty : rs.rules.isEmpty = true
  · have hsize : rs.size = 0 := by rw [RuleSet.size, List.isEmpty_iff.mp hempty]; rfl
    rw [if_pos hempty, hsize, if_neg (Nat.not_lt_zero first)]
    refine ⟨none, rfl, fun j k _ => ?_⟩
    rw [RuleSet.reads, List.isEmpty_iff.mp hempty]
    rfl
  · have hpos : 0 < rs.size := by
      rw [List.isEmpty_iff] at hempty
      exact List.length_pos_iff.mpr hempty
    have hstart : (if first < rs.size then first else 0) < rs.size := by
      split
      · assumption
      · exact hpos
    rw [if_neg hempty]
    generalize (if first < rs.size then first else 0) = start at hstart ⊢
    obtain ⟨merged, hmerged, hleast⟩ := exists_tail hmake hplain hstart text
    obtain ⟨all, hall, hleastAll⟩ := exists_tail hmake hplain hpos text
    have hfirst : ∀ i, rs.IsFirst text i (all.search text i) := fun i =>
      isFirst_of_isLeast (hleastAll i)
    simp only [hmerged, hall, bind, Except.bind]
    by_cases hzero : start = 0
    · subst hzero
      obtain rfl : merged = all := Except.ok.inj (hmerged.symm.trans hall)
      refine ⟨merged.search text i, ?_, ?_⟩
      · rw [← advance_eq (rule_lt_of_isFirst (hfirst i))]
        rfl
      · rw [RuleSet.IsNext, if_pos rfl]
        exact hfirst i
    · have hbeq : (start == 0) = false := by simpa using hzero
      rw [hbeq, Bool.false_or]
      by_cases hat : (merged.search text i).any (fun m => m.span.start == i) = true
      · obtain ⟨hnext, hrule⟩ := isNext_of_near hzero (hleast i) hat
        rw [if_pos hat]
        refine ⟨merged.search text i, ?_, hnext⟩
        rw [← advance_eq hrule]
        rfl
      · rw [if_neg hat]
        refine ⟨all.search text (i + 1), ?_, ?_⟩
        · rw [← advance_eq (rule_lt_of_isFirst (hfirst (i + 1)))]
          rfl
        · rw [RuleSet.IsNext, if_neg hzero]
          exact .inr ⟨not_reads_of_far (hleast i) hat, hfirst (i + 1)⟩

/-- Rules that can be merged make a rule set. -/
theorem make_of_build {rules : List Rule} {folded : Bool}
    (h : (Merged.build folded 0 rules).isOk = true) :
    RuleSet.make rules folded = .ok { rules, folded } := by
  unfold RuleSet.make
  cases rules with
  | nil => rfl
  | cons r rules =>
    have hmerged := RuleSet.mergedFrom_eq { rules := r :: rules, folded } 0
    rw [List.drop_zero] at hmerged
    simp only [List.isEmpty_cons, Bool.false_eq_true, if_false, hmerged]
    cases hb : Merged.build folded 0 (r :: rules) with
    | error e => rw [hb] at h; cases h
    | ok merged => rfl

/-- Two rules with references of their own. -/
def pairs : List Rule := [⟨.begins 1, "(a)\\1"⟩, ⟨.ends, "(b)(c)\\2"⟩]

theorem finds_pairs_in_order :
    ∃ rs, RuleSet.make pairs false = .ok rs ∧ (∀ r ∈ pairs, Plain false r.source) ∧
      ∃ found, rs.next (Text.ofString "aabcc") 0 1 = .ok (found, rs.resume 1 found) ∧
        rs.IsNext (Text.ofString "aabcc") 0 1 found := by
  have hmake : RuleSet.make pairs false = .ok { rules := pairs, folded := false } :=
    make_of_build (by decide +kernel)
  have hplain : ∀ r ∈ pairs, Plain false r.source := by
    intro r hr
    simp only [pairs, List.mem_cons, List.not_mem_nil, or_false] at hr
    rcases hr with rfl | rfl
    · exact ⟨by unfold Clear; decide +kernel, by decide +kernel⟩
    · exact ⟨by unfold Clear; decide +kernel, by decide +kernel⟩
  exact ⟨_, hmake, hplain, RuleSet.finds_in_order hmake hplain (Text.ofString "aabcc") 0 1⟩

/-- A class that begins with the bracket that would close it, before a rule with a reference. -/
def bracketed : List Rule := [⟨.begins 1, "[](]"⟩, ⟨.begins 2, "(a)(b)\\1"⟩]

/-- **Such a class hides a group**: the brackets are taken for a class of their own, and the
    parenthesis behind them for a group, by which the references of later rules are moved too far.
    The second rule reads the text by itself, and is not found. -/
theorem class_hides_group :
    ∃ rs, RuleSet.make bracketed false = .ok rs ∧
      ¬ ∃ found, rs.next (Text.ofString "aba") 0 0 = .ok (found, rs.resume 0 found) ∧
        rs.IsNext (Text.ofString "aba") 0 0 found := by
  refine ⟨_, make_of_build (by decide +kernel), ?_⟩
  rintro ⟨found, hnext, hfound⟩
  have hnone : ((RuleSet.next { rules := bracketed, folded := false } (Text.ofString "aba") 0
      0).toOption.map (·.1)) = some none := by decide +kernel
  rw [hnext] at hnone
  cases hnone
  have hreads : (RuleSet.reads { rules := bracketed, folded := false } (Text.ofString "aba") 0 0
      1).isSome = true := by decide +kernel
  rw [show RuleSet.reads _ _ 0 0 1 = none from hfound 0 1 (Nat.le_refl 0)] at hreads
  cases hreads

/-! ## 5. Wherever the search began -/

section Apart

variable {folded : Bool} {text : Text}

/-- What a pattern finds by itself it reads in every search, if it does not ask where that began. -/
theorem matchAt_eq_matchFrom {r : Regex} (h : r.node.ignoresOrigin = true) {i : Nat}
    (hi : i ≤ text.size) (origin : Nat) : r.matchAt text i = r.matchFrom text origin i := by
  rw [Regex.matchAt, if_pos hi, Regex.matchFrom, run_origin h text i origin]
  rfl

/-- What a rule finds by itself it reads by itself, if it does not ask where the search began. -/
theorem own_eq_reads {r : Rule} {p q : List Char × Syntax} (hr : r.Has folded p)
    (hq : settledPart p = .ok q) (horigin : (compiledPart p q).node.ignoresOrigin = true)
    {i : Nat} (hi : i ≤ text.size) (origin k : Nat) :
    r.own folded text i k = r.reads folded text origin i k := by
  have hcompiled := compilePattern_of_has hr hq
  have hmatch := matchAt_eq_matchFrom horigin hi origin
  rw [reads_of_has hr hq hi origin]
  simp only [Rule.own, hcompiled, hr.groups, Except.toOption, Option.bind_eq_bind,
    Option.bind_some, hmatch]
  cases (compiledPart p q).matchFrom text origin i <;> rfl

theorem head?_ownAt {rules : List Rule} {ps qs : List (List Char × Syntax)}
    (hrules : List.Forall₂ (Rule.Has folded) rules ps) (hsettles : List.Forall₂ Settles ps qs)
    (horigin : ∀ r ∈ rules, ∀ regex, compilePattern r.source folded = .ok regex →
      regex.node.ignoresOrigin = true) {i : Nat} (hi : i ≤ text.size) (origin k : Nat) :
    (ownAt folded text i k rules).head? = firstReading folded text origin i k rules := by
  induction hrules generalizing qs k with
  | nil => rfl
  | @cons r p rules ps hr _ ih =>
    cases hsettles with
    | cons hq hsettles =>
      have hown := own_eq_reads hr hq.settled
        (horigin r (by simp) _ (compilePattern_of_has hr hq.settled)) hi origin k
      have ih := ih hsettles (fun r' hr' => horigin r' (List.mem_cons_of_mem r hr')) (k + 1)
      rw [ownAt, firstReading, hown]
      cases r.reads folded text origin i k with
      | some m => rfl
      | none => exact ih

/-- **Merged patterns find what their rules find by themselves**: for rules whose patterns are plain
    and do not ask where the search began. -/
theorem readsApart_of_plain {rules : List Rule} {rs : RuleSet}
    (hmake : RuleSet.make rules folded = .ok rs) (hplain : ∀ r ∈ rules, Plain folded r.source)
    (horigin : ∀ r ∈ rules, ∀ regex, compilePattern r.source folded = .ok regex →
      regex.node.ignoresOrigin = true) (text : Text) : rs.ReadsApart text := by
  intro k hk
  obtain ⟨rfl, rfl, _⟩ := RuleSet.make_eq_ok hmake
  obtain ⟨ps, qs, hmergeable⟩ := mergeable_of_make hmake hplain
    (List.ne_nil_of_length_pos (Nat.lt_of_le_of_lt (Nat.zero_le k) hk))
  have hne := drop_ne_nil hk
  obtain ⟨hrules, _, hsettles⟩ := hmergeable.drop k
  obtain ⟨slots, hslots, hbuild⟩ := build_of_merges (hmergeable.drop k).merges hne k
  refine ⟨_, (rs.mergedFrom_eq k).trans hbuild, fun i => search_eq_head? fun j hj => ?_⟩
  have hat := pick_firstMatch (firstMatch_merged hsettles (ne_nil_of_rules hrules hne) text i j)
    hrules hsettles hslots hj
  have hhead := head?_ownAt hrules hsettles
    (fun r hr => horigin r (List.mem_of_mem_drop hr)) hj i k
  rw [← hhead] at hat
  cases hown : ownAt rs.folded text j k (rs.rules.drop k) with
  | nil =>
    rw [hown] at hat
    exact hat
  | cons m ms =>
    rw [hown] at hat
    obtain ⟨m', hm', hpick, _⟩ := hat
    exact ⟨m', hm', hpick _⟩

end Apart

end Highlight.Arena
