import Highlight.Proofs.Pattern.Compiled
import Highlight.Proofs.Pattern.Joined

/-!
# Compiling joined patterns

What becomes of patterns with bars between them: they read what the first of them reads that reads
anything, and the groups of that one, moved behind those of the patterns before it, have read what
they read in the pattern by itself. That is so where each pattern means the same by itself and among
others, and none refers to its groups behind groups of others.

* `among_joined`, `seenAs_joined` -- what is known of a pattern among others;
* `settleEach_joined` -- joined patterns are settled one by one;
* `FirstJoined`, `firstJoined_run` -- what they read;
* `compile_held` -- the same in a group without a number;
* `compile_joined` -- **joined patterns can be compiled where each of them can be, are as plain, and
  read what the first of them reads**.
-/

namespace Highlight.Pattern

open Regex

/-! ## 1. A pattern among others -/

section Groups

variable {g : Nat} {p : List Char × Syntax} {ps xs ys : List (List Char × Syntax)}
  {bs : List Syntax} {t : Syntax}

theorem joinedGroups_append (g : Nat) (xs ys : List (List Char × Syntax)) :
    joinedGroups g (xs ++ ys) = joinedGroups (joinedGroups g xs) ys := List.foldl_append

theorem le_joinedGroups (g : Nat) (ps : List (List Char × Syntax)) : g ≤ joinedGroups g ps := by
  induction ps generalizing g with
  | nil => exact Nat.le_refl g
  | cons p ps ih => exact Nat.le_trans (Nat.le_add_right g _) (ih (g + opens p.1))

/-- The alternatives of some patterns, and of those behind them. -/
theorem joins_append (h : Joins g (xs ++ ys) bs) :
    ∃ cs ds, bs = cs ++ ds ∧ Joins g xs cs ∧ Joins (joinedGroups g xs) ys ds := by
  induction xs generalizing g bs with
  | nil => exact ⟨[], bs, rfl, .nil g, h⟩
  | cons p xs ih =>
    cases h with
    | @cons _ _ _ as bs has h =>
      obtain ⟨cs, ds, rfl, hcs, hds⟩ := ih h
      exact ⟨as.map (Syntax.moved g) ++ cs, ds, (List.append_assoc ..).symm, .cons has hcs, hds⟩

theorem captures_map_moved {as : List Syntax} {a : Syntax} (h : Alternates as a) (g : Nat) :
    (as.map (Syntax.moved g)).flatMap Syntax.captures =
      a.captures.map fun c => (c.1 + g, c.2.moved g) := by
  rw [captures_alternates h, List.flatMap_map, List.map_flatMap]
  exact List.flatMap_congr fun b _ => captures_moved g b

theorem references_map_moved {as : List Syntax} {a : Syntax} (h : Alternates as a) (g : Nat) :
    (as.map (Syntax.moved g)).flatMap Syntax.references = a.references.map (· + g) := by
  rw [references_alternates h, List.flatMap_map, List.map_flatMap]
  exact List.flatMap_congr fun b _ => references_moved g b

/-- The groups and references of joined patterns have numbers from behind those before them on. -/
theorem joins_range (hs : ∀ p ∈ ps, Sound p) (h : Joins g ps bs) :
    (∀ c ∈ bs.flatMap Syntax.captures, g < c.1 ∧ c.1 ≤ joinedGroups g ps) ∧
      ∀ m ∈ bs.flatMap Syntax.references, g < m ∧ m ≤ joinedGroups g ps := by
  induction h with
  | nil g => simp
  | @cons g p ps as bs has _ ih =>
    obtain ⟨rank, hp⟩ := hs p (by simp)
    obtain ⟨hcaptures, hreferences⟩ := ih fun q hq => hs q (List.mem_cons_of_mem p hq)
    have hle := le_joinedGroups (g + opens p.1) ps
    have hall : joinedGroups g (p :: ps) = joinedGroups (g + opens p.1) ps := rfl
    rw [List.flatMap_append, List.flatMap_append, captures_map_moved has, references_map_moved has]
    refine ⟨fun c hc => ?_, fun m hm => ?_⟩
    · rcases List.mem_append.mp hc with hc | hc
      · obtain ⟨d, hd, rfl⟩ := List.mem_map.mp hc
        have := (grounded_captures hp d hd).1
        simp only
        omega
      · have := hcaptures c hc
        omega
    · rcases List.mem_append.mp hm with hm | hm
      · obtain ⟨n, hn, rfl⟩ := List.mem_map.mp hm
        have := grounded_references hp n hn
        omega
      · have := hreferences m hm
        omega

/-- **A joined pattern stands among the others.** -/
theorem among_joined (hs : ∀ q ∈ xs ++ p :: ys, Sound q) (h : Joins 0 (xs ++ p :: ys) bs)
    (ht : Alternates bs t) : Among (joinedGroups 0 xs) (opens p.1) p.2 t := by
  obtain ⟨cs, ds, rfl, hcs, hds⟩ := joins_append h
  cases hds with
  | @cons _ _ _ as ds has hds =>
    obtain ⟨hc1, hr1⟩ := joins_range (fun q hq => hs q (List.mem_append_left _ hq)) hcs
    obtain ⟨hc2, hr2⟩ := joins_range
      (fun q hq => hs q (List.mem_append_right _ (List.mem_cons_of_mem p hq))) hds
    refine ⟨⟨cs.flatMap Syntax.captures, ds.flatMap Syntax.captures, ?_, fun c hc => (hc1 c hc).2,
      fun c hc => (hc2 c hc).1⟩, ⟨cs.flatMap Syntax.references, ds.flatMap Syntax.references, ?_,
      fun m hm => (hr1 m hm).2, fun m hm => (hr2 m hm).1⟩⟩
    · rw [captures_alternates ht, List.flatMap_append, List.flatMap_append, captures_map_moved has,
        List.append_assoc]
    · rw [references_alternates ht, List.flatMap_append, List.flatMap_append,
        references_map_moved has, List.append_assoc]

theorem joinedGroups_stages {xs xs' : List (List Char × Syntax)} (h : List.Forall₂ Stage xs xs')
    (g : Nat) : joinedGroups g xs' = joinedGroups g xs := by
  induction h generalizing g with
  | nil => rfl
  | cons hp _ ih =>
    simp only [joinedGroups, List.foldl_cons, hp.chars] at ih ⊢
    exact ih _

/-- What is known of a pattern at any stage is known of it among others at this stage. -/
theorem seenAs_joined {xs xs' ys ys' : List (List Char × Syntax)} {p p' : List Char × Syntax}
    {bs bs' : List Syntax} {t t' : Syntax} {rank : Nat → Nat} (hxs : List.Forall₂ Stage xs xs')
    (hp : Stage p p') (hys : List.Forall₂ Stage ys ys') (hs : ∀ q ∈ xs ++ p :: ys, Sound q)
    (h : Joins 0 (xs ++ p :: ys) bs) (ht : Alternates bs t) (h' : Joins 0 (xs' ++ p' :: ys') bs')
    (ht' : Alternates bs' t') (hrank : p.2.Grounded (opens p.1) rank) :
    (p'.2.overview p.2.caselessGroups).SeenAs (joinedGroups 0 xs) (opens p.1) rank
      (t'.overview t.caselessGroups) := by
  have hs' := sound_stages (List.rel_append hxs (.cons hp hys)) hs
  have hamong' := among_joined hs' h' ht'
  rw [joinedGroups_stages hxs, hp.chars] at hamong'
  exact hamong'.seenAs (hp.keeps.grounded _ _ hrank) fun n h1 hn =>
    (among_joined hs h ht).caseless h1 hn

end Groups

/-! ## 2. Settling -/

section Settling

variable {flags : Flags} {g : Nat} {ps qs : List (List Char × Syntax)} {bs : List Syntax}
  {a : Syntax}

/-- A tree with its texts replaced by what they can read. -/
def readyTree (a : Syntax) : Syntax := a.joinTexts.foldTexts false

theorem alternates_ready (h : Alternates bs a) : Alternates (bs.map readyTree) (readyTree a) := by
  have := foldTexts_alternates (joinTexts_alternates h) false
  rwa [List.map_map] at this

theorem joins_ready (h : Joins g ps bs) : Joins g (ps.map ready) (bs.map readyTree) := by
  induction h with
  | nil g => exact .nil g
  | @cons g p ps as bs has _ ih =>
    have hmap : (as.map (Syntax.moved g)).map readyTree =
        (as.map readyTree).map (Syntax.moved g) := by
      rw [List.map_map, List.map_map]
      refine List.map_congr_left fun b _ => ?_
      simp only [Function.comp_apply, readyTree, joinTexts_moved, foldTexts_moved]
    rw [List.map_append, hmap]
    exact .cons (p := ready p) (alternates_ready has) ih

/-- A pattern has as many groups behind the passes over its texts as it opens. -/
theorem length_captures_ready {p : List Char × Syntax} (h : Standing flags p.1 p.2) :
    (ready p).2.captures.length = opens p.1 := by
  have hnumbers : (ready p).2.captures.map (·.1) = p.2.captures.map (·.1) :=
    (numbers_foldTexts false _).trans (numbers_joinTexts p.2)
  have hlen := congrArg List.length (hnumbers.trans h.holds.numbers)
  simpa using hlen

theorem settle_of_settles {p q : List Char × Syntax} (h : Settles p q) :
    ((ready p).2.overview p.2.caselessGroups).settle 0 (ready p).2 = .ok q.2 := by
  have hsettled := h.settled
  cases ht : p.2.settled with
  | error e => rw [settledPart, ht] at hsettled; cases hsettled
  | ok t =>
    rw [settledPart, ht] at hsettled
    cases hsettled
    exact ht

/-- **Joined patterns are settled one by one.** -/
theorem settleEach_joined (hs : ∀ p ∈ ps, Standing flags p.1 p.2) (h : Joins 0 ps bs)
    (ha : Alternates bs a) :
    ∀ (ys xs : List (List Char × Syntax)) {qs : List (List Char × Syntax)} {cs : List Syntax},
      ps = xs ++ ys → Joins (joinedGroups 0 xs) (ys.map ready) cs → List.Forall₂ Settles ys qs →
      ∃ ds, ((readyTree a).overview a.caselessGroups).settleEach (joinedGroups 0 xs) cs = .ok ds ∧
        Joins (joinedGroups 0 xs) qs ds
  | [], _, _, _, _, .nil _, .nil => ⟨[], rfl, .nil _⟩
  | p :: ys, xs, _ :: _, _, hps, @Joins.cons _ _ _ as cs has hcs, .cons (b := q) hq hqs => by
      have hsound : ∀ q ∈ xs ++ p :: ys, Sound q := fun q hq =>
        sound_of_standing (hs q (hps ▸ hq))
      obtain ⟨rank, hrank⟩ := hsound p (by simp)
      have hgrounded := (stage_ready p).keeps.grounded _ _ hrank
      have hready := joins_ready h
      rw [hps, List.map_append, List.map_cons] at hready
      have hseen := seenAs_joined (stages_ready xs) (stage_ready p) (stages_ready ys) hsound
        (hps ▸ h) ha hready (alternates_ready ha) hrank
      -- The pattern by itself, its alternatives one after another.
      obtain ⟨es, hes, halt⟩ := settleEach_alternates has (settle_of_settles hq)
      have hmoved := settleEach_moved hseen 0 ((grounded_alternates has).mp hgrounded)
      rw [Nat.zero_add, hes] at hmoved
      -- The patterns behind it.
      have hlen : ((as.map (Syntax.moved (joinedGroups 0 xs))).flatMap Syntax.captures).length =
          opens p.1 := by
        rw [captures_map_moved has, List.length_map, length_captures_ready (hs p (by simp [hps]))]
      have hxs : joinedGroups 0 (xs ++ [p]) = joinedGroups 0 xs + opens p.1 :=
        joinedGroups_append 0 xs [p]
      obtain ⟨ds, hds, hjoins⟩ := settleEach_joined hs h ha ys (xs ++ [p]) (by simp [hps])
        (hxs ▸ hcs) hqs
      rw [hxs] at hds hjoins
      refine ⟨es.map (Syntax.moved (joinedGroups 0 xs)) ++ ds, ?_, .cons halt ?_⟩
      · rw [settleEach_append, hmoved, hlen, hds]
        rfl
      · rwa [(stage_settledPart hq.settled).chars]

/-- **Joined patterns are settled**, and stand there with their alternatives settled. -/
theorem settled_joined (hs : ∀ p ∈ ps, Standing flags p.1 p.2) (h : Joins 0 ps bs)
    (ha : Alternates bs a) (hqs : List.Forall₂ Settles ps qs) :
    ∃ t ds, a.settled = .ok t ∧ Joins 0 qs ds ∧ Alternates ds t := by
  obtain ⟨ds, hds, hjoins⟩ := settleEach_joined hs h ha ps [] rfl (joins_ready h) hqs
  obtain ⟨t, ht, halt⟩ := settle_alternates (alternates_ready ha) hds
  exact ⟨t, ds, ht, hjoins, halt⟩

end Settling

/-! ## 3. What joined patterns read -/

/-- The match `m'` of joined patterns is the match `m` of the one behind `g` groups, which has `size`
    groups. -/
structure Shares (g size : Nat) (m m' : Found) : Prop where
  span : m'.span = m.span
  groups : ∀ n, 1 ≤ n → n ≤ size → m'.captures.find? (n + g) = m.captures.find? n
  others : ∀ n, n ≤ g ∨ g + size < n → m'.captures.find? n = none
  own : ∀ n, size < n → m.captures.find? n = none

/-- **A match of the first of some patterns that has one**; `g` groups stand before them. -/
inductive FirstJoined (text : Text) (origin i : Nat) : Nat → List Regex → Option Found → Prop
  | none (g : Nat) : FirstJoined text origin i g [] none
  | here {g : Nat} {r : Regex} {rs : List Regex} {m m' : Found} :
      r.matchFrom text origin i = some m → Shares g r.groups m m' →
      FirstJoined text origin i g (r :: rs) (some m')
  | later {g : Nat} {r : Regex} {rs : List Regex} {found : Option Found} :
      r.matchFrom text origin i = none → FirstJoined text origin i (g + r.groups) rs found →
      FirstJoined text origin i g (r :: rs) found

section Runs

variable {flags : Flags} {text : Text} {origin i : Nat} {ps qs : List (List Char × Syntax)}
  {bs ds : List Syntax} {a t : Syntax}

/-- A match of moved alternatives has the groups of the pattern by itself. -/
theorem shares_of_same {g size : Nat} {q q' : Place} (h : Same g size [] [] q q') :
    Shares g size (foundAt i q) (foundAt i q') where
  span := by rw [foundAt, foundAt, h.pos]
  groups := fun n h1 hn => h.reads n h1 hn List.not_mem_nil
  others := fun n hn => (h.marks.find?_of_lt (n := n) (by omega)).trans rfl
  own := fun _ hn => h.marks.find?_own hn

/-- What the alternatives of the first pattern read, and what the others read. -/
theorem firstJoined_cons {g : Nat} {r : Regex} {rs : List Regex} {x x' y : Option Place}
    (h : Option.Rel (Same g r.groups [] []) x x') (hr : r.matchFrom text origin i = x.map (foundAt i))
    (hrest : FirstJoined text origin i (g + r.groups) rs (y.map (foundAt i))) :
    FirstJoined text origin i g (r :: rs) ((x' <|> y).map (foundAt i)) := by
  cases h with
  | none => exact .later hr hrest
  | some hq => exact .here hr (shares_of_same hq)

/-- **Joined patterns from one of them on read what the first of them reads that reads anything**,
    and it makes no difference in them what is fresh. -/
theorem firstJoined_run (hs : ∀ p ∈ ps, Sound p) (h : Joins 0 ps bs) (ha : Alternates bs a)
    (h' : Joins 0 qs ds) (ht : Alternates ds t) :
    ∀ (ys ys' xs xs' : List (List Char × Syntax)) {cs : List Syntax} {nodes : List Node},
      ps = xs ++ ys → qs = xs' ++ ys' → List.Forall₂ Settles xs xs' → List.Forall₂ Settles ys ys' →
      Joins (joinedGroups 0 xs) ys' cs →
      List.Forall₂ (t.overview a.caselessGroups).RunsAs cs nodes →
      cs.all (t.overview a.caselessGroups).isSteady = true ∧ ∀ text origin i,
        FirstJoined text origin i (joinedGroups 0 xs) (List.zipWith compiledPart ys ys')
          ((firstRun text origin i nodes).map (foundAt i))
  | [], _, _, _, _, _, _, _, _, .nil, .nil _, .nil => ⟨rfl, fun _ _ _ => .none _⟩
  | p :: ys, q :: ys', xs, xs', _, nodes, hps, hqs, hxs, .cons hpq hys,
      @Joins.cons _ _ _ as cs has hcs, hnodes => by
      have hsound : ∀ r ∈ xs ++ p :: ys, Sound r := fun r hr => hs r (hps ▸ hr)
      obtain ⟨rank, hrank⟩ := hpq.sound
      have hstage := stage_settledPart hpq.settled
      have hseen := seenAs_joined (stages_of_settles hxs) hstage (stages_of_settles hys) hsound
        (hps ▸ h) ha (hqs ▸ h') ht hrank
      have hgrounded := (grounded_alternates has).mp (hstage.keeps.grounded _ _ hrank)
      have hsteady : ∀ b ∈ as, (q.2.overview p.2.caselessGroups).isSteady b = true :=
        List.all_eq_true.mp (isSteady_alternates has _ ▸ hpq.steady)
      have hxs' : joinedGroups 0 (xs ++ [p]) = joinedGroups 0 xs + opens p.1 :=
        joinedGroups_append 0 xs [p]
      rw [hstage.chars] at hcs
      obtain ⟨n1, n2, rfl, hn1, hn2⟩ := exists_of_forall₂_append hnodes
      obtain ⟨hall, hrest⟩ := firstJoined_run hs h ha h' ht ys ys' (xs ++ [p]) (xs' ++ [q])
        (by simp [hps]) (by simp [hqs]) (List.rel_append hxs (.cons hpq .nil)) hys (hxs' ▸ hcs) hn2
      rw [hxs'] at hrest
      generalize t.overview a.caselessGroups = o' at hseen hn1 hall ⊢
      obtain ⟨own, hown, hrun⟩ := run_alternates (o := q.2.overview p.2.caselessGroups) has false
      refine ⟨?_, fun text origin i => ?_⟩
      · rw [List.all_append, hall, Bool.and_true, List.all_map, List.all_eq_true]
        exact fun b hb => (isSteady_moved hseen (hgrounded b hb)).trans (hsteady b hb)
      · rw [firstRun_append]
        exact firstJoined_cons (r := compiledPart p q)
          (same_firstRun hseen hgrounded hsteady hown hn1 text origin i)
          (congrArg (Option.map (foundAt i)) (hrun text origin i)) (hrest text origin i)

end Runs

/-! ## 4. Compiling -/

/-- The groups of some patterns together. -/
def groupsOf : List Regex → Nat
  | [] => 0
  | regex :: regexes => regex.groups + groupsOf regexes

theorem groupsOf_append (rs rs' : List Regex) : groupsOf (rs ++ rs') = groupsOf rs + groupsOf rs' := by
  induction rs with
  | nil => exact (Nat.zero_add _).symm
  | cons r rs ih => rw [List.cons_append, groupsOf, ih, groupsOf, Nat.add_assoc]

section Compile

variable {folded : Bool} {patterns : List String} {regexes : List Regex}

/-- A plain pattern that can be compiled, with its tree before and after it is settled. -/
structure Compiles (folded : Bool) (pattern : String) (regex : Regex) (p q : List Char × Syntax) :
    Prop where
  chars : p.1 = pattern.toList
  standing : Standing ⟨folded, false⟩ p.1 p.2
  settles : Settles p q
  compiled : regex = compiledPart p q

theorem exists_compiles {pattern : String} {regex : Regex} (h : Plain folded pattern)
    (hc : compile pattern folded = .ok regex) : ∃ p q, Compiles folded pattern regex p q := by
  obtain ⟨b, hb⟩ := readSyntax_of_readPattern hc
  obtain ⟨_, a, ha⟩ := exists_standing h.clear hb folded
  have hcompiled := (readPattern_standing (p := (pattern.toList, a)) ha).symm.trans hc
  cases hq : settledPart (pattern.toList, a) with
  | error e => rw [hq] at hcompiled; cases hcompiled
  | ok q =>
    rw [hq] at hcompiled
    cases hcompiled
    exact ⟨_, q, rfl, ha, settles_of_plain h rfl ha hq, rfl⟩

/-- Plain patterns that can be compiled, with their trees. -/
theorem exists_parts
    (h : List.Forall₂ (fun s r => Plain folded s ∧ compile s folded = .ok r) patterns regexes) :
    ∃ ps qs, ps.map (·.1) = patterns.map String.toList ∧
      (∀ p ∈ ps, Standing ⟨folded, false⟩ p.1 p.2) ∧ List.Forall₂ Settles ps qs ∧
      regexes = List.zipWith compiledPart ps qs := by
  induction h with
  | nil => exact ⟨[], [], rfl, by simp, .nil, rfl⟩
  | cons hr _ ih =>
    obtain ⟨p, q, hpq⟩ := exists_compiles hr.1 hr.2
    obtain ⟨ps, qs, hps, hstanding, hqs, rfl⟩ := ih
    refine ⟨p :: ps, q :: qs, by rw [List.map_cons, List.map_cons, hps, hpq.chars], fun r hr => ?_,
      .cons hpq.settles hqs, by rw [hpq.compiled]; rfl⟩
    rcases List.mem_cons.mp hr with rfl | hr
    · exact hpq.standing
    · exact hstanding r hr

theorem joinedGroups_eq {ps qs : List (List Char × Syntax)} (h : List.Forall₂ Settles ps qs)
    (g : Nat) : joinedGroups g ps = g + groupsOf (List.zipWith compiledPart ps qs) := by
  induction h generalizing g with
  | nil => rfl
  | @cons p q ps qs _ _ ih =>
    have := ih (g + opens p.1)
    rw [Nat.add_assoc] at this
    exact this

/-- **Joined patterns can be compiled where each of them can be, and read what the first of them reads
    that reads anything**: plain patterns of which none refers to its groups behind groups of others.
    They are plain together. -/
theorem compile_joined (hne : patterns ≠ [])
    (h : List.Forall₂ (fun s r => Plain folded s ∧ compile s folded = .ok r) patterns regexes)
    (hapart : isApart 0 (patterns.map String.toList) = true) :
    Plain folded (String.intercalate "|" patterns) ∧
      ∃ regex, compile (String.intercalate "|" patterns) folded = .ok regex ∧
        regex.groups = groupsOf regexes ∧
        ∀ text origin i, FirstJoined text origin i 0 regexes (regex.matchFrom text origin i) := by
  obtain ⟨ps, qs, hps, hstanding, hqs, rfl⟩ := exists_parts h
  have hne' : ps ≠ [] := by
    rintro rfl
    exact hne (List.map_eq_nil_iff.mp hps.symm)
  obtain ⟨a, bs, ha, hjoins, halt⟩ := standing_joined hne' hstanding (hps ▸ hapart)
  obtain ⟨t, ds, ht, hjoins', halt'⟩ := settled_joined hstanding hjoins halt hqs
  obtain ⟨hclear, hgroups⟩ := clear_joinedText ps 0 hstanding
  have htext : (String.intercalate "|" patterns).toList = joinedText (ps.map (·.1)) :=
    (toList_intercalate patterns).trans (congrArg joinedText hps.symm)
  have hsound : ∀ p ∈ ps, Sound p := fun p hp => sound_of_standing (hstanding p hp)
  obtain ⟨nodes, hnodes, hrun⟩ := run_alternates (o := t.overview a.caselessGroups) halt' false
  obtain ⟨hsteady, hreads⟩ := firstJoined_run hsound hjoins halt hjoins' halt' ps qs [] [] rfl rfl
    .nil hqs hjoins' hnodes
  refine ⟨⟨htext ▸ hclear, ?_⟩, compiledPart (joinedText (ps.map (·.1)), a)
    (joinedText (ps.map (·.1)), t), ?_, ?_, fun text origin i => ?_⟩
  · rw [htext, isSteady, ha.readSyntax]
    simp only [ht]
    rw [isSteady_alternates halt']
    exact hsteady
  · rw [compile, htext, readPattern_standing (p := (_, a)) ha, settledPart, ht]
    rfl
  · rw [← Nat.zero_add (groupsOf _), ← joinedGroups_eq hqs, hgroups, Nat.zero_add]
    rfl
  · have hmatch : (compiledPart (joinedText (ps.map (·.1)), a)
          (joinedText (ps.map (·.1)), t)).matchFrom text origin i =
        (firstRun text origin i nodes).map (foundAt i) :=
      congrArg (Option.map (foundAt i)) (hrun text origin i)
    rw [hmatch]
    exact hreads text origin i

/-- **Joined patterns that are held together are the joined patterns**, where they can be compiled. -/
theorem compile_held {r : Regex} (hplain : Plain folded (String.intercalate "|" patterns))
    {regex : Regex} (hc : compile (String.intercalate "|" patterns) folded = .ok regex)
    (hr : compile (either patterns false) folded = .ok r) :
    r = regex ∧ Plain folded (either patterns false) := by
  have htext := toList_either patterns
  generalize String.intercalate "|" patterns = joined at hplain hc htext
  obtain ⟨b, hb⟩ := readSyntax_of_readPattern hc
  obtain ⟨_, a, ha⟩ := exists_standing hplain.clear hb folded
  rw [compile, htext] at hr
  obtain ⟨c, hread⟩ := readSyntax_of_readPattern hr
  have hheld := readSyntax_held ha hread
  have hreferences : ∀ m ∈ a.references, m ≤ opens joined.toList := fun m hm =>
    (ha.holds.references m hm).2
  rw [readPattern_of_readSyntax hheld hreferences] at hr
  rw [compile, readPattern_of_readSyntax ha.readSyntax hreferences] at hc
  refine ⟨Except.ok.inj (hr.symm.trans hc), htext ▸ (clear_held ha).1, ?_⟩
  have hsteady := hplain.steady
  rw [isSteady, ha.readSyntax] at hsteady
  rw [htext, isSteady, hheld]
  exact hsteady

end Compile

/-! ## 5. A match of one pattern -/

section OneOf

variable {text : Text} {origin i g size : Nat} {m m' : Found}

/-- Where no groups stand before it, a pattern has the groups of the match. -/
theorem Shares.group? (h : Shares 0 size m m') (n : Nat) : m'.group? n = m.group? n := by
  unfold Found.group?
  split
  · rw [h.span]
  · rename_i hne
    have hpos : 1 ≤ n := Nat.pos_of_ne_zero (by simpa using hne)
    by_cases hn : n ≤ size
    · have := h.groups n hpos hn
      rwa [Nat.add_zero] at this
    · rw [h.others n (.inr (by omega)), h.own n (by omega)]

theorem groupsOf_eq_zero {regexes : List Regex} (h : ∀ r ∈ regexes, r.groups = 0) :
    groupsOf regexes = 0 := by
  induction regexes with
  | nil => rfl
  | cons r regexes ih =>
    have hr := h r List.mem_cons_self
    have := ih fun r' hr' => h r' (List.mem_cons_of_mem r hr')
    rw [groupsOf, hr, this]

/-- A match is not of patterns that read nothing. -/
theorem firstJoined_behind {before regexes : List Regex} {found : Option Found}
    (h : FirstJoined text origin i g (before ++ regexes) found)
    (hnone : ∀ r ∈ before, r.matchFrom text origin i = none) :
    FirstJoined text origin i (g + groupsOf before) regexes found := by
  induction before generalizing g with
  | nil => exact h
  | cons r before ih =>
    rw [List.cons_append] at h
    cases h with
    | here hown _ =>
      rw [hnone r List.mem_cons_self] at hown
      cases hown
    | later _ h =>
      have := ih h fun r' hr' => hnone r' (List.mem_cons_of_mem r hr')
      rwa [Nat.add_assoc] at this

/-- A match leaves the groups before its patterns unread. -/
theorem unread_firstJoined {regexes : List Regex} (h : FirstJoined text origin i g regexes (some m'))
    {n : Nat} (hpos : 1 ≤ n) (hn : n ≤ g) : m'.group? n = none := by
  induction regexes generalizing g with
  | nil => cases h
  | cons r regexes ih =>
    cases h with
    | here _ hshares =>
      rw [Found.group?, if_neg (by simp; omega)]
      exact hshares.others n (.inl hn)
    | later _ h => exact ih h (by omega)

/-- **A match has the groups of the pattern that has matched**, if those before it read nothing there
    and have no groups. -/
theorem group?_firstJoined {before after : List Regex} {r : Regex}
    (h : FirstJoined text origin i 0 (before ++ r :: after) (some m'))
    (hnone : ∀ b ∈ before, b.matchFrom text origin i = none) (hgroups : groupsOf before = 0)
    (hown : r.matchFrom text origin i = some m) : m'.span = m.span ∧
      (∀ n, m'.group? n = m.group? n) ∧ ∀ n, r.groups < n → m'.group? n = none := by
  have hbehind := firstJoined_behind h hnone
  rw [hgroups] at hbehind
  cases hbehind with
  | here hown' hshares =>
    cases hown.symm.trans hown'
    refine ⟨hshares.span, hshares.group?, fun n hn => ?_⟩
    rw [Found.group?, if_neg (by simp; omega)]
    exact hshares.others n (.inr (by omega))
  | later hnone' _ =>
    rw [hown] at hnone'
    cases hnone'

end OneOf

end Highlight.Pattern
