import Highlight.Proofs.Pattern.Merged
import Highlight.Proofs.Regex.Nodes
import Highlight.Proofs.Regex.Settling
import Highlight.Regex.Search

/-!
# Compiling merged patterns

What becomes of a pattern that stands among others in a merged one: the same as of the pattern by
itself, with its groups moved. It can be compiled there where it can be by itself.

* `Among`, `among_merged` -- what is known of a pattern among others;
* `settled_merged` -- merged patterns are settled one by one;
* `readPattern_of_readSyntax`, `readPattern_merged` -- what is compiled;
* `Plain` -- patterns that mean the same by themselves and among others;
* `FirstMatch`, `firstMatch_merged` -- **merged patterns read what the first of them reads**.
-/

namespace Highlight.Pattern

open Regex

/-! ## 1. The groups of merged patterns -/

/-- A pattern with its tree, the groups of which have ranks. -/
def Sound (p : List Char × Syntax) : Prop := ∃ rank, p.2.Grounded (opens p.1) rank

section Groups

variable {p : List Char × Syntax} {xs ys : List (List Char × Syntax)}

theorem mergedGroups_append (g : Nat) (xs ys : List (List Char × Syntax)) :
    mergedGroups g (xs ++ ys) = mergedGroups (mergedGroups g xs) ys := List.foldl_append

theorem le_mergedGroups (g : Nat) (xs : List (List Char × Syntax)) : g ≤ mergedGroups g xs := by
  induction xs generalizing g with
  | nil => exact Nat.le_refl g
  | cons p xs ih =>
    have := ih (g + 1 + opens p.1)
    simp only [mergedGroups, List.foldl_cons] at this ⊢
    omega

theorem captures_merged_cons (g : Nat) (p : List Char × Syntax)
    (ys : List (List Char × Syntax)) :
    (mergedTree g (p :: ys)).captures =
      ((g + 1, p.2.moved (g + 1)) :: (p.2.moved (g + 1)).captures) ++
        (mergedTree (g + 1 + opens p.1) ys).captures := by
  cases ys with
  | nil => exact (List.append_nil _).symm
  | cons q ys => rfl

theorem references_merged_cons (g : Nat) (p : List Char × Syntax)
    (ys : List (List Char × Syntax)) :
    (mergedTree g (p :: ys)).references =
      (p.2.moved (g + 1)).references ++ (mergedTree (g + 1 + opens p.1) ys).references := by
  cases ys with
  | nil => exact (List.append_nil _).symm
  | cons q ys => rfl

theorem captures_merged_append (g : Nat) (xs ys : List (List Char × Syntax)) :
    (mergedTree g (xs ++ ys)).captures =
      (mergedTree g xs).captures ++ (mergedTree (mergedGroups g xs) ys).captures := by
  induction xs generalizing g with
  | nil => rfl
  | cons p xs ih =>
    rw [List.cons_append, captures_merged_cons, captures_merged_cons, ih, List.append_assoc]
    rfl

theorem references_merged_append (g : Nat) (xs ys : List (List Char × Syntax)) :
    (mergedTree g (xs ++ ys)).references =
      (mergedTree g xs).references ++ (mergedTree (mergedGroups g xs) ys).references := by
  induction xs generalizing g with
  | nil => rfl
  | cons p xs ih =>
    rw [List.cons_append, references_merged_cons, references_merged_cons, ih, List.append_assoc]
    rfl

/-- The groups of merged patterns are numbered from behind those before them. -/
theorem captures_range (g : Nat) (h : ∀ p ∈ xs, Sound p) :
    ∀ c ∈ (mergedTree g xs).captures, g < c.1 ∧ c.1 ≤ mergedGroups g xs := by
  induction xs generalizing g with
  | nil => exact fun c hc => absurd hc List.not_mem_nil
  | cons p xs ih =>
    intro c hc
    obtain ⟨rank, hp⟩ := h p (by simp)
    have hle := le_mergedGroups (g + 1 + opens p.1) xs
    have hall : mergedGroups g (p :: xs) = mergedGroups (g + 1 + opens p.1) xs := rfl
    rw [captures_merged_cons, captures_moved] at hc
    rcases List.mem_append.mp hc with hc | hc
    · rcases List.mem_cons.mp hc with rfl | hc
      · simp only
        omega
      · obtain ⟨d, hd, rfl⟩ := List.mem_map.mp hc
        have := (grounded_captures hp d hd).1
        simp only
        omega
    · have := ih (g + 1 + opens p.1) (fun q hq => h q (List.mem_cons_of_mem p hq)) c hc
      omega

/-- The group around a pattern holds its tree, moved by the number of the group. -/
theorem lookup_merged (hxs : ∀ q ∈ xs, Sound q) (p : List Char × Syntax)
    (ys : List (List Char × Syntax)) :
    (mergedTree 0 (xs ++ p :: ys)).captures.lookup (mergedGroups 0 xs + 1) =
      some (p.2.moved (mergedGroups 0 xs + 1)) := by
  have hnone : (mergedTree 0 xs).captures.lookup (mergedGroups 0 xs + 1) = none := by
    refine List.lookup_eq_none_iff.mpr fun c hc => ?_
    have := (captures_range 0 hxs c hc).2
    simp only [bne_iff_ne, ne_eq]
    omega
  rw [captures_merged_append, captures_merged_cons, List.lookup_append, hnone, List.cons_append,
    List.lookup_cons, beq_self_eq_true]
  rfl

theorem references_range (g : Nat) (h : ∀ p ∈ xs, Sound p) :
    ∀ m ∈ (mergedTree g xs).references, g < m ∧ m ≤ mergedGroups g xs := by
  induction xs generalizing g with
  | nil => exact fun c hc => absurd hc List.not_mem_nil
  | cons p xs ih =>
    intro m hm
    obtain ⟨rank, hp⟩ := h p (by simp)
    have hle := le_mergedGroups (g + 1 + opens p.1) xs
    have hall : mergedGroups g (p :: xs) = mergedGroups (g + 1 + opens p.1) xs := rfl
    rw [references_merged_cons, references_moved] at hm
    rcases List.mem_append.mp hm with hm | hm
    · obtain ⟨n, hn, rfl⟩ := List.mem_map.mp hm
      have := grounded_references hp n hn
      omega
    · have := ih (g + 1 + opens p.1) (fun q hq => h q (List.mem_cons_of_mem p hq)) m hm
      omega

/-! ## 2. A pattern among others -/

/-- **A tree among others**: its groups and references, moved, stand behind those with numbers up to
    `offset` and before greater ones. -/
structure Among (offset size : Nat) (a t : Syntax) : Prop where
  captures : ∃ before after, t.captures =
      before ++ (a.captures.map fun c => (c.1 + offset, c.2.moved offset)) ++ after ∧
    (∀ c ∈ before, c.1 ≤ offset) ∧ ∀ c ∈ after, offset + size < c.1
  references : ∃ before after, t.references = before ++ a.references.map (· + offset) ++ after ∧
    (∀ m ∈ before, m ≤ offset) ∧ ∀ m ∈ after, offset + size < m

theorem lookup_map_moved (offset n : Nat) (groups : List (Nat × Syntax)) :
    (groups.map fun c => (c.1 + offset, c.2.moved offset)).lookup (n + offset) =
      (groups.lookup n).map (Syntax.moved offset) := by
  induction groups with
  | nil => rfl
  | cons c groups ih =>
    obtain ⟨m, a⟩ := c
    have hbeq : (n + offset == m + offset) = (n == m) := by
      rw [Bool.eq_iff_iff, beq_iff_eq, beq_iff_eq]
      omega
    simp only [List.map_cons, List.lookup_cons, ih, hbeq]
    cases n == m <;> rfl

section Among

variable {offset size n : Nat} {a t : Syntax} (h : Among offset size a t)

include h

/-- **What is known of a tree is known of it among others.** -/
theorem Among.seenAs {rank : Nat → Nat} {caseless caseless' : List Nat} (ha : a.Grounded size rank)
    (hcase : ∀ n, 1 ≤ n → n ≤ size → caseless'.contains (n + offset) = caseless.contains n) :
    (a.overview caseless).SeenAs offset size rank (t.overview caseless') := by
  obtain ⟨before, after, heq, hbefore, hafter⟩ := h.captures
  obtain ⟨before', after', heq', hbefore', hafter'⟩ := h.references
  refine ⟨fun n h1 hn => ?_, ?_, fun c hc => (grounded_captures ha c hc).2, fun n h1 hn => ?_,
    hcase⟩
  · have hnone : before.lookup (n + offset) = none := by
      refine List.lookup_eq_none_iff.mpr fun c hc => ?_
      have := hbefore c hc
      simp only [bne_iff_ne, ne_eq]
      omega
    have hnone' : after.lookup (n + offset) = none := by
      refine List.lookup_eq_none_iff.mpr fun c hc => ?_
      have := hafter c hc
      simp only [bne_iff_ne, ne_eq]
      omega
    simp only [Syntax.overview, heq, List.lookup_append, hnone, hnone', lookup_map_moved,
      Option.none_or, Option.or_none]
  · simp only [Syntax.overview, heq, List.length_append, List.length_map]
    omega
  · have hx : before'.count (n + offset) = 0 :=
      List.count_eq_zero_of_not_mem fun hm => by
        have := hbefore' _ hm
        omega
    have hy : after'.count (n + offset) = 0 :=
      List.count_eq_zero_of_not_mem fun hm => by
        have := hafter' _ hm
        omega
    simp only [Syntax.overview, heq', List.count_append, hx, hy]
    rw [List.count_map_of_injective _ _ fun _ _ => Nat.add_right_cancel, Nat.zero_add,
      Nat.add_zero]

/-- The groups of a tree in which case does not count are so among others. -/
theorem Among.caseless (h1 : 1 ≤ n) (hn : n ≤ size) :
    t.caselessGroups.contains (n + offset) = a.caselessGroups.contains n := by
  obtain ⟨before, after, heq, hbefore, hafter⟩ := h.captures
  rw [Bool.eq_iff_iff, List.contains_iff_mem, List.contains_iff_mem]
  simp only [Syntax.caselessGroups, heq, List.mem_map, List.mem_filter, List.mem_append]
  constructor
  · rintro ⟨c, ⟨(hc | ⟨d, hd, rfl⟩) | hc, hcase⟩, hcn⟩
    · have := hbefore c hc
      omega
    · refine ⟨d, ⟨hd, ?_⟩, Nat.add_right_cancel hcn⟩
      rwa [isCaseless_moved] at hcase
    · have := hafter c hc
      omega
  · rintro ⟨d, ⟨hd, hcase⟩, rfl⟩
    refine ⟨_, ⟨.inl (.inr ⟨d, hd, rfl⟩), ?_⟩, rfl⟩
    rwa [isCaseless_moved]

end Among

/-- **A merged pattern stands among the others.** -/
theorem among_merged (hxs : ∀ q ∈ xs, Sound q) (hys : ∀ q ∈ ys, Sound q) :
    Among (mergedGroups 0 xs + 1) (opens p.1) p.2 (mergedTree 0 (xs ++ p :: ys)) := by
  refine ⟨⟨(mergedTree 0 xs).captures ++
      [(mergedGroups 0 xs + 1, p.2.moved (mergedGroups 0 xs + 1))],
    (mergedTree (mergedGroups 0 xs + 1 + opens p.1) ys).captures, ?_, fun c hc => ?_,
    fun c hc => (captures_range _ hys c hc).1⟩, ⟨(mergedTree 0 xs).references,
    (mergedTree (mergedGroups 0 xs + 1 + opens p.1) ys).references, ?_,
    fun m hm => Nat.le_succ_of_le (references_range 0 hxs m hm).2,
    fun m hm => (references_range _ hys m hm).1⟩⟩
  · rw [captures_merged_append, captures_merged_cons, captures_moved]
    simp only [List.append_assoc, List.cons_append, List.nil_append]
  · rcases List.mem_append.mp hc with hc | hc
    · exact Nat.le_succ_of_le (captures_range 0 hxs c hc).2
    · cases List.mem_singleton.mp hc
      exact Nat.le_refl _
  · rw [references_merged_append, references_merged_cons, references_moved, List.append_assoc]

end Groups

/-! ## 3. Settling -/

theorem joinTexts_merged : ∀ (g : Nat) (ps : List (List Char × Syntax)),
    (mergedTree g ps).joinTexts = mergedTree g (ps.map (Prod.map id Syntax.joinTexts))
  | _, [] => rfl
  | g, [p] => by simp [mergedTree, Syntax.joinTexts, joinTexts_moved]
  | g, p :: q :: ps => by
      have ih := joinTexts_merged (g + 1 + opens p.1) (q :: ps)
      rw [List.map_cons] at ih
      simp [mergedTree, Syntax.joinTexts, joinTexts_moved, ih]

theorem foldTexts_merged : ∀ (g : Nat) (ps : List (List Char × Syntax)),
    (mergedTree g ps).foldTexts false =
      mergedTree g (ps.map (Prod.map id (Syntax.foldTexts false)))
  | _, [] => rfl
  | g, [p] => by simp [mergedTree, Syntax.foldTexts, foldTexts_moved]
  | g, p :: q :: ps => by
      have ih := foldTexts_merged (g + 1 + opens p.1) (q :: ps)
      rw [List.map_cons] at ih
      simp [mergedTree, Syntax.foldTexts, foldTexts_moved, ih]

/-- A pattern with its texts replaced by what they can read. -/
def ready (p : List Char × Syntax) : List Char × Syntax :=
  (p.1, p.2.joinTexts.foldTexts false)

theorem ready_merged (ps : List (List Char × Syntax)) :
    (mergedTree 0 ps).joinTexts.foldTexts false = mergedTree 0 (ps.map ready) := by
  rw [joinTexts_merged, foldTexts_merged, List.map_map]
  rfl

/-- A pattern with its looks behind settled. -/
def settledPart (p : List Char × Syntax) : Except Regex.Fault (List Char × Syntax) :=
  p.2.settled.map fun t => (p.1, t)

/-- The second pattern comes from the first one, and has the same groups or fewer. -/
structure Stage (p q : List Char × Syntax) : Prop where
  chars : q.1 = p.1
  keeps : Keeps p.2 q.2

theorem Stage.sound {p q : List Char × Syntax} (h : Stage p q) (hp : Sound p) : Sound q := by
  obtain ⟨rank, hp⟩ := hp
  refine ⟨rank, ?_⟩
  rw [h.chars]
  exact h.keeps.grounded _ _ hp

theorem stage_ready (p : List Char × Syntax) : Stage p (ready p) :=
  ⟨rfl, (keeps_joinTexts p.2).trans (keeps_foldTexts false _)⟩

theorem stage_settledPart {p q : List Char × Syntax} (h : settledPart p = .ok q) : Stage p q := by
  cases hs : p.2.settled with
  | error e => rw [settledPart, hs] at h; cases h
  | ok t =>
    rw [settledPart, hs] at h
    cases h
    exact ⟨rfl, keeps_settled hs⟩

theorem mergedGroups_stages {xs xs' : List (List Char × Syntax)} (h : List.Forall₂ Stage xs xs')
    (g : Nat) : mergedGroups g xs' = mergedGroups g xs := by
  induction h generalizing g with
  | nil => rfl
  | cons hp _ ih =>
    simp only [mergedGroups, List.foldl_cons, hp.chars] at ih ⊢
    exact ih _

theorem sound_stages {xs xs' : List (List Char × Syntax)} (h : List.Forall₂ Stage xs xs')
    (hs : ∀ p ∈ xs, Sound p) : ∀ q ∈ xs', Sound q := by
  induction h with
  | nil => exact hs
  | cons hp _ ih =>
    intro q hq
    rcases List.mem_cons.mp hq with rfl | hq
    · exact hp.sound (hs _ List.mem_cons_self)
    · exact ih (fun r hr => hs r (List.mem_cons_of_mem _ hr)) q hq

theorem stages_ready (xs : List (List Char × Syntax)) : List.Forall₂ Stage xs (xs.map ready) := by
  rw [List.forall₂_map_right_iff]
  exact List.forall₂_same.mpr fun p _ => stage_ready p

/-- What is known of a pattern at any stage is known of it among others at this stage. -/
theorem seenAs_stages {xs xs' ys ys' : List (List Char × Syntax)} {p p' : List Char × Syntax}
    {rank : Nat → Nat} (hxs : List.Forall₂ Stage xs xs') (hp : Stage p p')
    (hys : List.Forall₂ Stage ys ys') (hs : ∀ q ∈ xs ++ p :: ys, Sound q)
    (hrank : p.2.Grounded (opens p.1) rank) :
    (p'.2.overview p.2.caselessGroups).SeenAs (mergedGroups 0 xs + 1) (opens p.1) rank
      ((mergedTree 0 (xs' ++ p' :: ys')).overview (mergedTree 0 (xs ++ p :: ys)).caselessGroups) := by
  have hsx : ∀ q ∈ xs, Sound q := fun q hq => hs q (List.mem_append_left _ hq)
  have hsy : ∀ q ∈ ys, Sound q := fun q hq =>
    hs q (List.mem_append_right _ (List.mem_cons_of_mem p hq))
  rw [← mergedGroups_stages hxs 0, ← hp.chars]
  refine (among_merged (sound_stages hxs hsx) (sound_stages hys hsy)).seenAs ?_ fun n h1 hn => ?_
  · rw [hp.chars]
    exact hp.keeps.grounded _ _ hrank
  · rw [mergedGroups_stages hxs]
    exact (among_merged hsx hsy).caseless h1 (hp.chars ▸ hn)

/-- Merged patterns from one of them on are settled one by one. -/
theorem settle_merged {ps : List (List Char × Syntax)} (hs : ∀ p ∈ ps, Sound p) :
    ∀ (ys xs : List (List Char × Syntax)), ps = xs ++ ys → ∀ before,
      ((mergedTree 0 (ps.map ready)).overview (mergedTree 0 ps).caselessGroups).settle before
          (mergedTree (mergedGroups 0 xs) (ys.map ready)) =
        (ys.mapM settledPart).map (mergedTree (mergedGroups 0 xs))
  | [], _, _, _ => rfl
  | p :: ys, xs, hps, before => by
      obtain ⟨rank, hrank⟩ := hs p (by simp [hps])
      have hseen := seenAs_stages (stages_ready xs) (stage_ready p) (stages_ready ys)
        (hps ▸ hs) hrank
      rw [← List.map_cons, ← List.map_append, ← hps] at hseen
      have hown := settle_moved hseen ((stage_ready p).keeps.grounded _ _ hrank) 0
      rw [Nat.zero_add] at hown
      have hrest := settle_merged hs ys (xs ++ [p]) (by simp [hps])
      rw [mergedGroups_append, show mergedGroups (mergedGroups 0 xs) [p] =
        mergedGroups 0 xs + 1 + opens (ready p).1 from rfl] at hrest
      generalize (mergedTree 0 (ps.map ready)).overview (mergedTree 0 ps).caselessGroups = o'
        at hown hrest ⊢
      have hsettled : ((ready p).2.overview p.2.caselessGroups).settle 0 (ready p).2 =
          p.2.settled := rfl
      rw [hsettled] at hown
      rw [List.mapM_cons, settledPart]
      cases ys with
      | nil =>
        simp only [List.map_cons, List.map_nil, mergedTree, Overview.settle, hown]
        cases p.2.settled <;> rfl
      | cons q ys =>
        simp only [List.map_cons, mergedTree, Overview.settle, hown] at hrest ⊢
        cases p.2.settled with
        | error e => rfl
        | ok t =>
          simp only [Except.map, bind, Except.bind, pure, Except.pure, hrest]
          cases hqs : (q :: ys).mapM settledPart with
          | error e => rfl
          | ok qs =>
            cases qs with
            | nil => exact absurd (forall₂_of_mapM hqs).length_eq (by simp)
            | cons r qs => rfl

/-- **Merged patterns are settled one by one.** -/
theorem settled_merged {ps : List (List Char × Syntax)} (hs : ∀ p ∈ ps, Sound p) :
    (mergedTree 0 ps).settled = (ps.mapM settledPart).map (mergedTree 0) := by
  rw [Syntax.settled, ready_merged]
  exact settle_merged hs ps [] rfl 0

/-! ## 4. Compiling -/

/-- What a pattern is compiled to, once its looks behind are settled. -/
def compiledPart (p q : List Char × Syntax) : Regex :=
  ⟨(q.2.overview p.2.caselessGroups).toNode false q.2, opens p.1⟩

/-- What merged patterns are compiled to. -/
def compiledParts (ps qs : List (List Char × Syntax)) : Regex :=
  ⟨((mergedTree 0 qs).overview (mergedTree 0 ps).caselessGroups).toNode false (mergedTree 0 qs),
    mergedGroups 0 ps⟩

theorem readPattern_of_readSyntax {cs : List Char} {folded : Bool} {a : Syntax} {n : Nat}
    (h : readSyntax cs folded = .ok (a, n)) (hr : ∀ m ∈ a.references, m ≤ n) :
    readPattern cs folded =
      a.settled.map fun t => ⟨(t.overview a.caselessGroups).toNode false t, n⟩ := by
  have hany : a.references.any (fun m => decide (n < m)) = false := by
    simp only [List.any_eq_false, decide_eq_true_eq, Nat.not_lt]
    exact hr
  unfold readPattern
  rw [h]
  simp only [bind, Except.bind, hany, Bool.false_eq_true, if_false]
  rfl

/-- What a pattern that can be compiled is read as, and what becomes of its tree. -/
theorem settled_of_readPattern {cs : List Char} {folded : Bool} {regex : Regex}
    (h : readPattern cs folded = .ok regex) :
    ∃ a t, readSyntax cs folded = .ok (a, regex.groups) ∧ a.settled = .ok t ∧
      regex.node = (t.overview a.caselessGroups).toNode false t := by
  unfold readPattern at h
  simp only [bind, Except.bind] at h
  split at h
  · cases h
  · rename_i x hx
    split at h
    · cases h
    · split at h
      · cases h
      · rename_i t ht
        cases h
        exact ⟨x.1, t, hx, ht, rfl⟩

theorem readSyntax_of_readPattern {cs : List Char} {folded : Bool} {regex : Regex}
    (h : readPattern cs folded = .ok regex) :
    ∃ a, readSyntax cs folded = .ok (a, regex.groups) := by
  obtain ⟨a, t, ha, -, -⟩ := settled_of_readPattern h
  exact ⟨a, ha⟩

theorem sound_of_standing {flags : Flags} {p : List Char × Syntax}
    (h : Standing flags p.1 p.2) : Sound p := exists_grounded h.holds

section Standing

variable {folded : Bool} {ps : List (List Char × Syntax)}

/-- A pattern by itself. -/
theorem readPattern_standing {p : List Char × Syntax} (h : Standing ⟨folded, false⟩ p.1 p.2) :
    readPattern p.1 folded = (settledPart p).map (compiledPart p) := by
  rw [readPattern_of_readSyntax h.readSyntax fun m hm => (h.holds.references m hm).2, settledPart]
  cases p.2.settled <;> rfl

/-- **Merged patterns can be compiled where each of them can be by itself**, and none is too
    deep. -/
theorem readPattern_merged (h : ∀ p ∈ ps, Standing ⟨folded, false⟩ p.1 p.2) (hne : ps ≠ [])
    (hfits : ∀ p ∈ ps, Fits ⟨folded, false⟩ p) :
    readPattern (mergedText 0 (ps.map (·.1))) folded =
      (ps.mapM settledPart).map (compiledParts ps) := by
  have hsound : ∀ p ∈ ps, Sound p := fun p hp => sound_of_standing (h p hp)
  rw [readPattern_of_readSyntax (readSyntax_merged h hne hfits)
    fun m hm => (references_range 0 hsound m hm).2, settled_merged hsound]
  cases ps.mapM settledPart <;> rfl

end Standing

/-- Whether it makes no difference in a pattern what is fresh. -/
def isSteady (folded : Bool) (cs : List Char) : Bool :=
  match readSyntax cs folded with
  | .error _ => true
  | .ok (a, _) =>
    match a.settled with
    | .error _ => true
    | .ok t => (t.overview a.caselessGroups).isSteady t

/-- **A pattern that means the same by itself and among others**: each of its pieces is what the
    reader takes it for, and it makes no difference in it what is fresh. -/
structure Plain (folded : Bool) (pattern : String) : Prop where
  clear : Clear 0 pattern.toList
  steady : isSteady folded pattern.toList = true

/-! ## 5. What merged patterns read -/

/-- The match `m'` of merged patterns is the match `m` of the one in group `g + 1`, which has `size`
    groups. -/
structure Reports (g size : Nat) (m m' : Found) : Prop where
  span : m'.span = m.span
  whole : m'.captures.find? (g + 1) = some m.span
  groups : ∀ n, 1 ≤ n → n ≤ size → m'.captures.find? (n + (g + 1)) = m.captures.find? n
  others : ∀ n, n ≤ g ∨ g + 1 + size < n → m'.captures.find? n = none

/-- A match of the first of some patterns that has one; `g` groups stand before them. -/
inductive FirstMatch (text : Text) (origin i : Nat) :
    Nat → List (List Char × Syntax) → List (List Char × Syntax) → Option Found → Prop
  | none {g : Nat} : FirstMatch text origin i g [] [] none
  | here {g : Nat} {p q : List Char × Syntax} {ps qs : List (List Char × Syntax)} {m m' : Found} :
      (compiledPart p q).matchFrom text origin i = some m → Reports g (opens p.1) m m' →
      FirstMatch text origin i g (p :: ps) (q :: qs) (some m')
  | later {g : Nat} {p q : List Char × Syntax} {ps qs : List (List Char × Syntax)}
      {found : Option Found} : (compiledPart p q).matchFrom text origin i = none →
      FirstMatch text origin i (g + 1 + opens p.1) ps qs found →
      FirstMatch text origin i g (p :: ps) (q :: qs) found

section Runs

/-- Where a tree leads from index `i` on, as a match. -/
def foundAt (i : Nat) (p : Place) : Found := ⟨⟨i, p.pos⟩, p.captures⟩

/-- **A tree in a group of its own reads what the tree by itself reads.** -/
theorem run_inGroup {g size : Nat} {a a' : Node} (h : a.MovedAs (g + 1) size [] a')
    (fresh : Bool) (text : Text) (origin i : Nat) :
    Option.Rel (fun q r => Reports g size (foundAt i q) (foundAt i r))
      (a.run text origin ⟨i, []⟩ some)
      ((Node.group (g + 1) fresh a').run text origin ⟨i, []⟩ some) := by
  have hstart : Same (g + 1) size ((⟨i, []⟩ : Place).beginGroup (g + 1) fresh).captures []
      ⟨i, []⟩ ((⟨i, []⟩ : Place).beginGroup (g + 1) fresh) := by
    refine ⟨rfl, .start, fun n h1 _ _ => ?_⟩
    simp only [Place.beginGroup, Captures.find?, beq_iff_eq]
    rw [if_neg (by omega)]
  refine same_run h text origin hstart fun q q' hq => .some ⟨?_, ?_, fun n h1 hn => ?_,
    fun n hn => ?_⟩
  · simp only [foundAt, Place.endGroup, hq.pos]
  · simp only [foundAt, Place.endGroup, Captures.find?, beq_self_eq_true, if_true, hq.pos,
      Option.map_some]
  · simp only [foundAt, Place.endGroup, Captures.find?, beq_iff_eq]
    rw [if_neg (by omega)]
    exact hq.reads n h1 hn List.not_mem_nil
  · have hbase := hq.marks.find?_of_lt (n := n) (by omega)
    simp only [foundAt, Place.endGroup, Captures.find?, beq_iff_eq]
    rw [if_neg (by omega), hbase]
    simp only [Place.beginGroup, Captures.find?, beq_iff_eq]
    rw [if_neg (by omega)]

variable {text : Text} {origin i : Nat}

/-- A pattern that is settled, and for which it makes no difference what is fresh. -/
structure Settles (p q : List Char × Syntax) : Prop where
  sound : Sound p
  settled : settledPart p = .ok q
  steady : (q.2.overview p.2.caselessGroups).isSteady q.2 = true

theorem settles_of_plain {folded : Bool} {pattern : String} {p q : List Char × Syntax}
    (h : Plain folded pattern) (hp : p.1 = pattern.toList)
    (hs : Standing ⟨folded, false⟩ p.1 p.2) (hq : settledPart p = .ok q) : Settles p q where
  sound := sound_of_standing hs
  settled := hq
  steady := by
    have hsteady := h.steady
    rw [← hp, isSteady, hs.readSyntax] at hsteady
    cases ht : p.2.settled with
    | error e => rw [settledPart, ht] at hq; cases hq
    | ok t =>
      rw [settledPart, ht] at hq
      cases hq
      simp only [ht] at hsteady
      exact hsteady

theorem stages_of_settles {ps qs : List (List Char × Syntax)} (h : List.Forall₂ Settles ps qs) :
    List.Forall₂ Stage ps qs := h.imp fun _ _ h => stage_settledPart h.settled

theorem firstMatch_cons {g : Nat} {p q : List Char × Syntax}
    {ps qs : List (List Char × Syntax)} {x y : Option Place}
    (h : Option.Rel (fun q r => Reports g (opens p.1) (foundAt i q) (foundAt i r))
      ((compiledPart p q).node.run text origin ⟨i, []⟩ some) x)
    (hrest : FirstMatch text origin i (g + 1 + opens p.1) ps qs (y.map (foundAt i))) :
    FirstMatch text origin i g (p :: ps) (q :: qs) ((x <|> y).map (foundAt i)) := by
  have hmatch : (compiledPart p q).matchFrom text origin i =
    ((compiledPart p q).node.run text origin ⟨i, []⟩ some).map (foundAt i) := rfl
  generalize (compiledPart p q).node.run text origin ⟨i, []⟩ some = own at h hmatch
  cases h with
  | some h => exact .here hmatch h
  | none => exact .later hmatch hrest

/-- Merged patterns from one of them on read what the first of them reads that reads anything. -/
theorem firstMatch_run {ps qs : List (List Char × Syntax)} (h : List.Forall₂ Settles ps qs) :
    ∀ (ys ys' xs xs' : List (List Char × Syntax)), ps = xs ++ ys → qs = xs' ++ ys' →
      List.Forall₂ Settles xs xs' → List.Forall₂ Settles ys ys' → ys ≠ [] → ∀ fresh,
      FirstMatch text origin i (mergedGroups 0 xs) ys ys'
        (((((mergedTree 0 qs).overview (mergedTree 0 ps).caselessGroups).toNode fresh
          (mergedTree (mergedGroups 0 xs) ys')).run text origin ⟨i, []⟩ some).map (foundAt i))
  | [], _, _, _, _, _, _, _, hne, _ => absurd rfl hne
  | p :: ys, q :: ys', xs, xs', hps, hqs, hxs, .cons hpq hys, _, fresh => by
      obtain ⟨rank, hrank⟩ := hpq.sound
      have hstage := stage_settledPart hpq.settled
      have hsound : ∀ r ∈ xs ++ p :: ys, Sound r := fun r hr => by
        obtain ⟨r', _, hr'⟩ := exists_of_mem_forall₂ h.flip (hps ▸ hr)
        exact hr'.sound
      have hseen := seenAs_stages (stages_of_settles hxs) hstage (stages_of_settles hys) hsound hrank
      rw [← hps, ← hqs] at hseen
      have hnode := fun fresh' => toNode_movedAs hseen (hstage.keeps.grounded _ _ hrank)
        hpq.steady false fresh' [] (by simp)
      have hrest := firstMatch_run h ys ys' (xs ++ [p]) (xs' ++ [q]) (by simp [hps])
        (by simp [hqs]) (List.rel_append hxs (.cons hpq .nil)) hys
      rw [mergedGroups_append, show mergedGroups (mergedGroups 0 xs) [p] =
        mergedGroups 0 xs + 1 + opens p.1 from rfl] at hrest
      generalize (mergedTree 0 qs).overview (mergedTree 0 ps).caselessGroups = o' at hnode hrest ⊢
      cases hys with
      | nil =>
        have hnone : ∀ x : Option Place, (x <|> none) = x := fun x => by cases x <;> rfl
        have hfirst := firstMatch_cons (y := none) (run_inGroup (hnode fresh) fresh text origin i)
          .none
        rw [hnone] at hfirst
        exact hfirst
      | @cons p' q' ys ys' hpq' hys =>
        have htree : mergedTree (mergedGroups 0 xs) (q :: q' :: ys') =
            .alt (.group (.capture (mergedGroups 0 xs + 1)) (q.2.moved (mergedGroups 0 xs + 1)))
              (mergedTree (mergedGroups 0 xs + 1 + opens p.1) (q' :: ys')) := by
          rw [mergedTree, hstage.chars]
        rw [htree]
        exact firstMatch_cons (run_inGroup (hnode true) true text origin i)
          (hrest (by simp) true)

/-- **Merged patterns read what the first of them reads that reads anything.** -/
theorem firstMatch_merged {ps qs : List (List Char × Syntax)} (h : List.Forall₂ Settles ps qs)
    (hne : ps ≠ []) (text : Text) (origin i : Nat) :
    FirstMatch text origin i 0 ps qs ((compiledParts ps qs).matchFrom text origin i) :=
  firstMatch_run h ps qs [] [] rfl rfl .nil h hne false

end Runs

end Highlight.Pattern
