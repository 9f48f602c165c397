import Highlight.Proofs.Pattern.Chosen
import Highlight.Proofs.Pattern.Renumbered
import Highlight.Proofs.Regex.Extent

/-!
# Patterns in a row

A delimiter in several parts is one pattern: its parts stand in a row, each in a group of its own and
with its references moved. What the reader makes of it are the trees of the parts by themselves, each
in its group; the pattern can be compiled where each part can be, unless one is too deep there; and
in a match the groups around the parts lie end to end.

* `sequencedText`, `sequencedTree` -- patterns in a row, and their tree;
* `readSyntax_sequenced`, `readSyntax_sequenced_deep` -- what the reader makes of them;
* `readPattern_sequenced` -- what they are compiled to;
* `wrapperKeys` -- the numbers of the groups around the parts;
* `TiledBy`, `tiled_sequenced` -- **the groups around the parts lie end to end**;
* `clear_sequenced`, `isSteady_sequenced` -- the row is plain where its parts are;
* `partGroup`, `IsRow`, `compile_sequence` -- **what a row is compiled to**.
-/

namespace Highlight.Pattern

open Regex

/-! ## 1. Reading -/

/-- Patterns in a row, each in a group of its own and with its references moved, when `g` groups stand
    before the first. -/
def sequencedText : Nat → List (List Char) → List Char
  | _, [] => []
  | g, cs :: more => wrapped (g + 1) (pieces cs) ++ sequencedText (g + 1 + opens cs) more

/-- The tree of patterns in a row, each of which has a tree of its own. -/
def sequencedTree : Nat → List (List Char × Syntax) → Syntax
  | _, [] => .empty
  | g, [p] => .group (.capture (g + 1)) (p.2.moved (g + 1))
  | g, p :: q :: more =>
    .cat (.group (.capture (g + 1)) (p.2.moved (g + 1)))
      (sequencedTree (g + 1 + opens p.1) (q :: more))

theorem toList_join_wrapAll (g : Nat) (patterns : List String) :
    (String.intercalate "" (wrapAll g patterns)).toList =
      sequencedText g (patterns.map String.toList) := by
  induction patterns generalizing g with
  | nil => rfl
  | cons p patterns ih =>
    have ih := ih (g + 1 + opens p.toList)
    rw [List.map_cons, sequencedText, ← ih, String.toList_intercalate, String.toList_intercalate]
    cases hw : wrapAll (g + 1 + opens p.toList) patterns with
    | nil => simp [wrapAll, opens, hw] at hw ⊢
    | cons w ws => simp [wrapAll, opens, hw] at hw ⊢

/-- **Patterns merged without a separator stand in a row.** -/
theorem toList_merge_sequence (patterns : List String) :
    (merge patterns "").toList = sequencedText 0 (patterns.map String.toList) :=
  toList_join_wrapAll 0 patterns

section Rows

variable {flags : Flags}

/-- A row goes on with the group of its next part. -/
theorem unrepeated_sequenced {parts : List (List Char × Syntax)} (g : Nat)
    (h : ∀ p ∈ parts, Standing flags p.1 p.2) :
    Unrepeated (sequencedText g (parts.map (·.1))) := by
  cases parts with
  | nil => exact ⟨by rintro _ ⟨⟩, rfl⟩
  | cons p parts =>
    rw [List.map_cons, sequencedText, text_inGroup]
    obtain ⟨c, w, hw, hc⟩ : ∃ c w, (inGroup g
        (sequencedText (g + 1 + opens p.1) (parts.map (·.1)))).text p.1 = c :: w ∧ c ≠ '?' :=
      exists_text_inGroup (h p List.mem_cons_self)
    rw [hw]
    exact ⟨by rintro _ ⟨⟩; exact hc rfl, rfl⟩

theorem endsRow_sequenced {p : List Char × Syntax} {parts : List (List Char × Syntax)} (g : Nat) :
    endsRow (sequencedText g ((p :: parts).map (·.1))) = false := rfl

/-- **A row is read part by part**, unless one of them is too deep. -/
theorem readRow_sequenced : ∀ (parts : List (List Char × Syntax)) (g f : Nat), parts ≠ [] →
    (∀ p ∈ parts, Standing flags p.1 p.2 ∧ Fits flags p) →
    4 * (sequencedText g (parts.map (·.1))).length ≤ f →
    readRow f 2 flags ⟨sequencedText g (parts.map (·.1)), g, [], []⟩ =
      .ok (sequencedTree g parts, ⟨[], mergedGroups g parts, [], []⟩)
  | [], _, _, hne, _, _ => absurd rfl hne
  | p :: parts, g, f, _, h, hf => by
      obtain ⟨hst, hp⟩ := h p List.mem_cons_self
      have hlen := length_wrapped (g + 1) hst.clear
      rw [List.map_cons, sequencedText, List.length_append] at hf
      obtain ⟨n, rfl⟩ : ∃ n, f = readingSteps p.1.length + n + 3 :=
        ⟨f - (readingSteps p.1.length + 3), by simp only [readingSteps]; omega⟩
      have hparts := fun q hq => (h q (List.mem_cons_of_mem p hq)).1
      rw [readRow_succ, List.map_cons, sequencedText, reading_bind_eq (readPiece_wrapped hst
        (unrepeated_sequenced (g + 1 + opens p.1) hparts) (Nat.le_add_right _ _) hp),
        reading_bind_eq atRowEnd_eq]
      cases parts with
      | nil => rfl
      | cons q parts =>
        rw [endsRow_sequenced]
        refine (reading_bind_eq (readRow_sequenced (q :: parts) (g + 1 + opens p.1) _ (by simp)
          (fun r hr => h r (List.mem_cons_of_mem p hr)) ?_)).trans rfl
        simp only [readingSteps] at hf ⊢
        omega

theorem fits_or_deep {p : List Char × Syntax} (h : Standing flags p.1 p.2) :
    Fits flags p ∨ ∀ C : Setting, C.Closes → ∀ spare,
      readAlternatives (readingSteps p.1.length + spare) 2 flags (C.progress ⟨p.1, 0, [], []⟩) =
        .error .tooDeep :=
  h.inside.imp id And.right

/-- Where a part is too deep, so is the row. -/
theorem readRow_sequenced_deep : ∀ (parts : List (List Char × Syntax)) (g f : Nat),
    (∀ p ∈ parts, Standing flags p.1 p.2) → (∃ p ∈ parts, ¬ Fits flags p) →
    4 * (sequencedText g (parts.map (·.1))).length ≤ f →
    readRow f 2 flags ⟨sequencedText g (parts.map (·.1)), g, [], []⟩ = .error .tooDeep
  | [], _, _, _, ⟨_, hp, _⟩, _ => by cases hp
  | p :: parts, g, f, h, hdeep, hf => by
      have hst := h p List.mem_cons_self
      have hlen := length_wrapped (g + 1) hst.clear
      rw [List.map_cons, sequencedText, List.length_append] at hf
      obtain ⟨n, rfl⟩ : ∃ n, f = readingSteps p.1.length + n + 3 :=
        ⟨f - (readingSteps p.1.length + 3), by simp only [readingSteps]; omega⟩
      have hparts := fun q hq => h q (List.mem_cons_of_mem p hq)
      rw [readRow_succ, List.map_cons, sequencedText]
      rcases fits_or_deep hst with hp | hp
      · obtain ⟨q, hq, hdeep⟩ := hdeep
        have hq : q ∈ parts := (List.mem_cons.mp hq).resolve_left fun he => hdeep (he ▸ hp)
        rw [reading_bind_eq (readPiece_wrapped hst (unrepeated_sequenced (g + 1 + opens p.1) hparts)
          (Nat.le_add_right _ _) hp), reading_bind_eq atRowEnd_eq]
        obtain ⟨q', parts, rfl⟩ := List.exists_cons_of_ne_nil (List.ne_nil_of_mem hq)
        rw [endsRow_sequenced]
        refine reading_bind_error (readRow_sequenced_deep (q' :: parts) (g + 1 + opens p.1) _ hparts
          ⟨q, hq, hdeep⟩ ?_)
        simp only [readingSteps] at hf ⊢
        omega
      · exact reading_bind_error (readPiece_deep hst (Nat.le_add_right _ _) hp)

/-- A branch that is a row of parts is read as the row. -/
theorem readBranch_sequenced {p : List Char × Syntax} {parts : List (List Char × Syntax)} {f : Nat}
    (h : ∀ q ∈ p :: parts, Standing flags q.1 q.2)
    (hf : 4 * (sequencedText 0 ((p :: parts).map (·.1))).length ≤ f) :
    readBranch f 2 flags ⟨sequencedText 0 ((p :: parts).map (·.1)), 0, [], []⟩ =
      readRow f 2 flags ⟨sequencedText 0 ((p :: parts).map (·.1)), 0, [], []⟩ := by
  have hst := h p List.mem_cons_self
  have hlen := length_wrapped (0 + 1) hst.clear
  rw [List.map_cons, sequencedText, List.length_append] at hf
  obtain ⟨n, rfl⟩ : ∃ n, f = readingSteps p.1.length + n + 3 :=
    ⟨f - (readingSteps p.1.length + 3), by simp only [readingSteps]; omega⟩
  have hparts := fun q hq => h q (List.mem_cons_of_mem p hq)
  rw [List.map_cons, sequencedText, readBranch_group hst,
    readRow_succ (f := readingSteps p.1.length + n + 2)]
  rcases fits_or_deep hst with hp | hp
  · have hpiece := readPiece_wrapped (g := 0) hst (unrepeated_sequenced (0 + 1 + opens p.1) hparts)
      (Nat.le_add_right _ n) hp
    rw [reading_bind_eq hpiece, reading_bind_eq hpiece]
    rfl
  · have hpiece := @readPiece_deep flags p.1 (sequencedText (0 + 1 + opens p.1) (parts.map (·.1)))
      p.2 0 _ hst (Nat.le_add_right _ n) hp
    rw [reading_bind_error hpiece, reading_bind_error hpiece]

end Rows

theorem readSyntax_nil (folded : Bool) : readSyntax [] folded = .ok (.empty, 0) := by
  cases folded <;> decide +kernel

section Whole

variable {folded : Bool} {parts : List (List Char × Syntax)}
  (h : ∀ p ∈ parts, Standing ⟨folded, false⟩ p.1 p.2)

include h

/-- **Patterns in a row that are not too deep are read as their trees, each in a group.** -/
theorem readSyntax_sequenced (hfits : ∀ p ∈ parts, Fits ⟨folded, false⟩ p) :
    readSyntax (sequencedText 0 (parts.map (·.1))) folded =
      .ok (sequencedTree 0 parts, mergedGroups 0 parts) := by
  cases parts with
  | nil => exact readSyntax_nil folded
  | cons p parts =>
    refine readSyntax_of_alternatives ?_
    have hrow := readRow_sequenced (p :: parts) 0 (4 *
      (sequencedText 0 ((p :: parts).map (·.1))).length + 3) (by simp)
      (fun q hq => ⟨h q hq, hfits q hq⟩) (Nat.le_add_right _ 3)
    rw [readingSteps, readAlternatives_succ, if_neg (by decide)]
    refine (reading_bind_eq ((readBranch_sequenced h (Nat.le_add_right _ 3)).trans hrow)).trans ?_
    rw [readBar_eq]
    rfl

/-- Where one of them is too deep they cannot be read. -/
theorem readSyntax_sequenced_deep (hdeep : ∃ p ∈ parts, ¬ Fits ⟨folded, false⟩ p) :
    readSyntax (sequencedText 0 (parts.map (·.1))) folded = .error .tooDeep := by
  obtain ⟨p, hp, hdeep⟩ := hdeep
  obtain ⟨q, parts, rfl⟩ := List.exists_cons_of_ne_nil (List.ne_nil_of_mem hp)
  have hrow := readRow_sequenced_deep (q :: parts) 0 (4 *
    (sequencedText 0 ((q :: parts).map (·.1))).length + 3) h ⟨p, hp, hdeep⟩ (Nat.le_add_right _ 3)
  have hread : readAlternatives (readingSteps (sequencedText 0 ((q :: parts).map (·.1))).length) 0
      ⟨folded, false⟩ ⟨sequencedText 0 ((q :: parts).map (·.1)), 0, [], []⟩ = .error .tooDeep := by
    rw [readingSteps, readAlternatives_succ, if_neg (by decide)]
    exact reading_bind_error ((readBranch_sequenced h (Nat.le_add_right _ 3)).trans hrow)
  have hwhole : readWhole ⟨folded, false⟩ (sequencedText 0 ((q :: parts).map (·.1))).length
      ⟨sequencedText 0 ((q :: parts).map (·.1)), 0, [], []⟩ = .error .tooDeep :=
    reading_bind_error hread
  unfold readSyntax
  rw [show (readWhole ⟨folded, false⟩ (sequencedText 0 ((q :: parts).map (·.1))).length).run
    ⟨sequencedText 0 ((q :: parts).map (·.1)), 0, [], []⟩ = _ from hwhole]
  rfl

end Whole

/-! ## 2. Compiling -/

theorem captures_sequenced (g : Nat) (ps : List (List Char × Syntax)) :
    (sequencedTree g ps).captures = (mergedTree g ps).captures := by
  induction ps generalizing g with
  | nil => rfl
  | cons p ps ih =>
    cases ps with
    | nil => rfl
    | cons q ps => simp only [sequencedTree, mergedTree, Syntax.captures, ih]

theorem references_sequenced (g : Nat) (ps : List (List Char × Syntax)) :
    (sequencedTree g ps).references = (mergedTree g ps).references := by
  induction ps generalizing g with
  | nil => rfl
  | cons p ps ih =>
    cases ps with
    | nil => rfl
    | cons q ps => simp only [sequencedTree, mergedTree, Syntax.references, ih]

/-- What is known of patterns in a row as a whole is what is known of them as alternatives. -/
theorem overview_sequenced (g : Nat) (ps : List (List Char × Syntax)) (caseless : List Nat) :
    (sequencedTree g ps).overview caseless = (mergedTree g ps).overview caseless := by
  rw [Syntax.overview, Syntax.overview, captures_sequenced, references_sequenced]

theorem caselessGroups_sequenced (g : Nat) (ps : List (List Char × Syntax)) :
    (sequencedTree g ps).caselessGroups = (mergedTree g ps).caselessGroups := by
  rw [Syntax.caselessGroups, Syntax.caselessGroups, captures_sequenced]

theorem ready_sequenced (g : Nat) (ps : List (List Char × Syntax)) :
    (sequencedTree g ps).joinTexts.foldTexts false = sequencedTree g (ps.map ready) := by
  induction ps generalizing g with
  | nil => rfl
  | cons p ps ih =>
    cases ps with
    | nil => simp [sequencedTree, ready, Syntax.joinTexts, Syntax.foldTexts, joinTexts_moved,
        foldTexts_moved]
    | cons q ps =>
      have ih := ih (g + 1 + opens p.1)
      rw [List.map_cons] at ih
      simp only [sequencedTree, List.map_cons, Syntax.joinTexts, Syntax.foldTexts, joinTexts_moved,
        foldTexts_moved, ih, ready]

theorem settle_of_alt {o : Overview} {before : Nat} {a b a' b' : Syntax}
    (h : o.settle before (.alt a b) = .ok (.alt a' b')) :
    o.settle before a = .ok a' ∧ o.settle (before + a.captures.length) b = .ok b' := by
  simp only [Overview.settle, bind, Except.bind] at h
  split at h
  · cases h
  · rename_i hb
    split at h
    · cases h
    · rename_i hc
      cases h
      exact ⟨hb, hc⟩

theorem settle_cat {o : Overview} {before : Nat} {a b a' b' : Syntax}
    (ha : o.settle before a = .ok a') (hb : o.settle (before + a.captures.length) b = .ok b') :
    o.settle before (.cat a b) = .ok (.cat a' b') := by
  simp only [Overview.settle, bind, Except.bind, ha, hb]
  rfl

/-- Patterns in a row are settled as alternatives are. -/
theorem settle_sequenced {o : Overview} {before g : Nat} {ps qs : List (List Char × Syntax)}
    (hchars : List.Forall₂ (fun p q => q.1 = p.1) ps qs)
    (h : o.settle before (mergedTree g ps) = .ok (mergedTree g qs)) :
    o.settle before (sequencedTree g ps) = .ok (sequencedTree g qs) := by
  induction hchars generalizing g before with
  | nil => exact h
  | @cons p q ps qs hp hps ih =>
    cases hps with
    | nil => exact h
    | cons _ _ =>
      obtain ⟨hfirst, hrest⟩ := settle_of_alt h
      rw [hp] at hrest
      rw [sequencedTree, sequencedTree, hp]
      exact settle_cat hfirst (ih hrest)

/-- What patterns in a row are compiled to. -/
def compiledSequence (ps qs : List (List Char × Syntax)) : Regex :=
  ⟨((sequencedTree 0 qs).overview (sequencedTree 0 ps).caselessGroups).toNode false
    (sequencedTree 0 qs), mergedGroups 0 ps⟩

section Compiled

variable {folded : Bool} {ps qs : List (List Char × Syntax)}
  (h : ∀ p ∈ ps, Standing ⟨folded, false⟩ p.1 p.2) (hqs : ps.mapM settledPart = .ok qs)

include h hqs

theorem settled_sequenced : (sequencedTree 0 ps).settled = .ok (sequencedTree 0 qs) := by
  have hchars : List.Forall₂ (fun p q => q.1 = p.1) (ps.map ready) qs :=
    List.forall₂_map_left_iff.mpr ((forall₂_of_mapM hqs).imp fun p q hpq =>
      (stage_settledPart hpq).chars)
  have hmerged := settled_merged fun p hp => sound_of_standing (h p hp)
  rw [hqs, Syntax.settled, ready_merged] at hmerged
  rw [Syntax.settled, ready_sequenced, overview_sequenced, caselessGroups_sequenced]
  exact settle_sequenced hchars hmerged

/-- **Patterns in a row can be compiled where each of them can be by itself**, and none is too
    deep. -/
theorem readPattern_sequenced (hfits : ∀ p ∈ ps, Fits ⟨folded, false⟩ p) :
    readPattern (sequencedText 0 (ps.map (·.1))) folded = .ok (compiledSequence ps qs) := by
  have hsound : ∀ p ∈ ps, Sound p := fun p hp => sound_of_standing (h p hp)
  rw [readPattern_of_readSyntax (readSyntax_sequenced h hfits) fun m hm => ?_,
    settled_sequenced h hqs]
  · rfl
  · rw [references_sequenced] at hm
    exact (references_range 0 hsound m hm).2

end Compiled

/-! ## 3. Matching -/

/-- **Groups lie end to end**, from one index to another, by what each of them has read. -/
def TiledBy (reads : Nat → Option Span) (i j : Nat) : List Nat → Prop
  | [] => i = j
  | k :: ks => ∃ stop, reads k = some ⟨i, stop⟩ ∧ i ≤ stop ∧ TiledBy reads stop j ks

theorem TiledBy.congr {reads reads' : Nat → Option Span} {i j : Nat} {ks : List Nat}
    (h : TiledBy reads i j ks) (heq : ∀ k ∈ ks, reads' k = reads k) : TiledBy reads' i j ks := by
  induction ks generalizing i with
  | nil => exact h
  | cons k ks ih =>
    obtain ⟨stop, hk, hle, hrest⟩ := h
    exact ⟨stop, (heq k List.mem_cons_self).trans hk, hle,
      ih hrest fun k' hk' => heq k' (List.mem_cons_of_mem k hk')⟩

/-- The numbers of the groups around patterns in a row. -/
def wrapperKeys : Nat → List (List Char × Syntax) → List Nat
  | _, [] => []
  | g, p :: ps => (g + 1) :: wrapperKeys (g + 1 + opens p.1) ps

theorem lt_of_mem_wrapperKeys {g k : Nat} {ps : List (List Char × Syntax)}
    (h : k ∈ wrapperKeys g ps) : g < k := by
  induction ps generalizing g with
  | nil => cases h
  | cons p ps ih =>
    rcases List.mem_cons.mp h with rfl | h
    · exact Nat.lt_succ_self g
    · have := ih h
      omega

/-- The tree that is run has no groups but those of the tree that was read. -/
theorem groups_toNode (o : Overview) (fresh : Bool) (a : Syntax) :
    (o.toNode fresh a).groups ⊆ a.captures.map (·.1) := by
  induction a generalizing fresh with
  | cat a b iha ihb | alt a b iha ihb =>
    simp only [Syntax.captures, List.map_append]
    exact List.append_subset.mpr ⟨List.subset_append_of_subset_left _ (iha _),
      List.subset_append_of_subset_right _ (ihb _)⟩
  | group kind a ih =>
    cases kind with
    | capture n => exact List.cons_subset_cons n (ih fresh)
    | _ => exact ih fresh
  | loop low high isLazy a ih =>
    simp only [Overview.toNode]
    split
    · exact List.nil_subset _
    · exact ih _
  | ahead negated a ih | behind negated width a ih => exact ih _
  | _ => exact List.nil_subset _

section Runs

variable {text : Text} {origin : Nat} {o : Overview}

/-- A pattern in a group reads on from where it begins; the group has read what lies between, and
    groups before it have read what they had read. -/
theorem reads_wrapped {p : List Char × Syntax} (hp : Sound p) {g : Nat} {fresh : Bool} {here : Place}
    {k : Rest} {r : Place} (hpos : here.pos ≤ text.size)
    (hrun : (o.toNode fresh (.group (.capture (g + 1)) (p.2.moved (g + 1)))).run text origin here k =
      some r) :
    ∃ q : Place, k q = some r ∧ here.pos ≤ q.pos ∧ q.pos ≤ text.size ∧
      q.captures.find? (g + 1) = some ⟨here.pos, q.pos⟩ ∧
      ∀ n ≤ g, q.captures.find? n = here.captures.find? n := by
  obtain ⟨rank, hgrounded⟩ := hp
  obtain ⟨q, hon, hk⟩ := advances_run (o.toNode fresh (p.2.moved (g + 1)))
    (here.beginGroup (g + 1) fresh) _ r hpos hrun
  refine ⟨q.endGroup (g + 1) here.pos, hk, hon.from_le, hon.le_size, ?_, fun n hn => ?_⟩
  · simp only [Place.endGroup, Captures.find?, beq_self_eq_true, if_true, Option.map_some]
  · have hnot : n ∉ (o.toNode fresh (p.2.moved (g + 1))).groups := by
      intro hmem
      have hmem := groups_toNode o fresh _ hmem
      rw [captures_moved, List.map_map] at hmem
      obtain ⟨c, hc, rfl⟩ := List.mem_map.mp hmem
      simp only [Function.comp_apply] at hn
      omega
    have hfind := hon.others n hnot
    simp only [Place.endGroup, Place.beginGroup, Captures.find?, beq_iff_eq] at hfind ⊢
    rw [if_neg (by omega)] at hfind ⊢
    exact hfind

/-- Patterns in a row read one after another. -/
theorem tiled_run : ∀ (ps : List (List Char × Syntax)) (g : Nat) (fresh : Bool) (here : Place) (k : Rest)
    (r : Place), ps ≠ [] → (∀ p ∈ ps, Sound p) → here.pos ≤ text.size →
    (o.toNode fresh (sequencedTree g ps)).run text origin here k = some r →
    ∃ q : Place, k q = some r ∧ TiledBy q.captures.find? here.pos q.pos (wrapperKeys g ps) ∧
      ∀ n ≤ g, q.captures.find? n = here.captures.find? n
  | [], _, _, _, _, _, hne, _, _, _ => absurd rfl hne
  | [p], g, fresh, here, k, r, _, hs, hpos, hrun => by
      obtain ⟨q, hk, hle, _, hfind, hothers⟩ := reads_wrapped (hs p List.mem_cons_self) hpos hrun
      exact ⟨q, hk, ⟨q.pos, hfind, hle, rfl⟩, hothers⟩
  | p :: p' :: ps, g, fresh, here, k, r, _, hs, hpos, hrun => by
      obtain ⟨q1, hk1, hle, hsize, hfind, hothers⟩ := reads_wrapped (hs p List.mem_cons_self) hpos
        (k := fun q => (o.toNode fresh (sequencedTree (g + 1 + opens p.1) (p' :: ps))).run text origin
          q k) hrun
      obtain ⟨q, hk, htiled, hkept⟩ := tiled_run (p' :: ps) (g + 1 + opens p.1) fresh q1 k r (by simp)
        (fun p'' hp'' => hs p'' (List.mem_cons_of_mem p hp'')) hsize hk1
      refine ⟨q, hk, ⟨q1.pos, (hkept (g + 1) (by omega)).trans hfind, hle, htiled⟩, fun n hn => ?_⟩
      exact (hkept n (by omega)).trans (hothers n hn)

/-- **The groups around patterns in a row lie end to end** and make up the match. -/
theorem tiled_sequenced {ps qs : List (List Char × Syntax)} {i : Nat} {m : Found}
    (hs : ∀ q ∈ qs, Sound q) (hi : i ≤ text.size)
    (hm : (compiledSequence ps qs).matchFrom text origin i = some m) :
    TiledBy m.group? m.span.start m.span.stop (wrapperKeys 0 qs) := by
  obtain ⟨r, hrun, rfl⟩ := Option.map_eq_some_iff.mp hm
  cases qs with
  | nil =>
    obtain rfl : (⟨i, []⟩ : Place) = r := Option.some.inj hrun
    exact rfl
  | cons q qs =>
    obtain ⟨r', hr', htiled, _⟩ := tiled_run (q :: qs) 0 false ⟨i, []⟩ some r (by simp) hs hi hrun
    cases hr'
    refine htiled.congr fun k hk => ?_
    have := lt_of_mem_wrapperKeys hk
    simp only [Found.group?, beq_iff_eq]
    rw [if_neg (by omega)]

end Runs

/-! ## 4. A row among others -/

/-- **Clear patterns in a row are clear.** -/
theorem clear_sequenced {flags : Flags} : ∀ (ps : List (List Char × Syntax)) (g : Nat),
    (∀ p ∈ ps, Standing flags p.1 p.2) → mergedGroups g ps ≤ Text.maxCount →
    Clear g (sequencedText g (ps.map (·.1))) ∧
      g + opens (sequencedText g (ps.map (·.1))) = mergedGroups g ps
  | [], _, _, _ => ⟨clear_nil, rfl⟩
  | p :: ps, g, h, hle => by
      have hst := h p List.mem_cons_self
      have hall : mergedGroups g (p :: ps) = mergedGroups (g + 1 + opens p.1) ps := rfl
      have hgroups := le_mergedGroups (g + 1 + opens p.1) ps
      obtain ⟨hclear, hopens⟩ := clear_sequenced ps (g + 1 + opens p.1)
        (fun q hq => h q (List.mem_cons_of_mem p hq)) (hall ▸ hle)
      obtain ⟨hwrapped, hopened⟩ := clear_wrapped hst.clear hst.whole (not_question hst) hclear
        (by omega)
      rw [List.map_cons, sequencedText]
      exact ⟨hwrapped, by omega⟩

/-- Patterns in a row are steady where each of them is. -/
theorem isSteady_sequenced {ps qs : List (List Char × Syntax)} (h : List.Forall₂ Settles ps qs) :
    ((sequencedTree 0 qs).overview (sequencedTree 0 ps).caselessGroups).isSteady
      (sequencedTree 0 qs) = true := by
  have hall : ∀ (ys ys' xs xs' : List (List Char × Syntax)), ps = xs ++ ys → qs = xs' ++ ys' →
      List.Forall₂ Settles xs xs' → List.Forall₂ Settles ys ys' →
      ((mergedTree 0 qs).overview (mergedTree 0 ps).caselessGroups).isSteady
        (sequencedTree (mergedGroups 0 xs) ys') = true := by
    intro ys
    induction ys with
    | nil =>
      intro ys' xs xs' _ _ _ hys
      cases hys
      rfl
    | cons p ys ih =>
      intro ys' xs xs' hps hqs hxs hys
      obtain ⟨q, ys', hpq, htail, rfl⟩ := List.forall₂_cons_left_iff.mp hys
      obtain ⟨rank, hrank⟩ := hpq.sound
      have hstage := stage_settledPart hpq.settled
      have hsound : ∀ r ∈ xs ++ p :: ys, Sound r := fun r hr => by
        obtain ⟨r', _, hr'⟩ := exists_of_mem_forall₂ h.flip (hps ▸ hr)
        exact hr'.sound
      have hseen := seenAs_stages (stages_of_settles hxs) hstage (stages_of_settles htail) hsound hrank
      rw [← hps, ← hqs] at hseen
      have hown := (isSteady_moved hseen (hstage.keeps.grounded _ _ hrank)).trans hpq.steady
      have hrest := ih ys' (xs ++ [p]) (xs' ++ [q]) (by simp [hps]) (by simp [hqs])
        (List.rel_append hxs (.cons hpq .nil)) htail
      rw [mergedGroups_append, show mergedGroups (mergedGroups 0 xs) [p] =
        mergedGroups 0 xs + 1 + opens p.1 from rfl] at hrest
      cases ys' with
      | nil => exact hown
      | cons q' ys' =>
        rw [sequencedTree, hstage.chars]
        exact Bool.and_eq_true_iff.mpr ⟨hown, hrest⟩
  rw [overview_sequenced, caselessGroups_sequenced]
  exact hall ps qs [] [] rfl rfl .nil h

theorem mergedGroups_eq {ps qs : List (List Char × Syntax)} (h : List.Forall₂ Settles ps qs)
    (g : Nat) : mergedGroups g ps = g + (groupsOf (List.zipWith compiledPart ps qs) +
      (List.zipWith compiledPart ps qs).length) := by
  induction h generalizing g with
  | nil => rfl
  | @cons p q ps qs _ _ ih =>
    rw [show mergedGroups g (p :: ps) = mergedGroups (g + 1 + opens p.1) ps from rfl, ih,
      List.zipWith_cons_cons, groupsOf, List.length_cons,
      show (compiledPart p q).groups = opens p.1 from rfl]
    omega

/-! ## 5. What a row is compiled to -/

/-- **The number of the group around part `i`**: as many as the groups before it, those around the
    parts included, and one. -/
def partGroup (regexes : List Regex) (i : Nat) : Nat := i + groupsOf (regexes.take i) + 1

theorem wrapperKeys_eq {ps qs : List (List Char × Syntax)} (h : List.Forall₂ Settles ps qs) (g : Nat) :
    wrapperKeys g qs = (List.range ps.length).map fun i =>
      g + partGroup (List.zipWith compiledPart ps qs) i := by
  induction h generalizing g with
  | nil => rfl
  | @cons p q ps qs hpq _ ih =>
    rw [wrapperKeys, ih, (stage_settledPart hpq.settled).chars, List.length_cons,
      List.range_succ_eq_map, List.map_cons, List.map_map]
    refine congrArg _ (List.map_congr_left fun i _ => ?_)
    simp only [Function.comp_apply, partGroup, List.zipWith_cons_cons, List.take_succ_cons, groupsOf,
      show (compiledPart p q).groups = opens p.1 from rfl]
    omega

/-- **Patterns in a row**, compiled one by one and as one: the group around each of them holds its
    tree, moved by the number of the group; and in a match these groups lie end to end. -/
structure IsRow (folded : Bool) (patterns : List String) (regexes : List Regex) (row : Regex) :
    Prop where
  groups : row.groups = groupsOf regexes + regexes.length
  wraps : ∃ tree n, readSyntax (merge patterns "").toList folded = .ok (tree, n) ∧
    ∀ i pattern, patterns[i]? = some pattern → ∃ own inner,
      readSyntax pattern.toList folded = .ok (own, inner) ∧
        tree.captures.lookup (partGroup regexes i) = some (own.moved (partGroup regexes i))
  tiled : ∀ {text origin i m}, i ≤ text.size → row.matchFrom text origin i = some m →
    TiledBy m.group? m.span.start m.span.stop
      ((List.range patterns.length).map (partGroup regexes))

section Row

variable {folded : Bool} {patterns : List String} {regexes : List Regex}

/-- The group around each pattern of a row holds its tree. -/
theorem wraps_sequenced {ps qs : List (List Char × Syntax)}
    (hps : ps.map (·.1) = patterns.map String.toList)
    (hstanding : ∀ p ∈ ps, Standing ⟨folded, false⟩ p.1 p.2) (hqs : List.Forall₂ Settles ps qs)
    {i : Nat} {pattern : String} (hi : patterns[i]? = some pattern) : ∃ own inner,
      readSyntax pattern.toList folded = .ok (own, inner) ∧
        (sequencedTree 0 ps).captures.lookup (partGroup (List.zipWith compiledPart ps qs) i) =
          some (own.moved (partGroup (List.zipWith compiledPart ps qs) i)) := by
  have hchars : (ps[i]?).map (·.1) = some pattern.toList := by
    rw [← List.getElem?_map, hps, List.getElem?_map, hi]
    rfl
  obtain ⟨p, hp, hpattern⟩ := Option.map_eq_some_iff.mp hchars
  obtain ⟨hlt, hget⟩ := List.getElem?_eq_some_iff.mp hp
  have hsplit : ps = ps.take i ++ p :: ps.drop (i + 1) := by
    rw [← hget, List.getElem_cons_drop, List.take_append_drop]
  have hbefore : ∀ q ∈ ps.take i, Sound q := fun q hq =>
    sound_of_standing (hstanding q (List.take_subset i ps hq))
  have hkey : mergedGroups 0 (ps.take i) + 1 = partGroup (List.zipWith compiledPart ps qs) i := by
    have hlength : (List.zipWith compiledPart (ps.take i) (qs.take i)).length = i := by
      rw [List.length_zipWith, List.length_take, List.length_take, ← hqs.length_eq]
      omega
    rw [mergedGroups_eq (List.forall₂_take i hqs), hlength, partGroup, List.take_zipWith]
    omega
  refine ⟨p.2, opens p.1, hpattern ▸ (hstanding p (List.mem_of_getElem? hp)).readSyntax, ?_⟩
  have hlookup := lookup_merged hbefore p (ps.drop (i + 1))
  rw [← hsplit, hkey] at hlookup
  rw [captures_sequenced]
  exact hlookup

/-- **Plain patterns in a row are plain together.** They can be compiled where each of them can be,
    unless one is too deep in its group; and then they are a row. -/
theorem compile_sequence
    (h : List.Forall₂ (fun s r => Plain folded s ∧ compile s folded = .ok r) patterns regexes)
    (hle : groupsOf regexes + regexes.length ≤ Text.maxCount) :
    Plain folded (merge patterns "") ∧ (compile (merge patterns "") folded = .error .tooDeep ∨
      ∃ row, compile (merge patterns "") folded = .ok row ∧ IsRow folded patterns regexes row) := by
  obtain ⟨ps, qs, hps, hstanding, hqs, rfl⟩ := exists_parts h
  have htext : (merge patterns "").toList = sequencedText 0 (ps.map (·.1)) :=
    (toList_merge_sequence patterns).trans (congrArg (sequencedText 0) hps.symm)
  have hgroups := (mergedGroups_eq hqs 0).trans (Nat.zero_add _)
  have hclear := (clear_sequenced ps 0 hstanding (hgroups ▸ hle)).1
  have hmapM : ps.mapM settledPart = .ok qs := mapM_of_forall₂ (hqs.imp fun _ _ => Settles.settled)
  by_cases hfits : ∀ p ∈ ps, Fits ⟨folded, false⟩ p
  · have hread := readSyntax_sequenced hstanding hfits
    refine ⟨⟨htext ▸ hclear, ?_⟩, .inr ⟨compiledSequence ps qs, ?_, hgroups,
      ⟨_, _, htext ▸ hread, fun i pattern hi => wraps_sequenced hps hstanding hqs hi⟩,
      fun hi hm => ?_⟩⟩
    · rw [htext, isSteady, hread]
      simp only [settled_sequenced hstanding hmapM]
      exact isSteady_sequenced hqs
    · rw [compile, htext]
      exact readPattern_sequenced hstanding hmapM hfits
    · have hsound : ∀ q ∈ qs, Sound q := fun q hq => by
        obtain ⟨p, _, hpq⟩ := exists_of_mem_forall₂ hqs hq
        exact (stage_settledPart hpq.settled).sound hpq.sound
      have htiled := tiled_sequenced hsound hi hm
      rw [wrapperKeys_eq hqs] at htiled
      rw [show patterns.length = ps.length by
        rw [← List.length_map (f := String.toList), ← hps, List.length_map]]
      simpa only [Nat.zero_add] using htiled
  · have hdeep := readSyntax_sequenced_deep hstanding (by simpa using hfits)
    refine ⟨⟨htext ▸ hclear, ?_⟩, .inl ?_⟩
    · rw [htext, isSteady, hdeep]
    · rw [compile, htext, readPattern, hdeep]
      rfl

end Row

end Highlight.Pattern
