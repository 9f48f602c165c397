import Highlight.Proofs.Regex.Overviews

/-!
# Looks behind in a pattern among others

A look behind is settled by the widths of what stands in it. These are the same where the pattern
stands among others, so that it is settled there in the same way, or fails there as well.

* `lookBehind_moved`, `settle_moved` -- looks behind with their groups moved;
* `keeps_lookBehind`, `keeps_settle` -- that a settled pattern has and uses no other groups;
* `Syntax.settled` -- a pattern that is ready to be made a tree that is run.
-/

namespace Highlight.Regex

/-! ## 1. What a look behind looks at -/

section Moved

variable (offset : Nat)

theorem isCaseless_moved (a : Syntax) : (a.moved offset).isCaseless = a.isCaseless := by
  induction a with
  | cat a b iha ihb | alt a b iha ihb => simp only [Syntax.moved, Syntax.isCaseless, iha, ihb]
  | group kind a ih | loop low high isLazy a ih => simp only [Syntax.moved, Syntax.isCaseless, ih]
  | _ => rfl

theorem measured_moved (a : Syntax) :
    (a.moved offset).measured = a.measured.map (· + offset) := by
  induction a with
  | cat a b iha ihb | alt a b iha ihb =>
    simp only [Syntax.moved, Syntax.measured, iha, ihb, List.map_append]
  | group kind a ih => exact ih
  | loop low high isLazy a ih =>
    simp only [Syntax.moved, Syntax.measured]
    split
    · rfl
    · exact ih
  | again groups folded isInner => cases isInner <;> rfl
  | _ => rfl

theorem fitsBehind_moved (negated : Bool) (a : Syntax) :
    (a.moved offset).fitsBehind negated = a.fitsBehind negated := by
  induction a generalizing negated with
  | cat a b iha ihb | alt a b iha ihb => simp only [Syntax.moved, Syntax.fitsBehind, iha, ihb]
  | group kind a ih =>
    cases kind <;> simp only [Syntax.moved, GroupKind.moved, Syntax.fitsBehind, ih]
  | loop low high isLazy a ih | behind inner width a ih =>
    simp only [Syntax.moved, Syntax.fitsBehind, ih]
  | _ => rfl

theorem size_moved (a : Syntax) : (a.moved offset).size = a.size := by
  induction a with
  | cat a b iha ihb | alt a b iha ihb => simp only [Syntax.moved, Syntax.size, iha, ihb]
  | group kind a ih | loop low high isLazy a ih | ahead negated a ih
  | behind negated width a ih => simp only [Syntax.moved, Syntax.size, ih]
  | _ => rfl

theorem alternatives_moved (a : Syntax) :
    (a.moved offset).alternatives = a.alternatives.map (Syntax.moved offset) := by
  induction a with
  | alt a b _ ihb => simp only [Syntax.moved, Syntax.alternatives, List.map_cons, ihb]
  | _ => rfl

theorem unheld_moved (a : Syntax) : (a.moved offset).unheld = a.unheld.moved offset := by
  cases a with
  | group kind a => cases kind <;> rfl
  | _ => rfl

end Moved

theorem measured_subset (a : Syntax) : a.measured ⊆ a.uses := by
  induction a with
  | cat a b iha ihb | alt a b iha ihb =>
    exact List.append_subset.mpr ⟨List.subset_append_of_subset_left _ iha,
      List.subset_append_of_subset_right _ ihb⟩
  | group kind a ih =>
    cases kind with
    | capture g => exact List.subset_cons_of_subset g ih
    | _ => exact ih
  | loop low high isLazy a ih =>
    simp only [Syntax.measured]
    split
    · exact List.nil_subset _
    · exact ih
  | again groups folded isInner => exact List.Subset.refl _
  | _ => exact List.nil_subset _

theorem keeps_alternatives (a : Syntax) : ∀ b ∈ a.alternatives, Keeps a b := by
  induction a with
  | alt a c _ ihc =>
    intro b hb
    rcases List.mem_cons.mp hb with rfl | hb
    · refine ⟨?_, List.subset_append_left _ _, fun _ _ hg => hg.1⟩
      exact List.map_subset _ (List.subset_append_left _ _)
    · refine Keeps.trans ⟨?_, List.subset_append_right _ _, fun _ _ hg => hg.2⟩ (ihc b hb)
      exact List.map_subset _ (List.subset_append_right _ _)
  | _ =>
    intro b hb
    cases List.mem_singleton.mp hb
    exact .refl _

theorem keeps_unheld (a : Syntax) : Keeps a a.unheld := by
  cases a with
  | group kind a =>
    cases kind <;> exact ⟨List.Subset.refl _, List.Subset.refl _, fun _ _ hg => hg⟩
  | _ => exact .refl _

/-! ## 2. One look behind -/

/-- The looks behind that the alternatives of one become, of which all but the first have one width
    only. -/
def Overview.partWise (o : Overview) (known : Nat) (negated : Bool) (size : Nat) :
    List Syntax → Except Fault Syntax
  | a :: b :: bs =>
    if (b :: bs).all (fun b => (b.width o.widthOf).isFixed) then do
      let a ← o.lookBehind known negated size a
      let others ← (b :: bs).mapM (o.lookBehind known negated size)
      return if negated then .row (a :: others) else a.anyOf others
    else .error .lookBehindInvalid
  | _ => .error .lookBehindInvalid

/-- A look behind, by what it depends on. -/
theorem lookBehind_succ (o : Overview) (known : Nat) (negated : Bool) (size : Nat) (a : Syntax) :
    o.lookBehind known negated (size + 1) a =
      if (a.shortened.measured.any fun n => known < n && o.caseless.contains n) = true then
        .error .lookBehindInvalid
      else if (decide (maxWidth < (a.shortened.width o.widthOf).least) ||
          (a.shortened.width o.widthOf).most.any (maxWidth < ·)) = true then
        .error .lookBehindInvalid
      else if ((a.shortened.width o.widthOf).least == 0 && (a.shortened.width o.widthOf).isSure &&
          !(a.shortened.captures.any fun g => o.references.contains g.1)) = true then
        .ok (if negated then .never else .empty)
      else if (a.shortened.width o.widthOf).isFixed = true then
        .ok (.behind negated (a.shortened.width o.widthOf).least a.shortened)
      else o.partWise known negated size a.shortened.unheld.alternatives := by
  rw [Overview.lookBehind]
  simp only [bind, Except.bind, pure, Except.pure, throw, throwThe, MonadExceptOf.throw]
  split
  · rfl
  · split
    · rfl
    · split
      · rfl
      · split
        · rfl
        · generalize a.shortened.unheld.alternatives = bs
          match bs with
          | [] | [_] => rfl
          | a :: b :: bs =>
            simp only [Overview.partWise]
            split
            · rfl
            · rfl

theorem mapM_moved {offset : Nat} {f f' : Syntax → Except Fault Syntax} :
    ∀ {as : List Syntax},
      (∀ a ∈ as, f' (a.moved offset) = (f a).map (Syntax.moved offset)) →
      (as.map (Syntax.moved offset)).mapM f' = (as.mapM f).map (List.map (Syntax.moved offset))
  | [], _ => rfl
  | a :: as, h => by
      rw [List.map_cons, List.mapM_cons, List.mapM_cons, h a (by simp),
        mapM_moved fun b hb => h b (List.mem_cons_of_mem a hb)]
      cases f a with
      | error e => rfl
      | ok b => cases as.mapM f <;> rfl

section LookBehind

variable {offset n : Nat} {rank : Nat → Nat} {o o' : Overview}
  (h : o.SeenAs offset n rank o') {a : Syntax}

include h

theorem measured_caseless (ha : a.Grounded n rank) (known : Nat) :
    ((a.moved offset).measured.any fun m => known + offset < m && o'.caseless.contains m) =
      a.measured.any fun m => known < m && o.caseless.contains m := by
  rw [measured_moved]
  have hmap : (a.measured.map (· + offset)).map
        (fun m => decide (known + offset < m) && o'.caseless.contains m) =
      a.measured.map fun m => decide (known < m) && o.caseless.contains m := by
    refine map_add_congr fun m hm => ?_
    have hm := grounded_uses ha m (measured_subset a hm)
    rw [h.caseless m hm.1 hm.2]
    simp
  exact any_of_map_eq hmap

theorem captures_referred (ha : a.Grounded n rank) :
    ((a.moved offset).captures.any fun g => o'.references.contains g.1) =
      a.captures.any fun g => o.references.contains g.1 := by
  have hmap : (a.moved offset).captures.map (fun g => o'.references.contains g.1) =
      a.captures.map fun g => o.references.contains g.1 := by
    rw [captures_moved, List.map_map]
    refine List.map_congr_left fun g hg => ?_
    obtain ⟨⟨h1, hn⟩, _⟩ := grounded_captures ha g hg
    exact h.contains h1 hn
  exact any_of_map_eq hmap

theorem partWise_moved {known size : Nat} {negated : Bool}
    (ih : ∀ b, b.Grounded n rank → o'.lookBehind (known + offset) negated size (b.moved offset) =
      (o.lookBehind known negated size b).map (Syntax.moved offset)) :
    ∀ {as : List Syntax}, (∀ a ∈ as, a.Grounded n rank) →
      o'.partWise (known + offset) negated size (as.map (Syntax.moved offset)) =
        (o.partWise known negated size as).map (Syntax.moved offset)
  | [], _ | [_], _ => rfl
  | a :: b :: bs, hg => by
      have hall : ((b :: bs).map (Syntax.moved offset)).all
            (fun c => (c.width o'.widthOf).isFixed) =
          (b :: bs).all fun c => (c.width o.widthOf).isFixed := by
        have heq : ((b :: bs).map (Syntax.moved offset)).map
              (fun c => (c.width o'.widthOf).isFixed) =
            (b :: bs).map fun c => (c.width o.widthOf).isFixed := by
          rw [List.map_map]
          refine List.map_congr_left fun c hc => ?_
          exact congrArg Width.isFixed (h.width (hg c (List.mem_cons_of_mem a hc)))
        exact all_of_map_eq heq
      have hmap : ((b :: bs).map (Syntax.moved offset)).mapM
            (o'.lookBehind (known + offset) negated size) =
          ((b :: bs).mapM (o.lookBehind known negated size)).map
            (List.map (Syntax.moved offset)) :=
        mapM_moved fun c hc => ih c (hg c (List.mem_cons_of_mem a hc))
      rw [List.map_cons] at hall hmap
      simp only [List.map_cons, Overview.partWise, hall, hmap, ih a (hg a (by simp))]
      split
      · cases o.lookBehind known negated size a with
        | error e => rfl
        | ok c =>
          cases (b :: bs).mapM (o.lookBehind known negated size) with
          | error e => rfl
          | ok cs =>
            cases negated with
            | true => exact congrArg Except.ok (moved_row offset (c :: cs)).symm
            | false => exact congrArg Except.ok (moved_anyOf offset c cs).symm
      · rfl

/-- **A look behind of a pattern among others is settled as by itself.** -/
theorem lookBehind_moved (known : Nat) (negated : Bool) (size : Nat) :
    ∀ a : Syntax, a.Grounded n rank →
      o'.lookBehind (known + offset) negated size (a.moved offset) =
        (o.lookBehind known negated size a).map (Syntax.moved offset) := by
  induction size with
  | zero => exact fun _ _ => rfl
  | succ size ih =>
    intro a ha
    have hs := (keeps_shortened a).grounded n rank ha
    have hparts : ∀ b ∈ a.shortened.unheld.alternatives, b.Grounded n rank := fun b hb =>
      (keeps_alternatives _ b hb).grounded n rank ((keeps_unheld _).grounded n rank hs)
    rw [lookBehind_succ, lookBehind_succ, shortened_moved, measured_caseless h hs, h.width hs,
      captures_referred h hs, unheld_moved, alternatives_moved, partWise_moved h ih hparts]
    split
    · rfl
    · split
      · rfl
      · split
        · cases negated <;> rfl
        · split <;> rfl

end LookBehind

/-! ## 3. What a settled pattern uses -/

theorem settle_behind (o : Overview) (before : Nat) (negated : Bool) (width : Nat) (a : Syntax) :
    o.settle before (.behind negated width a) =
      if a.fitsBehind negated then
        (o.settle before a).bind fun b =>
          o.lookBehind (before + a.captures.length) negated (b.size + 1) b
      else .error .lookBehindInvalid := by
  rw [Overview.settle]
  split <;> rfl

section Keeps

variable {o : Overview}

theorem keeps_partWise {known size : Nat} {negated : Bool} {x b : Syntax}
    (ih : ∀ a b, o.lookBehind known negated size a = .ok b → Keeps a b) :
    ∀ {as : List Syntax}, (∀ a ∈ as, Keeps x a) →
      o.partWise known negated size as = .ok b → Keeps x b
  | [], _, h | [_], _, h => by cases h
  | a :: c :: cs, hx, h => by
      simp only [Overview.partWise] at h
      split at h
      · cases ha : o.lookBehind known negated size a with
        | error e => rw [ha] at h; cases h
        | ok d =>
          cases hm : (c :: cs).mapM (o.lookBehind known negated size) with
          | error e => rw [ha, hm] at h; cases h
          | ok ds =>
            rw [ha, hm] at h
            have hd : Keeps x d := (hx a (by simp)).trans (ih a d ha)
            have hds : ∀ e ∈ ds, Keeps x e := fun e he => by
              obtain ⟨f, hf, hfe⟩ := exists_of_mem_mapM hm he
              exact (hx f (List.mem_cons_of_mem a hf)).trans (ih f e hfe)
            cases negated with
            | true =>
              cases h
              refine Keeps.row fun e he => ?_
              rcases List.mem_cons.mp he with rfl | he
              · exact hd
              · exact hds e he
            | false =>
              cases h
              exact hd.anyOf hds
      · cases h

theorem keeps_lookBehind {known size : Nat} {negated : Bool} :
    ∀ {a b : Syntax}, o.lookBehind known negated size a = .ok b → Keeps a b := by
  induction size with
  | zero => intro a b h; cases h
  | succ size ih =>
    intro a b h
    rw [lookBehind_succ] at h
    have hs := keeps_shortened a
    split at h
    · cases h
    · split at h
      · cases h
      · split at h
        · cases h
          cases negated <;> exact .leaf rfl
        · split at h
          · cases h
            exact ⟨hs.groups, hs.uses, hs.grounded⟩
          · refine keeps_partWise (fun _ _ => ih) (fun c hc => ?_) h
            exact (hs.trans (keeps_unheld _)).trans (keeps_alternatives _ c hc)

/-- **A settled pattern has and uses no group that it did not have or use before.** -/
theorem keeps_settle {a b : Syntax} {before : Nat} (h : o.settle before a = .ok b) :
    Keeps a b := by
  induction a generalizing before b with
  | cat a c iha ihc | alt a c iha ihc =>
    simp only [Overview.settle, bind, Except.bind] at h
    split at h
    · cases h
    · rename_i a' ha
      split at h
      · cases h
      · rename_i c' hc
        cases h
        first
        | exact (iha ha).cat (ihc hc)
        | exact (iha ha).alt (ihc hc)
  | group kind a ih =>
    cases kind <;> (
      simp only [Overview.settle, bind, Except.bind] at h
      split at h
      · cases h
      · rename_i a' ha
        cases h
        exact (ih ha).group _)
  | loop low high isLazy a ih =>
    simp only [Overview.settle, bind, Except.bind] at h
    split at h
    · cases h
    · rename_i a' ha
      cases h
      exact (ih ha).loop low high high isLazy
  | ahead negated a ih =>
    simp only [Overview.settle, bind, Except.bind] at h
    split at h
    · cases h
    · rename_i a' ha
      cases h
      exact (ih ha).ahead negated
  | behind negated width a ih =>
    rw [settle_behind] at h
    split at h
    · cases ha : o.settle before a with
      | error e => rw [ha] at h; cases h
      | ok c =>
        rw [ha] at h
        have hk := (ih ha).trans (keeps_lookBehind h)
        exact ⟨hk.groups, hk.uses, hk.grounded⟩
    · cases h
  | _ =>
    cases h
    exact .refl _

end Keeps

/-! ## 4. Whole patterns -/

/-- **A pattern among others is settled as by itself**, or fails as by itself. -/
theorem settle_moved {offset n : Nat} {rank : Nat → Nat} {o o' : Overview}
    (h : o.SeenAs offset n rank o') {a : Syntax} (ha : a.Grounded n rank) (before : Nat) :
    o'.settle (before + offset) (a.moved offset) =
      (o.settle before a).map (Syntax.moved offset) := by
  have hlen : ∀ a : Syntax, (a.moved offset).captures.length = a.captures.length := fun a => by
    rw [captures_moved, List.length_map]
  induction a generalizing before with
  | cat a b iha ihb | alt a b iha ihb =>
    simp only [Syntax.moved, Overview.settle, hlen, iha ha.1, Nat.add_right_comm before offset,
      ihb ha.2]
    cases o.settle before a with
    | error e => rfl
    | ok c => cases o.settle (before + a.captures.length) b <;> rfl
  | group kind a ih =>
    cases kind with
    | capture g =>
      simp only [Syntax.moved, GroupKind.moved, Overview.settle, ih ha.2.2]
      cases o.settle g a <;> rfl
    | _ =>
      simp only [Syntax.moved, GroupKind.moved, Overview.settle, ih ha]
      cases o.settle before a <;> rfl
  | loop low high isLazy a ih | ahead negated a ih =>
    simp only [Syntax.moved, Overview.settle, ih ha]
    cases o.settle before a <;> rfl
  | behind negated width a ih =>
    simp only [Syntax.moved, settle_behind, fitsBehind_moved, hlen, ih ha,
      Nat.add_right_comm before offset]
    split
    · cases hs : o.settle before a with
      | error e => rfl
      | ok b =>
        simp only [Except.map, Except.bind, size_moved]
        exact lookBehind_moved h _ negated _ b ((keeps_settle hs).grounded n rank ha)
    · rfl
  | _ => rfl

/-- A tree with its texts replaced by what they can read, and with its looks behind settled. -/
def Syntax.settled (a : Syntax) : Except Fault Syntax :=
  ((a.joinTexts.foldTexts false).overview a.caselessGroups).settle 0 (a.joinTexts.foldTexts false)

theorem keeps_settled {a b : Syntax} (h : a.settled = .ok b) : Keeps a b :=
  ((keeps_joinTexts a).trans (keeps_foldTexts false _)).trans (keeps_settle h)

end Highlight.Regex
