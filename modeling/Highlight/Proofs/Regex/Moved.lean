import Highlight.Regex.Repetition
import Highlight.Regex.Letters

/-!
# Patterns with their groups moved

A pattern that is put behind others keeps its form; its groups get greater numbers, and so do its
references.

* `Syntax.moved` -- the tree with its groups moved;
* `moved_join`, `moved_followedBy`, `moved_held`, `moved_apply` -- what trees are built with;
* `Syntax.isLeaf` -- trees without groups;
* `Syntax.form`, `apply_form` -- what a repetition looks at in a piece.
-/

namespace Highlight.Regex

/-! ## 1. Moving -/

/-- A kind of group whose number is greater by `offset`, if it has one. -/
def GroupKind.moved (offset : Nat) : GroupKind → GroupKind
  | .capture n => .capture (n + offset)
  | kind => kind

/-- A tree whose groups and references have numbers greater by `offset`. -/
def Syntax.moved (offset : Nat) : Syntax → Syntax
  | .cat a b => .cat (a.moved offset) (b.moved offset)
  | .alt a b => .alt (a.moved offset) (b.moved offset)
  | .group kind a => .group (kind.moved offset) (a.moved offset)
  | .loop low high isLazy a => .loop low high isLazy (a.moved offset)
  | .ahead negated a => .ahead negated (a.moved offset)
  | .behind negated width a => .behind negated width (a.moved offset)
  | .again groups folded isInner => .again (groups.map (· + offset)) folded isInner
  | a => a

section Moved

variable (offset : Nat)

@[simp] theorem moved_empty : Syntax.empty.moved offset = .empty := rfl

theorem moved_join (a b : Syntax) :
    (a.join b).moved offset = (a.moved offset).join (b.moved offset) := by
  cases a with
  | text cs f =>
    cases b with
    | text ds g =>
      simp only [Syntax.join, Syntax.moved]
      split <;> rfl
    | cat b c =>
      cases b with
      | text ds g =>
        simp only [Syntax.join, Syntax.moved]
        split <;> rfl
      | _ => rfl
    | _ => rfl
  | _ => rfl

theorem moved_followedBy : ∀ a b : Syntax,
    (a.followedBy b).moved offset = (a.moved offset).followedBy (b.moved offset)
  | .cat a b, c => by simp only [Syntax.followedBy, Syntax.moved, moved_followedBy b c]
  | .text _ _, _ | .set _, _ | .anchor _, _ | .never, _ | .alt _ _, _ | .group _ _, _
  | .loop _ _ _ _, _ | .ahead _ _, _ | .behind _ _ _, _ | .again _ _ _, _ => rfl

theorem moved_first (a : Syntax) : a.first.moved offset = (a.moved offset).first := by
  cases a <;> rfl

theorem moved_held (a : Syntax) : a.held.moved offset = (a.moved offset).held := by
  cases a <;> rfl

end Moved

/-! ## 2. Trees without groups -/

/-- A row or choice of texts, sets and conditions. -/
def Syntax.isLeaf : Syntax → Bool
  | .text _ _ | .set _ | .anchor _ | .never => true
  | .cat a b | .alt a b => a.isLeaf && b.isLeaf
  | _ => false

theorem isLeaf_join {a b : Syntax} (ha : a.isLeaf = true) (hb : b.isLeaf = true) :
    (a.join b).isLeaf = true := by
  unfold Syntax.join
  split
  · split <;> rfl
  · simp only [Syntax.isLeaf, Bool.true_and] at hb
    split <;> simp only [Syntax.isLeaf, hb, Bool.true_and]
  · simp only [Syntax.isLeaf, ha, hb, Bool.true_and]

theorem isLeaf_row : ∀ {as : List Syntax}, (∀ a ∈ as, a.isLeaf = true) →
    (Syntax.row as).isLeaf = true
  | [], _ => rfl
  | [a], h => h a (by simp)
  | a :: b :: as, h =>
      isLeaf_join (h a (by simp)) (isLeaf_row fun c hc => h c (List.mem_cons_of_mem a hc))

theorem isLeaf_anyOf {a : Syntax} {as : List Syntax} (ha : a.isLeaf = true)
    (h : ∀ b ∈ as, b.isLeaf = true) : (a.anyOf as).isLeaf = true := by
  induction as generalizing a with
  | nil => exact ha
  | cons b bs ih =>
    simp only [Syntax.anyOf, Syntax.isLeaf, ha, Bool.true_and]
    exact ih (h b (by simp)) fun c hc => h c (List.mem_cons_of_mem b hc)

theorem isLeaf_oneOf (cs : List Char) : (Syntax.oneOf cs).isLeaf = true := by
  unfold Syntax.oneOf
  split <;> rfl

theorem isLeaf_letters (cs : List Char) : (Syntax.letters cs).isLeaf = true := by
  refine isLeaf_row fun a ha => ?_
  obtain ⟨c, _, rfl⟩ := List.mem_map.mp ha
  exact isLeaf_oneOf _

theorem isLeaf_ofClass (t : CharTest) : (Syntax.ofClass t).isLeaf = true := by
  unfold Syntax.ofClass
  split
  · refine isLeaf_anyOf rfl fun a ha => ?_
    obtain ⟨cs, _, rfl⟩ := List.mem_map.mp ha
    exact isLeaf_letters cs
  · rfl

theorem moved_of_isLeaf (offset : Nat) {a : Syntax} (h : a.isLeaf = true) :
    a.moved offset = a := by
  induction a with
  | cat a b iha ihb | alt a b iha ihb =>
    simp only [Syntax.isLeaf, Bool.and_eq_true] at h
    rw [Syntax.moved, iha h.1, ihb h.2]
  | text _ _ | set _ | anchor _ | never => rfl
  | _ => cases h

section Repetitions

variable (offset : Nat)

/-! ## 3. Repetitions -/

theorem isRepeatable_moved (a : Syntax) : (a.moved offset).isRepeatable = a.isRepeatable := by
  induction a with
  | alt a b iha ihb => simp only [Syntax.moved, Syntax.isRepeatable, iha, ihb]
  | group kind a ih => cases kind <;> first | rfl | exact ih
  | _ => rfl

theorem moved_loop (m : Mark) (a : Syntax) : (m.loop a).moved offset = m.loop (a.moved offset) := by
  cases m <;> rfl

theorem moved_atomicIf (isAtomic : Bool) (a : Syntax) :
    (a.atomicIf isAtomic).moved offset = (a.moved offset).atomicIf isAtomic := by
  cases isAtomic <;> rfl

theorem overLoop_moved (r : Repeat) (low : Nat) (high : Option Nat) (isLazy : Bool) (a : Syntax) :
    r.overLoop low high isLazy (a.moved offset) =
      (r.overLoop low high isLazy a).map (Syntax.moved offset) := by
  unfold Repeat.overLoop
  split
  · split <;> simp only [Except.map, moved_loop]
  · rfl
  · split
    · split <;> rfl
    · rfl

theorem apply_moved (r : Repeat) (grouped : Bool) (a : Syntax) :
    r.apply grouped (a.moved offset) = (r.apply grouped a).map (Syntax.moved offset) := by
  unfold Repeat.apply
  split
  · rfl
  · cases a with
    | text cs folded =>
      simp only [Syntax.moved]
      split <;> simp only [Except.map, Syntax.moved, moved_atomicIf]
    | loop low high isLazy b =>
      simp only [Syntax.moved]
      rw [overLoop_moved]
      cases r.overLoop low high isLazy b with
      | error e => rfl
      | ok x => exact congrArg Except.ok (moved_atomicIf offset r.isAtomic x).symm
    | _ => simp only [Syntax.moved, Except.map, moved_atomicIf]

end Repetitions

/-! ## 4. Pieces of one form -/

/-- What a repetition looks at in the piece that it repeats. -/
inductive Form where
  /-- The characters of a text. -/
  | text (cs : List Char)
  /-- How often a loop goes round. -/
  | loop (low : Nat) (high : Option Nat) (isLazy : Bool)
  /-- Whether any other piece has a text of its own. -/
  | other (isRepeatable : Bool)
  deriving DecidableEq

/-- What a repetition looks at in a piece. -/
def Syntax.form : Syntax → Form
  | .text cs _ => .text cs
  | .loop low high isLazy _ => .loop low high isLazy
  | a => .other a.isRepeatable

/-- Whether a piece of a form has a text of its own. -/
def Form.isRepeatable : Form → Bool
  | .other isRepeatable => isRepeatable
  | _ => true

theorem isRepeatable_form (a : Syntax) : a.form.isRepeatable = a.isRepeatable := by
  cases a <;> rfl

theorem form_held (a : Syntax) : a.held.form = a.form := by
  cases a <;> rfl

theorem isRepeatable_congr {a a' : Syntax} (h : a'.form = a.form) :
    a'.isRepeatable = a.isRepeatable := by
  rw [← isRepeatable_form, h, isRepeatable_form]

theorem form_alt {a a' b b' : Syntax} (ha : a'.form = a.form) (hb : b'.form = b.form) :
    (Syntax.alt a' b').form = (Syntax.alt a b).form := by
  simp only [Syntax.form, Syntax.isRepeatable, isRepeatable_congr ha, isRepeatable_congr hb]

theorem form_followedBy (a b : Syntax) : (a.followedBy b).form = .other true := by
  cases a <;> rfl

theorem isRepeatable_join (a b : Syntax) : (a.join b).isRepeatable = true := by
  unfold Syntax.join
  split
  · split <;> rfl
  · split <;> rfl
  · rfl

theorem isRepeatable_row : ∀ {as : List Syntax}, (∀ a ∈ as, a.isRepeatable = true) →
    (Syntax.row as).isRepeatable = true
  | [], _ => rfl
  | [a], h => h a (by simp)
  | a :: b :: as, _ => isRepeatable_join a _

theorem isRepeatable_anyOf {a : Syntax} {as : List Syntax} (ha : a.isRepeatable = true)
    (h : ∀ b ∈ as, b.isRepeatable = true) : (a.anyOf as).isRepeatable = true := by
  induction as generalizing a with
  | nil => exact ha
  | cons b bs ih =>
    simp only [Syntax.anyOf, Syntax.isRepeatable, ha, Bool.true_and]
    exact ih (h b (by simp)) fun c hc => h c (List.mem_cons_of_mem b hc)

theorem form_ofClass (t : CharTest) : (Syntax.ofClass t).form = .other true := by
  unfold Syntax.ofClass
  split
  · have hletters : ∀ b ∈ t.longTexts.map Syntax.letters, b.isRepeatable = true := by
      intro b hb
      obtain ⟨cs, _, rfl⟩ := List.mem_map.mp hb
      refine isRepeatable_row fun a ha => ?_
      obtain ⟨c, _, rfl⟩ := List.mem_map.mp ha
      unfold Syntax.oneOf
      split <;> rfl
    cases hl : t.longTexts.map Syntax.letters with
    | nil => rfl
    | cons b bs =>
      rw [hl] at hletters
      simp only [Syntax.anyOf, Syntax.form, Syntax.isRepeatable, Bool.true_and, Form.other.injEq]
      exact isRepeatable_anyOf (hletters b (by simp)) fun c hc =>
        hletters c (List.mem_cons_of_mem b hc)
  · rfl

theorem form_mark (m : Mark) (a b : Syntax) : (m.loop a).form = (m.loop b).form := by
  cases m <;> rfl

theorem form_atomicIf (isAtomic : Bool) {a b : Syntax} (h : a.form = b.form) :
    (a.atomicIf isAtomic).form = (b.atomicIf isAtomic).form := by
  cases isAtomic
  · exact h
  · rfl

theorem overLoop_form {r : Repeat} {low : Nat} {high : Option Nat} {isLazy : Bool}
    {a b : Syntax} (a' : Syntax) (h : r.overLoop low high isLazy a = .ok b) :
    ∃ b', r.overLoop low high isLazy a' = .ok b' ∧ b'.form = b.form := by
  unfold Repeat.overLoop at h ⊢
  split at h
  · split at h <;> cases h
    · exact ⟨_, rfl, form_mark _ _ _⟩
    · exact ⟨_, rfl, form_mark _ _ _⟩
  · cases h
    exact ⟨_, rfl, rfl⟩
  · split at h
    · rename_i hs
      split at h
      · cases h
      · rename_i hn
        cases h
        rw [if_pos hs, if_neg hn]
        exact ⟨_, rfl, rfl⟩
    · rename_i hs
      cases h
      rw [if_neg hs]
      exact ⟨_, rfl, rfl⟩

theorem apply_once {r : Repeat} (h : (r.low == 1 && r.high == some 1) = true) (grouped : Bool)
    (a : Syntax) : r.apply grouped a = .ok a := by
  unfold Repeat.apply
  exact if_pos h

/-- A piece that is no text and no loop is put in a loop. -/
theorem apply_other {r : Repeat} (h : (r.low == 1 && r.high == some 1) = false) (grouped : Bool)
    {a : Syntax} {z : Bool} (ha : a.form = .other z) :
    r.apply grouped a = .ok ((Syntax.loop r.low r.high r.isLazy a).atomicIf r.isAtomic) := by
  unfold Repeat.apply
  rw [h]
  cases a <;> first | rfl | cases ha

theorem apply_loop {r : Repeat} (h : (r.low == 1 && r.high == some 1) = false) (grouped : Bool)
    (low : Nat) (high : Option Nat) (isLazy : Bool) (a : Syntax) :
    r.apply grouped (.loop low high isLazy a) =
      (r.overLoop low high isLazy a).map (Syntax.atomicIf r.isAtomic) := by
  unfold Repeat.apply
  rw [h]
  show (r.overLoop low high isLazy a).bind _ = _
  cases r.overLoop low high isLazy a <;> rfl

theorem apply_text {r : Repeat} (grouped : Bool) (cs : List Char) (f f' : Bool) {b : Syntax}
    (h : r.apply grouped (.text cs f) = .ok b) :
    ∃ b', r.apply grouped (.text cs f') = .ok b' ∧ b'.form = b.form := by
  unfold Repeat.apply at h ⊢
  split at h
  · rename_i hone
    cases h
    rw [if_pos hone]
    exact ⟨_, rfl, rfl⟩
  · rename_i hone
    rw [if_neg hone]
    simp only at h ⊢
    split at h
    · cases h
      exact ⟨_, rfl, rfl⟩
    · cases h
      exact ⟨_, rfl, form_atomicIf r.isAtomic rfl⟩

/-- **What a repetition makes of a piece depends on the form of the piece only.** -/
theorem apply_form {r : Repeat} {grouped : Bool} {a a' b : Syntax} (hf : a'.form = a.form)
    (h : r.apply grouped a = .ok b) : ∃ b', r.apply grouped a' = .ok b' ∧ b'.form = b.form := by
  cases hone : r.low == 1 && r.high == some 1 with
  | true =>
    rw [apply_once hone] at h ⊢
    cases h
    exact ⟨a', rfl, hf⟩
  | false =>
    cases ha : a.form with
    | text cs =>
      rw [ha] at hf
      cases a <;> cases ha
      cases a' <;> cases hf
      exact apply_text grouped cs _ _ h
    | loop low high isLazy =>
      rw [ha] at hf
      cases a <;> cases ha
      cases a' <;> cases hf
      rename_i c c'
      rw [apply_loop hone] at h ⊢
      cases ho : r.overLoop low high isLazy c with
      | error e => rw [ho] at h; cases h
      | ok d =>
        obtain ⟨d', ho', hd⟩ := overLoop_form c' ho
        rw [ho] at h
        cases h
        rw [ho']
        exact ⟨_, rfl, form_atomicIf r.isAtomic hd⟩
    | other z =>
      rw [apply_other hone grouped ha] at h
      cases h
      rw [apply_other hone grouped (hf.trans ha)]
      exact ⟨_, rfl, form_atomicIf r.isAtomic rfl⟩

end Highlight.Regex
