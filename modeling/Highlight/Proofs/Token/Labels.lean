import Highlight.Token.Tree

/-!
# The labels of a tree

The nodes of a tree are called what the events that built it said.

* `Event.Within`, `Node.Within` -- events that name, and nodes that have, only labels of some kind;
* `TokenTree.Within` -- a tree under construction, all of whose labels are of some kind;
* `within_apply`, `within_root` -- events that name only such labels build such a tree.
-/

namespace Highlight.Token

variable {P : String → Prop}

/-! ## 1. Labels of some kind -/

/-- **All labels that an event names are of some kind**: those of scopes, and those of the languages
    of nested runs. -/
inductive Event.Within (P : String → Prop) : Event → Prop
  | text (s : String) : Within P (.text s)
  | opening {scope : String} : P scope → Within P (.opening scope)
  | closing : Within P .closing
  | nested {language : Option String} {events : List Event} :
      (∀ l, language = some l → P (TokenTree.languageLabel l)) → (∀ e ∈ events, Within P e) →
      Within P (.nested language events)
  | finish : Within P .finish

/-- **All labels under a node are of some kind**, its own included. -/
inductive Node.Within (P : String → Prop) : Node → Prop
  | text (s : String) : Within P (.text s)
  | scope {label : Option String} {children : List Node} : (∀ l, label = some l → P l) →
      (∀ n ∈ children, Within P n) → Within P (.scope label children)

namespace TokenTree

variable {t : TokenTree} {n : Node} {e : Event} {es : List Event}

/-- All labels of a tree under construction are of some kind. -/
structure Within (P : String → Prop) (t : TokenTree) : Prop where
  top : ∀ n ∈ t.top, n.Within P
  opened : ∀ s ∈ t.opened, P s.label ∧ ∀ n ∈ s.children, n.Within P

/-! ## 2. What events add -/

theorem within_empty : empty.Within P := ⟨fun _ hn => (by cases hn), fun _ hs => by cases hs⟩

theorem within_pushNode {children : List Node} (hn : n.Within P)
    (hall : ∀ n ∈ children, n.Within P) : ∀ x ∈ pushNode n children, x.Within P := by
  unfold pushNode
  split
  · exact List.forall_mem_cons.mpr ⟨.text _, (List.forall_mem_cons.mp hall).2⟩
  · exact List.forall_mem_cons.mpr ⟨hn, hall⟩

theorem within_push (ht : t.Within P) (hn : n.Within P) : (t.push n).Within P := by
  unfold push
  cases h : t.opened with
  | nil => exact ⟨within_pushNode hn ht.top, by simp⟩
  | cons s rest =>
    have hopened := ht.opened
    rw [h] at hopened
    obtain ⟨hs, hrest⟩ := List.forall_mem_cons.mp hopened
    exact ⟨ht.top, List.forall_mem_cons.mpr ⟨⟨hs.1, within_pushNode hn hs.2⟩, hrest⟩⟩

theorem within_closeScope (ht : t.Within P) : t.closeScope.Within P := by
  unfold closeScope
  cases h : t.opened with
  | nil => exact ht
  | cons s rest =>
    have hopened := ht.opened
    rw [h] at hopened
    obtain ⟨⟨hlabel, hchildren⟩, hrest⟩ := List.forall_mem_cons.mp hopened
    refine within_push ⟨ht.top, hrest⟩ (.scope (fun l hl => ?_) fun n hn => ?_)
    · cases hl
      exact hlabel
    · exact hchildren n (List.mem_reverse.mp hn)

theorem within_closeAll (count : Nat) (ht : t.Within P) : (closeAll count t).Within P := by
  induction count generalizing t with
  | zero => exact ht
  | succ count ih => exact ih (within_closeScope ht)

theorem within_finish (ht : t.Within P) : t.finish.Within P := within_closeAll _ ht

/-- **The root of a tree has only labels that the tree has.** -/
theorem within_root (ht : t.Within P) : t.root.Within P :=
  .scope (fun _ hl => by cases hl) fun n hn => ht.top n (List.mem_reverse.mp hn)

/-- What holds of every event of some holds of the tree after all of them. -/
theorem within_applyAll_of (hes : ∀ e ∈ es, ∀ t : TokenTree, t.Within P → (t.apply e).Within P)
    (ht : t.Within P) : (t.applyAll es).Within P := by
  induction es generalizing t with
  | nil => exact ht
  | cons e es ih =>
    obtain ⟨he, hes⟩ := List.forall_mem_cons.mp hes
    exact ih hes (he t ht)

/-- **An event adds only labels that it names.** -/
theorem within_apply (he : e.Within P) (ht : t.Within P) : (t.apply e).Within P := by
  induction he generalizing t with
  | text s =>
    show (t.addText s).Within P
    unfold addText
    split
    · exact ht
    · exact within_push ht (.text s)
  | opening hscope =>
    exact ⟨ht.top, List.forall_mem_cons.mpr ⟨⟨hscope, fun _ hn => by cases hn⟩, ht.opened⟩⟩
  | closing => exact within_closeScope ht
  | nested hlanguage _ ih =>
    -- The nested run builds a tree of its own, from nothing on.
    have hother := within_root (within_finish (within_applyAll_of (fun e he _ => ih e he)
      within_empty))
    cases hother with
    | scope _ hchildren =>
      refine within_push ht (.scope (fun l hl => ?_) hchildren)
      obtain ⟨name, hname, rfl⟩ := Option.map_eq_some_iff.mp hl
      exact hlanguage name hname
  | finish => exact within_finish ht

/-- **Events build a tree with only labels that they name.** -/
theorem within_ofEvents (hes : ∀ e ∈ es, e.Within P) : (ofEvents es).Within P :=
  within_applyAll_of (fun e he _ => within_apply (hes e he)) within_empty

end TokenTree

end Highlight.Token
