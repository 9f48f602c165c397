import Highlight.Token.Tree

/-!
# Which scopes are open

* `Event.openAfter`, `openAfter` -- the scopes that are open after events; there is no answer where a
  scope closes and none is open;
* `openAfter_append` -- events after one another;
* `labels_applyAll` -- the scopes that are open in a token tree are these.
-/

namespace Highlight.Token

/-! ## 1. Open scopes -/

/-- The scopes that are open after an event, the innermost first. A closing that has nothing to
    close has no answer. -/
def Event.openAfter (opened : List String) : Event → Option (List String)
  | .text _ => some opened
  | .opening scope => some (scope :: opened)
  | .closing =>
    match opened with
    | [] => none
    | _ :: rest => some rest
  | .nested _ _ => some opened
  | .finish => some []

/-- The scopes that are open after events, the innermost first. -/
def openAfter (opened : List String) : List Event → Option (List String)
  | [] => some opened
  | e :: es => (e.openAfter opened).bind fun o => openAfter o es

theorem openAfter_append (opened : List String) (es fs : List Event) :
    openAfter opened (es ++ fs) = (openAfter opened es).bind fun o => openAfter o fs := by
  induction es generalizing opened with
  | nil => rfl
  | cons e es ih =>
    show (e.openAfter opened).bind _ = ((e.openAfter opened).bind _).bind _
    cases e.openAfter opened with
    | none => rfl
    | some o => exact ih o

theorem openAfter_singleton (opened : List String) (e : Event) :
    openAfter opened [e] = e.openAfter opened := by
  show (e.openAfter opened).bind some = _
  cases e.openAfter opened <;> rfl

/-! ## 2. The scopes of a token tree -/

/-- The scopes that are open in a tree, the innermost first. -/
def TokenTree.labels (t : TokenTree) : List String := t.opened.map (·.label)

@[simp] theorem TokenTree.labels_push (t : TokenTree) (n : Node) : (t.push n).labels = t.labels := by
  unfold TokenTree.push TokenTree.labels
  cases t.opened <;> rfl

theorem TokenTree.labels_closeScope (t : TokenTree) : t.closeScope.labels = t.labels.tail := by
  unfold TokenTree.closeScope
  cases h : t.opened with
  | nil => simp [TokenTree.labels, h]
  | cons s rest =>
    show (TokenTree.push _ _).labels = _
    rw [TokenTree.labels_push]
    simp [TokenTree.labels, h]

theorem TokenTree.labels_closeAll (n : Nat) (t : TokenTree) :
    (TokenTree.closeAll n t).labels = t.labels.drop n := by
  induction n generalizing t with
  | zero => rfl
  | succ n ih =>
    show (TokenTree.closeAll n t.closeScope).labels = _
    rw [ih, TokenTree.labels_closeScope, List.drop_tail]

theorem TokenTree.labels_finish (t : TokenTree) : t.finish.labels = [] := by
  have hl : t.labels.length = t.opened.length := List.length_map ..
  rw [TokenTree.finish, TokenTree.labels_closeAll, ← hl, List.drop_length]

/-- After an event the tree has those scopes open that the event leaves open. -/
theorem TokenTree.labels_apply (t : TokenTree) (e : Event) {opened : List String}
    (h : e.openAfter t.labels = some opened) : (t.apply e).labels = opened := by
  cases e with
  | text s =>
    cases h
    show (t.addText s).labels = _
    unfold TokenTree.addText
    split
    · rfl
    · exact TokenTree.labels_push t _
  | opening scope =>
    cases h
    rfl
  | closing =>
    show t.closeScope.labels = _
    rw [TokenTree.labels_closeScope]
    cases hl : t.labels with
    | nil =>
      rw [hl] at h
      cases h
    | cons l rest =>
      rw [hl] at h
      cases h
      rfl
  | nested language events =>
    cases h
    exact TokenTree.labels_push t _
  | finish =>
    cases h
    exact TokenTree.labels_finish t

/-- **The scopes that are open in a token tree are those that its events have left open.** -/
theorem TokenTree.labels_applyAll (t : TokenTree) (es : List Event) {opened : List String}
    (h : openAfter t.labels es = some opened) : (t.applyAll es).labels = opened := by
  induction es generalizing t with
  | nil =>
    cases h
    rfl
  | cons e es ih =>
    obtain ⟨o, ho, h⟩ := Option.bind_eq_some_iff.mp h
    show ((t.apply e).applyAll es).labels = opened
    refine ih (t.apply e) ?_
    rw [TokenTree.labels_apply t e ho]
    exact h

end Highlight.Token
