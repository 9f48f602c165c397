import Highlight.Proofs.Token.Opened

/-!
# The labels above each character

A character of a token tree is under the scopes that were open when it was told.

* `Leaf`, `Node.leaves` -- the characters under a node, each with the labels above it;
* `Event.leaves`, `eventsLeaves` -- the characters that events tell, each with the scopes open then;
* `TokenTree.leaves` -- the characters of a tree under construction;
* `leaves_push`, `leaves_closeScope`, `leaves_apply` -- what an event adds;
* `leaves_ofEvents` -- the characters of a tree are those that its events tell.
-/

namespace Highlight.Token

/-! ## 1. Characters and labels -/

/-- A character with the labels above it, the outermost first. -/
abbrev Leaf := Char × List String

/-- The characters of a text, all under the same labels. -/
def leavesOf (path : List String) (s : String) : List Leaf := s.toList.map (·, path)

theorem leavesOf_append (path : List String) (s t : String) :
    leavesOf path (s ++ t) = leavesOf path s ++ leavesOf path t := by
  unfold leavesOf
  rw [String.toList_append, List.map_append]

mutual

/-- The characters under a node, which is itself under some labels. -/
def Node.leaves (path : List String) : Node → List Leaf
  | .text s => leavesOf path s
  | .scope label children => nodesLeaves (path ++ label.toList) children

/-- The characters under nodes, in order. -/
def nodesLeaves (path : List String) : List Node → List Leaf
  | [] => []
  | n :: ns => n.leaves path ++ nodesLeaves path ns

end

mutual

/-- The characters that an event tells, each under the scopes that are open, the innermost of which
    comes first in `opened`; `base` is above them all. -/
def Event.leaves (base opened : List String) : Event → List Leaf
  | .text s => leavesOf (base ++ opened.reverse) s
  | .nested language events =>
    eventsLeaves (base ++ opened.reverse ++ (language.map TokenTree.languageLabel).toList) [] events
  | _ => []

/-- The characters that events tell, in order. -/
def eventsLeaves (base opened : List String) : List Event → List Leaf
  | [] => []
  | e :: es => e.leaves base opened ++ eventsLeaves base ((e.openAfter opened).getD []) es

end

variable {base opened opened' : List String}

theorem nodesLeaves_append (path : List String) (ns ms : List Node) :
    nodesLeaves path (ns ++ ms) = nodesLeaves path ns ++ nodesLeaves path ms := by
  induction ns with
  | nil => rfl
  | cons n ns ih =>
    show n.leaves path ++ nodesLeaves path (ns ++ ms) = _
    rw [ih, ← List.append_assoc]
    rfl

theorem nodesLeaves_singleton (path : List String) (n : Node) :
    nodesLeaves path [n] = n.leaves path := List.append_nil _

theorem eventsLeaves_append {es fs : List Event} (h : openAfter opened es = some opened') :
    eventsLeaves base opened (es ++ fs) =
      eventsLeaves base opened es ++ eventsLeaves base opened' fs := by
  induction es generalizing opened with
  | nil =>
    cases h
    rfl
  | cons e es ih =>
    obtain ⟨o, ho, hrest⟩ := Option.bind_eq_some_iff.mp h
    show e.leaves base opened ++ eventsLeaves base ((e.openAfter opened).getD []) (es ++ fs) =
      e.leaves base opened ++ eventsLeaves base ((e.openAfter opened).getD []) es ++ _
    rw [ho, Option.getD_some, ih hrest, List.append_assoc]

/-- An event without characters of its own adds none. -/
theorem eventsLeaves_concat_silent (es : List Event) {e : Event}
    (h : ∀ opened, e.leaves base opened = []) :
    eventsLeaves base opened (es ++ [e]) = eventsLeaves base opened es := by
  induction es generalizing opened with
  | nil =>
    show e.leaves base opened ++ [] = []
    rw [h, List.append_nil]
  | cons e' es ih =>
    show e'.leaves base opened ++ eventsLeaves base _ (es ++ [e]) = e'.leaves base opened ++ _
    rw [ih]

theorem eventsLeaves_singleton (e : Event) : eventsLeaves base opened [e] = e.leaves base opened :=
  List.append_nil _

theorem map_fst_leavesOf (path : List String) (s : String) :
    (leavesOf path s).map (·.1) = s.toList := by
  unfold leavesOf
  rw [List.map_map]
  exact List.map_id _

mutual

theorem map_fst_leaves (base opened : List String) (e : Event) :
    (e.leaves base opened).map (·.1) = e.textOf.toList :=
  match e with
  | .text s => map_fst_leavesOf _ s
  | .nested _ events => map_fst_eventsLeaves _ [] events
  | .opening _ => rfl
  | .closing => rfl
  | .finish => rfl

/-- The characters that events tell are those of their text. -/
theorem map_fst_eventsLeaves (base opened : List String) (es : List Event) :
    (eventsLeaves base opened es).map (·.1) = (textsOf es).toList :=
  match es with
  | [] => rfl
  | e :: es => by
    show (e.leaves base opened ++ eventsLeaves base _ es).map (·.1) =
      (e.textOf ++ textsOf es).toList
    rw [List.map_append, map_fst_leaves base opened e, map_fst_eventsLeaves base _ es,
      String.toList_append]

end

/-! ## 2. Trees under construction -/

namespace TokenTree

/-- The characters in open scopes, the innermost of which comes first. -/
def openLeaves (base : List String) : List OpenScope → List Leaf
  | [] => []
  | s :: rest =>
    openLeaves base rest ++
      nodesLeaves (base ++ ((s :: rest).map (·.label)).reverse) s.children.reverse

/-- The characters of a tree, which is itself under the labels `base`. -/
def leaves (base : List String) (t : TokenTree) : List Leaf :=
  nodesLeaves base t.top.reverse ++ openLeaves base t.opened

theorem leaves_pushNode (path : List String) (n : Node) (children : List Node) :
    nodesLeaves path (pushNode n children).reverse =
      nodesLeaves path children.reverse ++ n.leaves path := by
  unfold pushNode
  split
  · rename_i s last rest
    show nodesLeaves path (Node.text (last ++ s) :: rest).reverse =
      nodesLeaves path (Node.text last :: rest).reverse ++ leavesOf path s
    rw [List.reverse_cons, List.reverse_cons, nodesLeaves_append, nodesLeaves_append,
      nodesLeaves_singleton, nodesLeaves_singleton, List.append_assoc]
    exact congrArg _ (leavesOf_append path last s)
  · rw [List.reverse_cons, nodesLeaves_append, nodesLeaves_singleton]

/-- **A node comes after all characters, under the open scopes.** -/
theorem leaves_push (t : TokenTree) (n : Node) :
    (t.push n).leaves base = t.leaves base ++ n.leaves (base ++ t.labels.reverse) := by
  unfold push
  cases h : t.opened with
  | nil =>
    simp [leaves, h, labels, leaves_pushNode, openLeaves]
  | cons s rest =>
    simp only [leaves, h, labels, openLeaves, leaves_pushNode, List.append_assoc]
    rfl

/-- Closing a scope leaves all characters where they are. -/
theorem leaves_closeScope (t : TokenTree) : t.closeScope.leaves base = t.leaves base := by
  unfold closeScope
  cases h : t.opened with
  | nil => rfl
  | cons s rest =>
    show (push _ _).leaves base = _
    rw [leaves_push]
    simp [leaves, h, labels, openLeaves, Node.leaves]

theorem leaves_closeAll (n : Nat) (t : TokenTree) :
    (closeAll n t).leaves base = t.leaves base := by
  induction n generalizing t with
  | zero => rfl
  | succ n ih =>
    show (closeAll n t.closeScope).leaves base = _
    rw [ih, leaves_closeScope]

theorem leaves_finish (t : TokenTree) : t.finish.leaves base = t.leaves base := leaves_closeAll _ t

/-- Where no scope is open all characters are under the root. -/
theorem leaves_children {t : TokenTree} (h : t.labels = []) :
    nodesLeaves base t.children = t.leaves base := by
  have hopened : t.opened = [] := List.map_eq_nil_iff.mp h
  unfold leaves
  rw [hopened]
  exact (List.append_nil _).symm

/-- The open scopes after an event, whether or not it has closed more than there were. -/
theorem labels_apply_getD (t : TokenTree) (e : Event) :
    (t.apply e).labels = (e.openAfter t.labels).getD [] := by
  cases h : e.openAfter t.labels with
  | some o => exact labels_apply t e h
  | none =>
    cases e with
    | closing =>
      have hl : t.labels = [] := by
        cases hl : t.labels with
        | nil => rfl
        | cons l rest =>
          rw [hl] at h
          cases h
      show t.closeScope.labels = _
      rw [labels_closeScope, hl]
      rfl
    | _ => cases h

mutual

/-- **An event adds its characters, under the scopes that are open.** -/
theorem leaves_apply (base : List String) (t : TokenTree) (e : Event) :
    (t.apply e).leaves base = t.leaves base ++ e.leaves base t.labels :=
  match e with
  | .text s => by
    show (t.addText s).leaves base = _
    unfold addText
    split
    · rename_i hempty
      have hs : s = "" := by simpa using hempty
      rw [hs]
      exact (List.append_nil _).symm
    · exact leaves_push t (.text s)
  | .opening scope => by
    show (t.openScope scope).leaves base = t.leaves base ++ []
    simp [openScope, leaves, openLeaves, nodesLeaves]
  | .closing => (leaves_closeScope t).trans (List.append_nil _).symm
  | .nested language events => by
    show (t.splice (applyAll .empty events) language).leaves base = _
    unfold splice
    rw [leaves_push]
    show _ ++ nodesLeaves _ _ = _
    rw [leaves_children (labels_finish _), leaves_finish, leaves_applyAll _ .empty events]
    rfl
  | .finish => (leaves_finish t).trans (List.append_nil _).symm

/-- **Events add their characters**, each under the scopes that are open then. -/
theorem leaves_applyAll (base : List String) (t : TokenTree) (es : List Event) :
    (t.applyAll es).leaves base = t.leaves base ++ eventsLeaves base t.labels es :=
  match es with
  | [] => (List.append_nil _).symm
  | e :: es => by
    show ((t.apply e).applyAll es).leaves base = _
    rw [leaves_applyAll base (t.apply e) es, leaves_apply base t e, labels_apply_getD,
      List.append_assoc]
    rfl

end

/-- **The characters of a tree whose scopes are all closed are those that its events tell**, each
    under the scopes that were open then. -/
theorem leaves_ofEvents {events : List Event} (h : openAfter [] events = some []) :
    (ofEvents events).root.leaves [] = eventsLeaves [] [] events := by
  have hlabels : (ofEvents events).labels = [] := labels_applyAll .empty events h
  show nodesLeaves _ (ofEvents events).children = _
  rw [leaves_children hlabels]
  exact leaves_applyAll [] .empty events

end TokenTree

end Highlight.Token
