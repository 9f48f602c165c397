import Highlight.Proofs.Token.Leaves
import Mathlib.Data.List.Infix

/-!
# Token trees are canonical

The calls that build a tree need not be balanced, and may cut its text anywhere. The tree does not
show how they did: closings without a scope do nothing, a text beside a text is one with it, and the
rest of the tree is what the calls have said.

* `staysOpen`, `unclosed` -- which of the scopes that events open they leave open, told from the
  events alone;
* `labels_ofEvents` -- these are the scopes that are open in the tree;
* `Tidy`, `Has` -- rows of nodes without empty texts and without texts side by side, and the nodes
  of a tree under construction;
* `allTidy_apply` -- an event leaves every row of nodes tidy;
* `textOf_finish` -- the text of the tree is that of its events;
* `Recut`, `applyAll_recut` -- the same events with their texts cut elsewhere build the same tree;
* `tree_is_canonical` -- all of it.
-/

namespace Highlight.Token

variable {n : Nat} {scope : String} {e : Event} {es es' : List Event} {node : Node}
  {children : List Node}

/-! ## 1. Scopes that are left open -/

/-- Whether an event opens a scope. -/
def Event.opens : Event → Bool
  | .opening _ => true
  | _ => false

/-- Whether an event closes a scope. -/
def Event.closes : Event → Bool
  | .closing => true
  | _ => false

/-- Whether an event closes all scopes. -/
def Event.finishes : Event → Bool
  | .finish => true
  | _ => false

/-- **Whether a scope that is open before some events is still open after them**: none of them
    closes all scopes, and at no point among them have more been closed than opened. -/
def staysOpen (es : List Event) : Bool :=
  es.inits.all fun before =>
    !before.any (·.finishes) && decide (before.countP (·.closes) ≤ before.countP (·.opens))

/-- **The scopes that events open and do not close**, the outermost first. -/
def unclosed : List Event → List String
  | [] => []
  | .opening scope :: es => if staysOpen es then scope :: unclosed es else unclosed es
  | _ :: es => unclosed es

/-- How many of the scopes that are open before some events these close; all of them, where there is
    no answer. -/
def reach : List Event → Option Nat
  | [] => some 0
  | .opening _ :: es => (reach es).map (· - 1)
  | .closing :: es => (reach es).map (· + 1)
  | .finish :: _ => none
  | _ :: es => reach es

/-- Nowhere among some events have more than `n` more scopes been closed than opened, and none of them
    closes all scopes. -/
def StaysAbove (n : Nat) (es : List Event) : Prop :=
  ∀ before, before <+: es → before.any (·.finishes) = false ∧
    before.countP (·.closes) ≤ before.countP (·.opens) + n

theorem staysAbove_cons (n : Nat) (e : Event) (es : List Event) :
    StaysAbove n (e :: es) ↔ ∀ before, before <+: es →
      (e.finishes || before.any (·.finishes)) = false ∧
        before.countP (·.closes) + (if e.closes then 1 else 0) ≤
          before.countP (·.opens) + (if e.opens then 1 else 0) + n := by
  refine ⟨fun h before hb => ?_, fun h before hb => ?_⟩
  · have hcons := h (e :: before) ((List.prefix_cons_inj e).mpr hb)
    rwa [List.any_cons, List.countP_cons, List.countP_cons] at hcons
  · rcases List.prefix_cons_iff.mp hb with rfl | ⟨rest, rfl, hrest⟩
    · exact ⟨rfl, Nat.zero_le _⟩
    · rw [List.any_cons, List.countP_cons, List.countP_cons]
      exact h rest hrest

/-- One more scope may be closed behind one that opens. -/
theorem staysAbove_opening :
    StaysAbove n (.opening scope :: es) ↔ StaysAbove (n + 1) es := by
  rw [staysAbove_cons]
  refine forall₂_congr fun before _ => and_congr_right fun _ => ?_
  show before.countP _ + 0 ≤ before.countP _ + 1 + n ↔ _
  rw [Nat.add_assoc, Nat.add_comm 1 n]
  rfl

theorem staysAbove_closing : StaysAbove (n + 1) (.closing :: es) ↔ StaysAbove n es := by
  rw [staysAbove_cons]
  refine forall₂_congr fun before _ => and_congr_right fun _ => ?_
  show before.countP _ + 1 ≤ before.countP _ + 0 + (n + 1) ↔ _
  rw [Nat.add_zero, ← Nat.add_assoc, Nat.add_le_add_iff_right]
  rfl

theorem not_staysAbove_closing : ¬StaysAbove 0 (.closing :: es) := fun h =>
  absurd (((staysAbove_cons ..).mp h) [] List.nil_prefix).2 (by decide)

theorem not_staysAbove_finish : ¬StaysAbove n (.finish :: es) := fun h =>
  absurd (((staysAbove_cons ..).mp h) [] List.nil_prefix).1 (by decide)

/-- How many more scopes may be closed than opened among events is how many of the scopes before
    them they close. -/
theorem staysAbove_iff (n : Nat) (es : List Event) :
    StaysAbove n es ↔ ∃ k ≤ n, reach es = some k := by
  induction es generalizing n with
  | nil => simp [StaysAbove, reach]
  | cons e es ih =>
    cases e with
    | text s => exact (staysAbove_cons ..).trans (ih n)
    | nested language events => exact (staysAbove_cons ..).trans (ih n)
    | finish => simp [not_staysAbove_finish, reach]
    | opening scope =>
      rw [staysAbove_opening, ih]
      constructor
      · rintro ⟨k, hk, hreach⟩
        exact ⟨k - 1, by omega, Option.map_eq_some_iff.mpr ⟨k, hreach, rfl⟩⟩
      · rintro ⟨_, hk, hreach⟩
        obtain ⟨k, hinner, rfl⟩ := Option.map_eq_some_iff.mp hreach
        exact ⟨k, by omega, hinner⟩
    | closing =>
      cases n with
      | zero => simp [not_staysAbove_closing, reach]
      | succ n =>
        rw [staysAbove_closing, ih]
        constructor
        · rintro ⟨k, hk, hreach⟩
          exact ⟨k + 1, by omega, Option.map_eq_some_iff.mpr ⟨k, hreach, rfl⟩⟩
        · rintro ⟨_, hk, hreach⟩
          obtain ⟨k, hinner, rfl⟩ := Option.map_eq_some_iff.mp hreach
          exact ⟨k, by omega, hinner⟩

/-- A scope stays open as long as events reach none before them. -/
theorem staysOpen_iff (es : List Event) : staysOpen es = true ↔ reach es = some 0 := by
  have h := staysAbove_iff 0 es
  simp only [Nat.le_zero, exists_eq_left] at h
  rw [← h]
  simp [staysOpen, StaysAbove]

namespace TokenTree

/-- **Events leave open what they open and do not close**, and of the scopes before them those that
    they do not reach. -/
theorem labels_applyAll_eq (t : TokenTree) (es : List Event) :
    (t.applyAll es).labels =
      (unclosed es).reverse ++ ((reach es).map (t.labels.drop ·)).getD [] := by
  induction es generalizing t with
  | nil => rfl
  | cons e es ih =>
    show ((t.apply e).applyAll es).labels = _
    rw [ih (t.apply e), labels_apply_getD]
    cases e with
    | text s => rfl
    | nested language events => rfl
    | finish => cases reach es <;> simp [unclosed, reach, Event.openAfter]
    | closing =>
      cases hlabels : t.labels <;> cases hreach : reach es <;>
        simp [unclosed, reach, Event.openAfter, hreach]
    | opening scope =>
      have hstays := staysOpen_iff es
      cases hreach : reach es with
      | none => simp [unclosed, reach, Event.openAfter, hstays, hreach]
      | some k => cases k <;> simp [unclosed, reach, Event.openAfter, hstays, hreach]

/-- **The scopes that are open in a tree are those that its events open and do not close.** -/
theorem labels_ofEvents (es : List Event) : (ofEvents es).labels = (unclosed es).reverse := by
  unfold ofEvents
  rw [labels_applyAll_eq]
  cases reach es <;> simp [labels, empty]

theorem depth_eq (t : TokenTree) : t.depth = t.labels.length := (List.length_map _).symm

end TokenTree

/-! ## 2. Rows of nodes -/

/-- **A row of nodes is tidy**: no text in it is empty, and no two texts stand side by side. -/
structure Tidy (children : List Node) : Prop where
  nonempty : Node.text "" ∉ children
  apart : ∀ before s t after, children ≠ before ++ .text s :: .text t :: after

theorem tidy_nil : Tidy [] := ⟨List.not_mem_nil, fun before s t after h => by simp at h⟩

theorem tidy_cons : Tidy (node :: children) ↔
    node ≠ .text "" ∧ (∀ s t rest, node = .text s → children ≠ .text t :: rest) ∧
      Tidy children := by
  constructor
  · rintro ⟨hnonempty, hapart⟩
    obtain ⟨hnode, hrest⟩ := not_or.mp fun h => hnonempty (List.mem_cons.mpr h)
    refine ⟨fun h => hnode h.symm, ?_, hrest, fun before s t after h => ?_⟩
    · rintro s t rest rfl rfl
      exact hapart [] s t rest rfl
    · exact hapart (node :: before) s t after (congrArg _ h)
  · rintro ⟨hnode, hhead, hnonempty, hapart⟩
    refine ⟨fun h => ?_, fun before s t after h => ?_⟩
    · rcases List.mem_cons.mp h with h | h
      · exact hnode h.symm
      · exact hnonempty h
    · cases before with
      | nil =>
        cases h
        exact hhead s t after rfl rfl
      | cons first before =>
        cases h
        exact hapart before s t after rfl

theorem tidy_reverse (h : Tidy children) : Tidy children.reverse := by
  refine ⟨fun hmem => h.nonempty (List.mem_reverse.mp hmem), fun before s t after heq => ?_⟩
  refine h.apart after.reverse t s before.reverse ?_
  rw [← List.reverse_reverse children, heq]
  simp

/-- A node at the end of a row joins it tidily. Rows under construction have their last node first. -/
theorem tidy_pushNode (hnode : node ≠ .text "") (h : Tidy children) :
    Tidy (pushNode node children) := by
  unfold pushNode
  split
  · rename_i s last rest
    obtain ⟨hlast, hhead, hrest⟩ := tidy_cons.mp h
    refine tidy_cons.mpr ⟨fun hempty => ?_, fun _ t more _ => hhead last t more rfl, hrest⟩
    exact hlast (congrArg _ (String.append_eq_empty_iff.mp (Node.text.inj hempty)).1)
  · rename_i hno
    refine tidy_cons.mpr ⟨hnode, fun s t rest hs hrest => ?_, h⟩
    exact hno s t rest hs hrest

/-- **Every row of nodes under a node is tidy.** -/
inductive Node.AllTidy : Node → Prop
  | text (s : String) : AllTidy (.text s)
  | scope {label : Option String} {children : List Node} : Tidy children →
      (∀ n ∈ children, AllTidy n) → AllTidy (.scope label children)

/-- A row is tidy, and so is every row under its nodes. -/
structure AllTidy (children : List Node) : Prop where
  row : Tidy children
  nodes : ∀ n ∈ children, n.AllTidy

theorem allTidy_reverse (h : AllTidy children) : AllTidy children.reverse :=
  ⟨tidy_reverse h.row, fun n hn => h.nodes n (List.mem_reverse.mp hn)⟩

theorem allTidy_pushNode (hnode : node ≠ .text "") (htidy : node.AllTidy) (h : AllTidy children) :
    AllTidy (pushNode node children) := by
  refine ⟨tidy_pushNode hnode h.row, ?_⟩
  unfold pushNode
  split
  · exact List.forall_mem_cons.mpr ⟨.text _, (List.forall_mem_cons.mp h.nodes).2⟩
  · exact List.forall_mem_cons.mpr ⟨htidy, h.nodes⟩

namespace TokenTree

variable {t : TokenTree}

/-- Every row of a tree under construction is tidy, those of open scopes included. -/
structure AllTidy (t : TokenTree) : Prop where
  top : Token.AllTidy t.top
  opened : ∀ s ∈ t.opened, Token.AllTidy s.children

theorem allTidy_empty : empty.AllTidy :=
  ⟨⟨tidy_nil, fun _ hn => by cases hn⟩, fun _ hs => by cases hs⟩

theorem allTidy_push (hnode : node ≠ .text "") (htidy : node.AllTidy) (ht : t.AllTidy) :
    (t.push node).AllTidy := by
  unfold push
  cases h : t.opened with
  | nil => exact ⟨allTidy_pushNode hnode htidy ht.top, by simp⟩
  | cons s rest =>
    have hopened := ht.opened
    rw [h] at hopened
    obtain ⟨hs, hrest⟩ := List.forall_mem_cons.mp hopened
    exact ⟨ht.top, List.forall_mem_cons.mpr ⟨allTidy_pushNode hnode htidy hs, hrest⟩⟩

/-- A row becomes the row of a scope as it is. -/
theorem allTidy_scope {label : Option String} (h : Token.AllTidy children) :
    (Node.scope label children.reverse).AllTidy :=
  .scope (allTidy_reverse h).row (allTidy_reverse h).nodes

theorem allTidy_closeScope (ht : t.AllTidy) : t.closeScope.AllTidy := by
  unfold closeScope
  cases h : t.opened with
  | nil => exact ht
  | cons s rest =>
    have hopened := ht.opened
    rw [h] at hopened
    obtain ⟨hs, hrest⟩ := List.forall_mem_cons.mp hopened
    exact allTidy_push (fun heq => by cases heq) (allTidy_scope hs) ⟨ht.top, hrest⟩

theorem allTidy_finish (ht : t.AllTidy) : t.finish.AllTidy := by
  unfold finish
  generalize t.opened.length = count
  induction count generalizing t with
  | zero => exact ht
  | succ count ih => exact ih (allTidy_closeScope ht)

mutual

/-- **An event leaves every row of nodes tidy.** -/
theorem allTidy_apply {t : TokenTree} (ht : t.AllTidy) (e : Event) : (t.apply e).AllTidy :=
  match e with
  | .text s => by
    show (t.addText s).AllTidy
    unfold addText
    split
    · exact ht
    · rename_i hs
      refine allTidy_push (fun heq => hs ?_) (.text s) ht
      rw [Node.text.inj heq]
      rfl
  | .opening scope =>
    ⟨ht.top, List.forall_mem_cons.mpr ⟨⟨tidy_nil, fun _ hn => by cases hn⟩, ht.opened⟩⟩
  | .closing => allTidy_closeScope ht
  | .nested language events =>
    -- The nested events build a tree of their own, the root of which becomes a node.
    have hother := allTidy_finish (allTidy_applyAll allTidy_empty events)
    allTidy_push (fun heq => by cases heq) (allTidy_scope hother.top) ht
  | .finish => allTidy_finish ht

theorem allTidy_applyAll {t : TokenTree} (ht : t.AllTidy) (es : List Event) :
    (t.applyAll es).AllTidy :=
  match es with
  | [] => ht
  | e :: es => allTidy_applyAll (allTidy_apply ht e) es

end

end TokenTree

/-! ## 3. The nodes of a tree -/

/-- A node is another one, or stands somewhere under it. -/
inductive Node.Under (n : Node) : Node → Prop
  | self : Under n n
  | child {label : Option String} {children : List Node} {c : Node} : c ∈ children → Under n c →
      Under n (.scope label children)

/-- An open scope as the node that it will be. -/
def OpenScope.toNode (s : OpenScope) : Node := .scope (some s.label) s.children.reverse

/-- **The nodes of a tree under construction**: the root, the scopes that are open, and all that
    stands under one of these, nested trees included. -/
def TokenTree.Has (t : TokenTree) (n : Node) : Prop :=
  ∃ top ∈ t.root :: t.opened.map (·.toNode), n.Under top

theorem Node.AllTidy.under {n : Node} (h : node.AllTidy) (hn : n.Under node) : n.AllTidy := by
  induction hn with
  | self => exact h
  | child hc _ ih =>
    cases h with
    | scope _ hnodes => exact ih (hnodes _ hc)

/-- **Every row of nodes that is in a tree is tidy**, whatever its events were. -/
theorem TokenTree.tidy_of_has {label : Option String}
    (h : (ofEvents es).Has (.scope label children)) : Tidy children := by
  have htree : (ofEvents es).AllTidy := allTidy_applyAll allTidy_empty es
  obtain ⟨top, htop, hunder⟩ := h
  have htidy : top.AllTidy := by
    rcases List.mem_cons.mp htop with rfl | htop
    · exact allTidy_scope htree.top
    · obtain ⟨s, hs, rfl⟩ := List.mem_map.mp htop
      exact allTidy_scope (htree.opened s hs)
  cases htidy.under hunder with
  | scope hrow _ => exact hrow

/-! ## 4. The text of a tree -/

mutual

theorem map_fst_nodeLeaves (path : List String) (n : Node) :
    (n.leaves path).map (·.1) = n.textOf.toList :=
  match n with
  | .text s => map_fst_leavesOf path s
  | .scope _ children => map_fst_nodesLeaves _ children

/-- The characters under nodes are those of their text. -/
theorem map_fst_nodesLeaves (path : List String) (ns : List Node) :
    (nodesLeaves path ns).map (·.1) = (nodesText ns).toList :=
  match ns with
  | [] => rfl
  | n :: ns => by
    show (n.leaves path ++ nodesLeaves path ns).map (·.1) = (n.textOf ++ nodesText ns).toList
    rw [List.map_append, map_fst_nodeLeaves path n, map_fst_nodesLeaves path ns,
      String.toList_append]

end

namespace TokenTree

/-- **The text of a tree whose scopes have been closed is that of its events**, in order. -/
theorem textOf_finish (es : List Event) : (ofEvents es).finish.root.textOf = textsOf es := by
  refine String.toList_inj.mp ?_
  have hleaves : nodesLeaves [] (ofEvents es).finish.children = eventsLeaves [] [] es := by
    rw [leaves_children (labels_finish _), leaves_finish]
    exact leaves_applyAll [] .empty es
  show (nodesText (ofEvents es).finish.children).toList = _
  rw [← map_fst_nodesLeaves [], hleaves, map_fst_eventsLeaves]

/-! ## 5. Texts cut elsewhere -/

theorem pushNode_text_text (a b : String) (ns : List Node) :
    pushNode (.text b) (pushNode (.text a) ns) = pushNode (.text (a ++ b)) ns := by
  cases ns with
  | nil => rfl
  | cons n ns =>
    cases n with
    | text last => simp [pushNode, String.append_assoc]
    | scope label children => rfl

theorem push_text_text (t : TokenTree) (a b : String) :
    (t.push (.text a)).push (.text b) = t.push (.text (a ++ b)) := by
  cases h : t.opened <;> simp [push, h, pushNode_text_text]

/-- **Text that follows text is as good as one text.** -/
theorem addText_addText (t : TokenTree) (a b : String) :
    (t.addText a).addText b = t.addText (a ++ b) := by
  unfold addText
  by_cases ha : a = ""
  · simp [ha]
  · by_cases hb : b = ""
    · simp [ha, hb]
    · simp [ha, hb, push_text_text]

theorem applyAll_append (t : TokenTree) (es fs : List Event) :
    t.applyAll (es ++ fs) = (t.applyAll es).applyAll fs := by
  induction es generalizing t with
  | nil => rfl
  | cons e es ih => exact ih (t.apply e)

theorem applyAll_texts (t : TokenTree) (ss : List String) :
    t.applyAll (ss.map .text) = t.addText (String.join ss) := by
  induction ss generalizing t with
  | nil => rfl
  | cons s ss ih =>
    show (t.addText s).applyAll (ss.map .text) = _
    rw [ih, addText_addText, String.join_cons]

end TokenTree

/-- **The same events with their texts cut elsewhere**: wherever some texts stand one after the
    other, perhaps none at all, others stand there that are the same when put together. -/
inductive Recut : List Event → List Event → Prop
  | none : Recut [] []
  | texts (ss ss' : List String) {es es' : List Event} : String.join ss = String.join ss' →
      Recut es es' → Recut (ss.map .text ++ es) (ss'.map .text ++ es')
  | opening (scope : String) {es es' : List Event} : Recut es es' →
      Recut (.opening scope :: es) (.opening scope :: es')
  | closing {es es' : List Event} : Recut es es' → Recut (.closing :: es) (.closing :: es')
  | nested (language : Option String) {inner inner' es es' : List Event} : Recut inner inner' →
      Recut es es' → Recut (.nested language inner :: es) (.nested language inner' :: es')
  | finish {es es' : List Event} : Recut es es' → Recut (.finish :: es) (.finish :: es')

/-- **It does not matter where texts are cut.** -/
theorem TokenTree.applyAll_recut (h : Recut es es') (t : TokenTree) :
    t.applyAll es = t.applyAll es' := by
  induction h generalizing t with
  | none => rfl
  | texts ss ss' hjoin _ ih =>
    rw [applyAll_append, applyAll_append, applyAll_texts, applyAll_texts, hjoin, ih]
  | opening scope _ ih => exact ih _
  | closing _ ih => exact ih _
  | nested language _ _ ihinner ih =>
    show (t.splice (applyAll .empty _) language).applyAll _ = _
    rw [ihinner]
    exact ih _
  | finish _ ih => exact ih _

/-! ## 6. The result -/

namespace TokenTree

/-- A closing that finds no scope open does nothing. -/
theorem closeScope_of_depth (t : TokenTree) (h : t.depth = 0) : t.closeScope = t := by
  unfold closeScope
  rw [List.length_eq_zero_iff.mp h]

/-- **A token tree is a canonical form of the events that build it**, whatever these are. As many
    scopes are open in it as the events open and do not close, and a closing without a scope does
    nothing; no node that is in it, the root, open scopes and nested trees included, has an empty
    text or two texts side by side under it; when all scopes are closed its text is that of the
    events, in order; and events with their texts cut elsewhere build the same tree. -/
theorem tree_is_canonical (es : List Event) :
    (ofEvents es).depth = (unclosed es).length ∧
    ((ofEvents es).depth = 0 → ∀ rest, ofEvents (es ++ .closing :: rest) = ofEvents (es ++ rest)) ∧
    (∀ label children, (ofEvents es).Has (.scope label children) → Tidy children) ∧
    (ofEvents es).finish.root.textOf = textsOf es ∧
    ∀ es', Recut es es' → ofEvents es = ofEvents es' := by
  refine ⟨?_, fun h rest => ?_, fun _ _ => tidy_of_has, textOf_finish es,
    fun es' h => applyAll_recut h .empty⟩
  · rw [depth_eq, labels_ofEvents, List.length_reverse]
  · unfold ofEvents at h ⊢
    rw [applyAll_append, applyAll_append]
    show (closeScope _).applyAll rest = _
    rw [closeScope_of_depth _ h]

/-- Events that close more than they open, and leave a scope open; the nested ones do not finish. -/
def ragged : List Event :=
  [.closing, .text "a", .opening "x", .text "b", .text "", .nested (some "l") [.opening "y",
    .text "c", .text "d"], .closing, .closing, .text "e", .opening "z", .opening "w", .closing]

/-- The same events, cut elsewhere. -/
def raggedElsewhere : List Event :=
  [.closing, .text "a", .opening "x", .text "b", .nested (some "l") [.opening "y", .text "cd"],
    .closing, .text "", .closing, .text "", .text "e", .opening "z", .opening "w", .closing]

theorem recut_ragged : Recut ragged raggedElsewhere :=
  .closing <| .texts ["a"] ["a"] rfl <| .opening "x" <|
    .texts ["b", ""] ["b"] rfl <|
    .nested (some "l") (.opening "y" <| .texts ["c", "d"] ["cd"] rfl .none) <|
    .closing <| .texts [] [""] rfl <| .closing <|
    .texts ["e"] ["", "e"] rfl <| .opening "z" <| .opening "w" <| .closing .none

/-- Ragged events leave one scope open, in a tidy tree that has their text. -/
theorem ragged_events_build_tree :
    unclosed ragged = ["z"] ∧ (ofEvents ragged).depth = 1 ∧
    (ofEvents ragged).Has (.scope (some "y") [.text "cd"]) ∧ Tidy [.text "cd"] ∧
    (ofEvents ragged).finish.root.textOf = "abcde" ∧
    ofEvents ragged = ofEvents raggedElsewhere ∧
    (ofEvents (ragged.take 8)).depth = 0 ∧
    ofEvents (ragged.take 8 ++ [.closing, .text "f"]) = ofEvents (ragged.take 8 ++ [.text "f"]) := by
  obtain ⟨hdepth, -, htidy, htext, hrecut⟩ := tree_is_canonical ragged
  have hopen : unclosed ragged = ["z"] := by decide
  have hroot : (ofEvents ragged).root = .scope none [.text "a", .scope (some "x") [.text "b",
      .scope (some "language:l") [.scope (some "y") [.text "cd"]]], .text "e"] := rfl
  have hhas : (ofEvents ragged).Has (.scope (some "y") [.text "cd"]) := by
    refine ⟨(ofEvents ragged).root, List.mem_cons_self, ?_⟩
    rw [hroot]
    exact .child (.tail _ (.head _)) <| .child (.tail _ (.head _)) <| .child (.head _) .self
  have hclosed : (ofEvents (ragged.take 8)).depth = 0 := (tree_is_canonical _).1
  refine ⟨hopen, hdepth.trans (congrArg _ hopen), hhas, htidy _ _ hhas, htext, hrecut _ recut_ragged,
    hclosed, (tree_is_canonical _).2.1 hclosed [.text "f"]⟩

end TokenTree

end Highlight.Token
